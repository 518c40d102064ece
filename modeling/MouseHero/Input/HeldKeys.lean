import Mathlib.Data.Set.Insert
import MouseHero.Input.Modifiers
import MouseHero.Input.Releases

/-!
# Held keys

Which keys of the uinput device are down, and what the requests to the keyboard
do to them when all of their operations succeed.
-/

namespace MouseHero

open FaultM

/-! ## Keys that are down -/

namespace Uinput

/-- The latest event of the code that has been written is a key-down. -/
def isDown (code : UInt16) : List Attempt → Bool
  | [] => false
  | attempt :: earlier =>
      match attempt.event, attempt.written with
      | .key other down, true => if other = code then down else isDown code earlier
      | _, _ => isDown code earlier

/-- The codes of the keys that are down. -/
def heldKeys (uinput : Uinput) : Set UInt16 :=
  {code | isDown code uinput.attempts = true}

end Uinput

/-- What pressing, releasing or clicking a key does to the held ones. -/
def CDirection.applied (code : UInt16) (held : Set UInt16) :
    CDirection → Set UInt16
  | .press => insert code held
  | .release | .click => held \ {code}

/-- The key of an operation on a key, with its direction. -/
def DeviceCall.keyCode : DeviceCall → Option (UInt16 × CDirection)
  | .keyAction key direction => (ckeyToLinuxKeycode key).map (·, direction)
  | .keyActionRaw evdevKey direction => some (.ofInt evdevKey, direction)
  | _ => none

/-- The codes of some modifiers. -/
def modifierCodes (modifiers : List Modifier) : Set UInt16 :=
  {code | ∃ modifier ∈ modifiers, modifier.code = code}

theorem modifierCodes_cons (modifier : Modifier) (modifiers : List Modifier) :
    modifierCodes (modifier :: modifiers) =
      {modifier.code} ∪ modifierCodes modifiers := by
  ext code
  simp [modifierCodes, eq_comm]

namespace KeyboardCall

def direction : KeyboardCall → CDirection
  | .char _ _ direction => direction
  | .functionKey _ _ direction => direction

/-- The code of the main key, if the keymap or the backend has it. -/
def mainCode (platform : Platform) : KeyboardCall → Option UInt16
  | .char codepoint _ _ =>
      match mapCharToEvdevLinux platform codepoint with
      | .ok (evdevKey, _) => some (.ofInt evdevKey)
      | .error _ => none
  | .functionKey key _ _ => ckeyToLinuxKeycode key

/-- The codes of the modifiers of a request. -/
def neededCodes (platform : Platform) (call : KeyboardCall) : Set UInt16 :=
  {code | ∃ modifier, call.Needs platform modifier ∧ modifier.code = code}

/-- What a request does to the held keys: its modifiers are pressed, then comes
the main key, then the modifiers are released. -/
def effect (platform : Platform) (call : KeyboardCall) (held : Set UInt16) :
    Set UInt16 :=
  match call.mainCode platform with
  | none => held
  | some code =>
      call.direction.applied code (held ∪ call.neededCodes platform) \
        call.neededCodes platform

end KeyboardCall

/-! ## Writing -/

namespace Uinput

variable {uinput reached : Uinput}

/-- All events are written if the backend answers that it is fine. -/
theorem emitEvents_ok {events : List InputEvent}
    (returned : emitEvents events uinput = (.ok INPUT_BACKEND_OK, reached)) :
    reached.attempts =
      (events.map fun event => { event, written := true }).reverse ++
        uinput.attempts := by
  induction events generalizing uinput with
  | nil =>
      cases returned
      rfl
  | cons event rest inductionHypothesis =>
      rw [emitEvents_cons] at returned
      split at returned
      · cases returned
      · rw [inductionHypothesis returned, List.map_cons, List.reverse_cons,
          List.append_assoc]
        rfl

/-- Whole key events do to the held keys what the direction says. -/
theorem heldKeys_keyEvents {code : UInt16} {direction : CDirection}
    (written : reached.attempts =
      ((keyEvents code direction).map fun event =>
        { event, written := true }).reverse ++ uinput.attempts) :
    reached.heldKeys = direction.applied code uinput.heldKeys := by
  ext other
  change isDown other reached.attempts = true ↔ _
  rw [written]
  cases direction with
  | press | release | click =>
      by_cases same : code = other
      · simp [keyEvents, isDown, CDirection.applied, heldKeys, same]
      · simp [keyEvents, isDown, CDirection.applied, heldKeys, same, Ne.symm same]

theorem perform_eq_keyEvents {call : DeviceCall} {code : UInt16}
    {direction : CDirection} (isKey : call.keyCode = some (code, direction)) :
    perform call = emitEvents (keyEvents code direction) := by
  cases call with
  | keyAction key other =>
      obtain ⟨known, isCode, same⟩ := Option.map_eq_some_iff.mp isKey
      obtain ⟨rfl, rfl⟩ := Prod.mk.inj same
      exact keyAction_eq isCode _
  | keyActionRaw evdevKey other =>
      obtain ⟨rfl, rfl⟩ := Prod.mk.inj (Option.some.inj isKey)
      rfl
  | _ => cases isKey

theorem heldKeys_perform {call : DeviceCall} {code : UInt16}
    {direction : CDirection} (isKey : call.keyCode = some (code, direction))
    (succeeds : status call uinput = INPUT_BACKEND_OK) :
    (perform call uinput).2.heldKeys = direction.applied code uinput.heldKeys := by
  apply heldKeys_keyEvents
  apply emitEvents_ok
  rw [← perform_eq_keyEvents isKey, ← succeeds]
  exact perform_status call uinput

/-! ## During a request -/

/-- All of the operations are operations on keys that succeed.  The latest is
the first. -/
def Succeeded (fails : Nat → Bool) (before : List DeviceCall) :
    List DeviceCall → Prop
  | [] => True
  | call :: earlier =>
      (call.keyCode.isSome = true ∧
        latestStatus fails (call :: earlier ++ before) = INPUT_BACKEND_OK) ∧
        Succeeded fails before earlier

/-- The keys are held in a request that has begun behind the operations
`before`, if all of its operations have succeeded. -/
def HeldDuring (fails : Nat → Bool) (base : Platform) (before : List DeviceCall)
    (held : Set UInt16) (devices : Devices) : Prop :=
  ∃ calls, devices.trace = calls ++ before ∧
    (Succeeded fails before calls →
      devices.platform = platform fails base ∧
        (afterCalls fails devices.trace).heldKeys = held)

/-- An operation has not succeeded. -/
def Spoiled (fails : Nat → Bool) (before : List DeviceCall)
    (devices : Devices) : Prop :=
  ∃ calls, devices.trace = calls ++ before ∧ ¬ Succeeded fails before calls

section During

variable {fails : Nat → Bool} {base : Platform} {before : List DeviceCall}
variable {held : Set UInt16} {call : DeviceCall} {devices : Devices}

theorem Spoiled.heldDuring (spoiled : Spoiled fails before devices) :
    HeldDuring fails base before held devices := by
  obtain ⟨calls, isTrace, failed⟩ := spoiled
  exact ⟨calls, isTrace, fun succeeded => absurd succeeded failed⟩

theorem Succeeded.of_append {later calls : List DeviceCall}
    (succeeded : Succeeded fails before (later ++ calls)) :
    Succeeded fails before calls := by
  induction later with
  | nil => exact succeeded
  | cons call later inductionHypothesis => exact inductionHypothesis succeeded.2

theorem triple_spoiled {Answer : Type} {computation : DeviceM Answer}
    (extends' : Respects Devices.Extends computation) :
    Triple (Spoiled fails before) computation fun _ => Spoiled fails before := by
  intro devices reached value spoiled returned
  obtain ⟨calls, isTrace, failed⟩ := spoiled
  have longer := extends' devices
  rw [returned] at longer
  obtain ⟨later, isLater⟩ := longer
  refine ⟨later ++ calls, ?_, fun succeeded => failed succeeded.of_append⟩
  rw [← isLater, isTrace, List.append_assoc]

/-- An operation on a key succeeds, or it spoils the request. -/
def KeyOutcome (fails : Nat → Bool) (base : Platform) (before : List DeviceCall)
    (held : Set UInt16) (succeeds : Prop) (devices : Devices) : Prop :=
  (succeeds → HeldDuring fails base before held devices) ∧
    (¬ succeeds → Spoiled fails before devices)

theorem triple_key {code : UInt16} {direction : CDirection}
    (isKey : call.keyCode = some (code, direction)) :
    Triple (HeldDuring fails base before held)
      (operate call Platform.backendStatus)
      fun result => KeyOutcome fails base before (direction.applied code held)
        (result = INPUT_BACKEND_OK) := by
  intro devices reached result holds returned
  obtain ⟨calls, isTrace, kept⟩ := holds
  cases returned
  have isNew : call :: devices.trace = (call :: calls) ++ before := by
    rw [isTrace, List.cons_append]
  constructor
  · intro _
    refine ⟨call :: calls, isNew, fun succeeded => ?_⟩
    obtain ⟨isPlatform, isHeld⟩ := kept succeeded.2
    refine ⟨isPlatform, ?_⟩
    have succeeds := succeeded.1.2
    rw [← isNew] at succeeds
    rw [afterCalls, heldKeys_perform isKey succeeds, isHeld]
  · intro failed
    refine ⟨call :: calls, isNew, fun succeeded => failed ?_⟩
    obtain ⟨isPlatform, _⟩ := kept succeeded.2
    rw [isPlatform]
    change latestStatus fails (call :: devices.trace) = INPUT_BACKEND_OK
    rw [isNew]
    exact succeeded.1.2

theorem triple_operate_spoils {Answer : Type}
    (answer : Platform → List DeviceCall → Answer) (noKey : call.keyCode = none) :
    Triple (HeldDuring fails base before held) (operate call answer)
      fun _ => Spoiled fails before := by
  intro devices reached result holds returned
  obtain ⟨calls, isTrace, _⟩ := holds
  cases returned
  refine ⟨call :: calls, ?_, fun succeeded => ?_⟩
  · rw [isTrace, List.cons_append]
  · have isKey := succeeded.1.1
    rw [noKey] at isKey
    cases isKey

/-! ## Modifiers and main keys -/

theorem triple_facade_key {key : CKey} {code : UInt16} {direction : CDirection}
    (known : ckeyToLinuxKeycode key = some code) :
    Triple (HeldDuring fails base before held) (inputKeyAction key direction)
      fun err => KeyOutcome fails base before (direction.applied code held)
        (err = .success) := by
  have isKey : (DeviceCall.keyAction key direction).keyCode =
      some (code, direction) := by
    rw [DeviceCall.keyCode, known]
    rfl
  refine triple_bind (triple_key isKey) fun result => triple_pure fun devices holds => ?_
  rwa [KeyOutcome, translateBackendStatus_eq_success_iff]

theorem triple_holds_act (modifier : Modifier) (direction : CDirection) :
    Triple (HeldDuring fails base before held) (modifier.act direction)
      fun err => KeyOutcome fails base before
        (direction.applied modifier.code held) (err = .success) := by
  cases modifier with
  | altGr =>
      refine triple_bind (triple_key rfl) fun result =>
        triple_pure fun devices holds => ?_
      split
      · rename_i succeeds
        exact ⟨fun _ => holds.1 succeeds, fun failed => absurd rfl failed⟩
      · rename_i failed
        exact ⟨fun succeeds => absurd succeeds (by decide), fun _ => holds.2 failed⟩
  | shift | ctrl | metaKey | alt => exact triple_facade_key rfl

theorem KeyOutcome.heldDuring {succeeds : Prop}
    (outcome : KeyOutcome fails base before held succeeds devices) :
    HeldDuring fails base before held devices := by
  by_cases isTrue : succeeds
  · exact outcome.1 isTrue
  · exact (outcome.2 isTrue).heldDuring

theorem triple_holds_release (pressed : List Modifier) :
    Triple (HeldDuring fails base before held) (releaseModifiersUnified pressed)
      fun _ => HeldDuring fails base before (held \ modifierCodes pressed) := by
  induction pressed generalizing held with
  | nil =>
      refine triple_pure fun devices holds => ?_
      have none : modifierCodes [] = ∅ := by
        simp [modifierCodes]
      rwa [none, Set.sdiff_empty]
  | cons modifier pressed inductionHypothesis =>
      refine triple_bind ((triple_holds_act modifier .release).weaken
        (fun _ holds => holds) fun _ _ outcome => outcome.heldDuring) fun err => ?_
      refine inductionHypothesis.weaken (fun _ holds => holds) fun _ devices holds => ?_
      rwa [modifierCodes_cons, ← Set.sdiff_sdiff]

theorem triple_holds_press (pressed modifiers : List Modifier) :
    Triple (HeldDuring fails base before held)
      (pressModifiersFrom pressed modifiers)
      fun result devices =>
        match result with
        | .ok reported => reported = modifiers.reverse ++ pressed ∧
            HeldDuring fails base before (held ∪ modifierCodes modifiers) devices
        | .error _ => Spoiled fails before devices := by
  induction modifiers generalizing pressed held with
  | nil =>
      refine triple_pure fun devices holds => ⟨rfl, ?_⟩
      have none : modifierCodes [] = ∅ := by
        simp [modifierCodes]
      rwa [none, Set.union_empty]
  | cons modifier modifiers inductionHypothesis =>
      refine triple_bind (triple_holds_act modifier .press) fun err => ?_
      refine triple_ite (fun failed => ?_) fun succeeds => ?_
      · refine triple_bind ((triple_spoiled (releaseModifiersUnified_extends _)).weaken
          (fun _ outcome => outcome.2 failed) fun _ _ spoiled => spoiled) fun _ => ?_
        exact triple_pure fun _ spoiled => spoiled
      · refine (inductionHypothesis (modifier :: pressed)).weaken
          (fun _ outcome => outcome.1 (not_not.mp succeeds)) fun result devices holds => ?_
        cases result with
        | error err => exact holds
        | ok reported =>
            obtain ⟨isReported, during⟩ := holds
            rw [modifierCodes_cons, List.reverse_cons, List.append_assoc,
              Set.union_left_comm]
            exact ⟨isReported, by rwa [CDirection.applied, Set.insert_union] at during⟩

theorem triple_holds_injectMainKey (evdevKey : Int) (finalMods : UInt32)
    (direction : CDirection) :
    Triple (HeldDuring fails base before held)
      (injectMainKey evdevKey finalMods direction)
      fun result => KeyOutcome fails base before
        (direction.applied (.ofInt evdevKey) held) (result = INPUT_BACKEND_OK) := by
  refine triple_ite (fun split => ?_) fun _ => triple_key rfl
  refine triple_bind (triple_key rfl) fun result => ?_
  refine triple_ite (fun succeeds => ?_) fun failed => ?_
  · rw [split.1]
    refine (triple_key rfl).weaken (fun _ outcome => outcome.1 succeeds)
      fun result devices outcome => ?_
    rwa [CDirection.applied, CDirection.applied,
      Set.insert_sdiff_of_mem _ (Set.mem_singleton _)] at outcome
  · exact triple_pure fun _ outcome =>
      ⟨fun succeeds => absurd succeeds failed, outcome.2⟩

theorem triple_holds_paste (text : CString) :
    Triple (HeldDuring fails base before held) (clipboardPasteText text)
      fun _ => HeldDuring fails base before held := by
  cases text with
  | none => exact triple_pure fun _ holds => holds
  | some text =>
      refine triple_ite (fun _ => triple_pure fun _ holds => holds) fun _ => ?_
      refine triple_getState fun devices => ?_
      refine triple_ite (fun _ => triple_pure fun _ holds => holds.2) fun _ => ?_
      refine triple_bind ((triple_operate_spoils _ rfl).weaken
        (fun _ holds => holds.2) fun _ _ spoiled => spoiled) fun backup => ?_
      refine (triple_spoiled ?_).weaken (fun _ spoiled => spoiled)
        fun _ _ spoiled => spoiled.heldDuring
      apply bind_extends (operate_extends _ _)
      intro setErr
      apply respects_ite (pure_extends _)
      exact bind_extends (sendPasteShortcut_extends _) fun _ =>
        bind_extends (restoreClipboard_extends _) fun _ => pure_extends _

/-! ## Requests -/

theorem modifierCodes_eq_neededCodes {call : KeyboardCall} {platform : Platform}
    {wanted : List Modifier}
    (needs : ∀ modifier, modifier ∈ wanted ↔ call.Needs platform modifier) :
    modifierCodes wanted = call.neededCodes platform := by
  ext code
  simp [modifierCodes, KeyboardCall.neededCodes, needs]

theorem modifierCodes_reverse (modifiers : List Modifier) :
    modifierCodes (modifiers.reverse ++ []) = modifierCodes modifiers := by
  simp [modifierCodes]

theorem effect_eq {call : KeyboardCall} {platform : Platform} {code : UInt16}
    {wanted : List Modifier} (known : call.mainCode platform = some code)
    (needs : ∀ modifier, modifier ∈ wanted ↔ call.Needs platform modifier) :
    call.effect platform held =
      call.direction.applied code (held ∪ modifierCodes wanted) \
        modifierCodes wanted := by
  rw [KeyboardCall.effect, known, modifierCodes_eq_neededCodes needs]

theorem triple_holds_char {codepoint : Int32} {userMods : UInt32}
    {direction : CDirection} {evdevKey : Int} {xkbMods : UInt32}
    {platform : Platform}
    (mapped : mapCharToEvdevLinux platform codepoint = .ok (evdevKey, xkbMods)) :
    Triple (HeldDuring fails base before held)
      (pressModifiersUnified (mergeModifiers userMods xkbMods)
          (userMods &&& CHORD_MOD_ALT ≠ 0) >>=
        injectCharacter codepoint evdevKey (mergeModifiers userMods xkbMods)
          direction)
      fun _ => HeldDuring fails base before
        ((KeyboardCall.char codepoint userMods direction).effect platform held) := by
  have needs (modifier : Modifier) :
      modifier ∈ requestedModifiers (mergeModifiers userMods xkbMods)
          (userMods &&& CHORD_MOD_ALT ≠ 0) ↔
        (KeyboardCall.char codepoint userMods direction).Needs platform modifier :=
    KeyboardCall.needs_char mapped
  have known : (KeyboardCall.char codepoint userMods direction).mainCode platform =
      some (.ofInt evdevKey) := by
    rw [KeyboardCall.mainCode, mapped]
  rw [effect_eq known needs]
  refine triple_bind (triple_holds_press [] _) fun result => ?_
  cases result with
  | error err =>
      have pastes := @triple_spoiled fails before _ _
        (clipboardPasteText_extends (some (encodeCodepointToUtf8 codepoint)))
      exact pastes.weaken (fun _ spoiled => spoiled)
        fun _ _ spoiled => spoiled.heldDuring
  | ok reported =>
      refine triple_assume fun isReported => ?_
      refine triple_bind (triple_holds_injectMainKey evdevKey _ direction)
        fun result => ?_
      refine triple_bind ((triple_holds_release reported).weaken
        (fun _ outcome => outcome.heldDuring) fun _ _ holds => holds) fun _ => ?_
      rw [isReported, modifierCodes_reverse]
      exact triple_ite (fun _ => triple_holds_paste _)
        fun _ => triple_pure fun _ holds => holds

theorem triple_holds_functionKey {key : CKey} {code : UInt16} {userMods : UInt32}
    {direction : CDirection} (platform : Platform)
    (known : ckeyToLinuxKeycode key = some code) :
    Triple (HeldDuring fails base before held)
      (keyboardFunctionKey key userMods direction)
      fun _ => HeldDuring fails base before
        ((KeyboardCall.functionKey key userMods direction).effect platform held) := by
  rw [@effect_eq held (.functionKey key userMods direction) platform code _ known
    fun _ => KeyboardCall.mem_requested_functionKey_iff]
  refine triple_bind (triple_holds_press [] _) fun result => ?_
  cases result with
  | error err => exact triple_pure fun _ spoiled => spoiled.heldDuring
  | ok reported =>
      refine triple_assume fun isReported => ?_
      refine triple_bind (triple_facade_key known) fun err => ?_
      refine triple_bind ((triple_holds_release reported).weaken
        (fun _ outcome => outcome.heldDuring) fun _ _ holds => holds) fun _ => ?_
      rw [isReported, modifierCodes_reverse]
      exact triple_pure fun _ holds => holds

theorem triple_holds_unsupported {key : CKey} {userMods : UInt32}
    {direction : CDirection} (unknown : ckeyToLinuxKeycode key = none) :
    Triple (HeldDuring fails base before held)
      (keyboardFunctionKey key userMods direction)
      fun _ => HeldDuring fails base before held := by
  have noKey : (DeviceCall.keyAction key direction).keyCode = none := by
    rw [DeviceCall.keyCode, unknown]
    rfl
  have spoils : Triple
      (HeldDuring fails base before
        (held ∪ modifierCodes (requestedModifiers
          ((if userMods &&& CHORD_MOD_SHIFT ≠ 0 then 1 else 0) |||
            (if userMods &&& CHORD_MOD_CTRL ≠ 0 then 4 else 0) |||
            (if userMods &&& CHORD_MOD_META ≠ 0 then 8 else 0))
          (userMods &&& CHORD_MOD_ALT ≠ 0))))
      (inputKeyAction key direction) fun _ => Spoiled fails before :=
    triple_bind (triple_operate_spoils _ noKey)
      fun _ => triple_pure fun _ spoiled => spoiled
  refine triple_bind (triple_holds_press [] _) fun result => ?_
  cases result with
  | error err => exact triple_pure fun _ spoiled => spoiled.heldDuring
  | ok reported =>
      refine triple_assume fun _ => triple_bind spoils fun err => ?_
      refine triple_bind (triple_spoiled (releaseModifiersUnified_extends reported))
        fun _ => ?_
      exact triple_pure fun _ spoiled => spoiled.heldDuring

theorem triple_holds_perform (call : KeyboardCall) (start : Devices) :
    Triple (fun devices => devices = start ∧ HeldDuring fails base before held devices)
      call.perform
      fun _ => HeldDuring fails base before (call.effect start.platform held) := by
  cases call with
  | char codepoint userMods direction =>
      refine triple_getState fun devices => ?_
      by_cases same : devices = start
      · rw [same]
        cases mapped : mapCharToEvdevLinux start.platform codepoint with
        | error err =>
            rw [KeyboardCall.effect, KeyboardCall.mainCode, mapped]
            exact (triple_holds_paste _).weaken (fun _ holds => holds.2.2)
              fun _ _ holds => holds
        | ok key =>
            exact (triple_holds_char mapped).weaken (fun _ holds => holds.2.2)
              fun _ _ holds => holds
      · intro current reached value holds
        exact absurd (holds.1.symm.trans holds.2.1) same
  | functionKey key userMods direction =>
      cases known : ckeyToLinuxKeycode key with
      | none =>
          rw [KeyboardCall.effect, KeyboardCall.mainCode, known]
          exact (triple_holds_unsupported known).weaken (fun _ holds => holds.2)
            fun _ _ holds => holds
      | some code =>
          exact (triple_holds_functionKey start.platform known).weaken
            (fun _ holds => holds.2) fun _ _ holds => holds

end During

end Uinput

end MouseHero
