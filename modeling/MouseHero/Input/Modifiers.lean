import MouseHero.Input.Keyboard
import MouseHero.Library.Brackets

/-!
# Modifiers around keys

The steps of a keyboard request up to pasting: which modifiers are pressed and
released, and when the main key is injected.
-/

namespace MouseHero

open FaultM Brackets

/-! ## Steps of a request -/

/-- Modifiers are acquired and released, for operations with the main key. -/
abbrev KeyStep := Step Modifier DeviceCall

/-- The operation that presses or releases a modifier. -/
def Modifier.call (direction : CDirection) : Modifier → DeviceCall
  | shift => .keyAction .shift direction
  | altGr => .keyActionRaw KEY_RIGHTALT direction
  | ctrl => .keyAction .control direction
  | metaKey => .keyAction .metaKey direction
  | alt => .keyAction .alt direction

/-- The operation of a step. -/
def stepCall : KeyStep → DeviceCall
  | .acquire modifier _ => modifier.call .press
  | .release modifier => modifier.call .release
  | .use call => call

/-- A step is called a success as the backend says. -/
def StepAnswered (platform : Platform) (before : List DeviceCall)
    (step : KeyStep) : Prop :=
  ∀ modifier succeeded, step = .acquire modifier succeeded →
    (succeeded = true ↔
      platform.backendStatus (stepCall step :: before) = INPUT_BACKEND_OK)

/-- The steps are performed one after another. -/
inductive Performs (platform : Platform) :
    List DeviceCall → List KeyStep → List DeviceCall → Prop
  | nil (trace : List DeviceCall) : Performs platform trace [] trace
  | cons {before after : List DeviceCall} {step : KeyStep}
      {later : List KeyStep} :
      StepAnswered platform before step →
      Performs platform (stepCall step :: before) later after →
      Performs platform before (step :: later) after

/-- Between two states of the devices, exactly these steps are performed. -/
def Devices.Does (before : Devices) (steps : List KeyStep)
    (after : Devices) : Prop :=
  Performs before.platform before.trace steps after.trace ∧
    after = { before with trace := after.trace }

/-- A request to the keyboard. -/
inductive KeyboardCall where
  | char (codepoint : Int32) (mods : UInt32) (direction : CDirection)
  | functionKey (key : CKey) (mods : UInt32) (direction : CDirection)
  deriving DecidableEq, Repr

namespace KeyboardCall

def perform : KeyboardCall → DeviceM YAError
  | .char codepoint mods direction => keyboardChar codepoint mods direction
  | .functionKey key mods direction => keyboardFunctionKey key mods direction

/-- The modifiers of the mask of a request. -/
def asks (mods : UInt32) : Modifier → Prop
  | .shift => mods &&& CHORD_MOD_SHIFT ≠ 0
  | .altGr => False
  | .ctrl => mods &&& CHORD_MOD_CTRL ≠ 0
  | .metaKey => mods &&& CHORD_MOD_META ≠ 0
  | .alt => mods &&& CHORD_MOD_ALT ≠ 0

/-- The modifiers of a request: those of its mask and those that the keymap
requires for the character. -/
def Needs (platform : Platform) : KeyboardCall → Modifier → Prop
  | .char codepoint mods _, modifier =>
      asks mods modifier ∨
        ∃ evdevKey xkbMods,
          mapCharToEvdevLinux platform codepoint = .ok (evdevKey, xkbMods) ∧
            xkbMods &&& modifier.bit ≠ 0
  | .functionKey _ mods _, modifier => asks mods modifier

/-- An operation with the main key of a request. -/
def IsMainKey (platform : Platform) : KeyboardCall → DeviceCall → Prop
  | .char codepoint _ _, call =>
      ∃ evdevKey xkbMods direction,
        mapCharToEvdevLinux platform codepoint = .ok (evdevKey, xkbMods) ∧
          call = .keyActionRaw evdevKey direction
  | .functionKey key _ direction, call => call = .keyAction key direction

/-- What a request does, up to pasting a text, is balanced. -/
def BalancedFrom (call : KeyboardCall) (before : Devices) : Prop :=
  ∃ steps middle, before.Does steps middle ∧
    Balanced (call.Needs before.platform) steps ∧
    (∀ modifier ∈ steps.filterMap Step.tried, call.Needs before.platform modifier) ∧
    (∀ use ∈ steps.filterMap Step.used, call.IsMainKey before.platform use) ∧
    ((call.perform before).2 = middle ∨
      ∃ text, call.perform before = clipboardPasteText text middle)

/-- Every request of a sequence is balanced. -/
def BalancedRun : List KeyboardCall → Devices → Prop
  | [], _ => True
  | call :: later, devices =>
      call.BalancedFrom devices ∧ BalancedRun later (call.perform devices).2

end KeyboardCall

/-! ## Performing steps -/

section Does

variable {before middle after : Devices} {steps later : List KeyStep}

theorem Performs.append {platform : Platform}
    {first second third : List DeviceCall}
    (initial : Performs platform first steps second)
    (next : Performs platform second later third) :
    Performs platform first (steps ++ later) third := by
  induction initial with
  | nil trace => exact next
  | cons answered _ inductionHypothesis =>
      exact .cons answered (inductionHypothesis next)

theorem Devices.Does.refl (devices : Devices) : devices.Does [] devices :=
  ⟨.nil _, rfl⟩

theorem Devices.Does.append (initial : before.Does steps middle)
    (next : middle.Does later after) : before.Does (steps ++ later) after := by
  obtain ⟨performed, same⟩ := initial
  obtain ⟨goesOn, sameLater⟩ := next
  rw [same] at goesOn sameLater
  exact ⟨performed.append goesOn, sameLater⟩

theorem Devices.Does.step {step : KeyStep}
    (answered : StepAnswered before.platform before.trace step) :
    before.Does [step]
      { before with trace := stepCall step :: before.trace } :=
  ⟨.cons answered (.nil _), rfl⟩

end Does

section Operations

variable (devices : Devices)

theorem Modifier.act_eq (modifier : Modifier) (direction : CDirection) :
    ∃ err,
      modifier.act direction devices =
        (.ok err,
          { devices with trace := modifier.call direction :: devices.trace }) ∧
      (err = .success ↔
        devices.platform.backendStatus
          (modifier.call direction :: devices.trace) = INPUT_BACKEND_OK) := by
  cases modifier with
  | altGr =>
      refine ⟨_, rfl, ?_⟩
      split
      · rename_i isOk
        exact iff_of_true rfl isOk
      · rename_i failed
        exact iff_of_false (fun same => by cases same) failed
  | shift | ctrl | metaKey | alt =>
      exact ⟨_, rfl, translateBackendStatus_eq_success_iff⟩

theorem releaseModifiersUnified_does (pressed : List Modifier) :
    ∃ after, releaseModifiersUnified pressed devices = (.ok ⟨⟩, after) ∧
      devices.Does (releaseAll pressed) after := by
  induction pressed generalizing devices with
  | nil => exact ⟨devices, rfl, .refl devices⟩
  | cons modifier pressed inductionHypothesis =>
      obtain ⟨err, acted, _⟩ := modifier.act_eq devices .release
      obtain ⟨after, returned, does⟩ := inductionHypothesis
        { devices with trace := modifier.call .release :: devices.trace }
      refine ⟨after, ?_, ?_⟩
      · rw [releaseModifiersUnified, bind_of_ok acted, returned]
      · have first : devices.Does [.release modifier]
            { devices with trace := modifier.call .release :: devices.trace } :=
          .step fun _ _ isPress => by cases isPress
        exact first.append does

/-- All modifiers are pressed, or those in front of a failure are pressed and
released with the earlier ones. -/
theorem pressModifiersFrom_does (pressed modifiers : List Modifier) :
    (∃ after,
      pressModifiersFrom pressed modifiers devices =
          (.ok (.ok (modifiers.reverse ++ pressed)), after) ∧
        devices.Does (acquireAll modifiers) after) ∨
      ∃ taken failed rest err after,
        modifiers = taken ++ failed :: rest ∧
          pressModifiersFrom pressed modifiers devices =
            (.ok (.error err), after) ∧
          devices.Does
            (acquireAll taken ++
              .acquire failed false :: releaseAll (taken.reverse ++ pressed))
            after := by
  induction modifiers generalizing pressed devices with
  | nil => exact Or.inl ⟨devices, rfl, .refl devices⟩
  | cons modifier modifiers inductionHypothesis =>
      obtain ⟨err, acted, answer⟩ := modifier.act_eq devices .press
      by_cases isOk : err = .success
      · have first : devices.Does [.acquire modifier true]
            { devices with trace := modifier.call .press :: devices.trace } := by
          refine .step fun _ _ isPress => ?_
          cases isPress
          exact iff_of_true rfl (answer.mp isOk)
        have goesOn : pressModifiersFrom pressed (modifier :: modifiers) devices =
            pressModifiersFrom (modifier :: pressed) modifiers
              { devices with trace := modifier.call .press :: devices.trace } := by
          rw [pressModifiersFrom, bind_of_ok acted, if_neg (not_not.mpr isOk)]
        rw [goesOn]
        rcases inductionHypothesis
            { devices with trace := modifier.call .press :: devices.trace }
            (modifier :: pressed) with all | stopped
        · obtain ⟨after, returned, does⟩ := all
          refine Or.inl ⟨after, ?_, first.append does⟩
          rw [returned, List.reverse_cons, List.append_assoc, List.singleton_append]
        · obtain ⟨taken, failed, rest, other, after, split, returned, does⟩ := stopped
          refine Or.inr ⟨modifier :: taken, failed, rest, other, after, ?_, returned, ?_⟩
          · rw [split, List.cons_append]
          · rw [List.reverse_cons, List.append_assoc, List.singleton_append]
            exact first.append does
      · have first : devices.Does [.acquire modifier false]
            { devices with trace := modifier.call .press :: devices.trace } := by
          refine .step fun _ _ isPress => ?_
          cases isPress
          exact iff_of_false Bool.false_ne_true fun status => isOk (answer.mpr status)
        obtain ⟨after, released, does⟩ := releaseModifiersUnified_does
          { devices with trace := modifier.call .press :: devices.trace } pressed
        refine Or.inr ⟨[], modifier, modifiers, err, after, rfl, ?_, first.append does⟩
        rw [pressModifiersFrom, bind_of_ok acted, if_pos isOk, bind_of_ok released]
        rfl

private theorem inputLinuxKeyActionRaw_eq (evdevKey : Int) (direction : CDirection) :
    inputLinuxKeyActionRaw evdevKey direction devices =
      (.ok (devices.platform.backendStatus
          (.keyActionRaw evdevKey direction :: devices.trace)),
        { devices with
          trace := .keyActionRaw evdevKey direction :: devices.trace }) :=
  rfl

/-- The main key of a character is injected with one or two operations. -/
theorem injectMainKey_does (evdevKey : Int) (finalMods : UInt32)
    (direction : CDirection) :
    ∃ result uses after,
      injectMainKey evdevKey finalMods direction devices = (.ok result, after) ∧
        devices.Does (useAll uses) after ∧
        ∀ use ∈ uses, ∃ direction, use = .keyActionRaw evdevKey direction := by
  have once (direction : CDirection) (devices : Devices) :
      devices.Does [.use (.keyActionRaw evdevKey direction)]
        { devices with
          trace := .keyActionRaw evdevKey direction :: devices.trace } :=
    .step fun _ _ isPress => by cases isPress
  have pressed := once .press devices
  rw [injectMainKey]
  by_cases split : direction = .click ∧ finalMods ≠ 0
  · rw [if_pos split]
    by_cases isOk : devices.platform.backendStatus
        (.keyActionRaw evdevKey .press :: devices.trace) = INPUT_BACKEND_OK
    · refine ⟨devices.platform.backendStatus
          (.keyActionRaw evdevKey .release ::
            .keyActionRaw evdevKey .press :: devices.trace),
        [.keyActionRaw evdevKey .press, .keyActionRaw evdevKey .release],
        _, ?_, pressed.append (once .release _), by simp⟩
      rw [bind_of_ok (inputLinuxKeyActionRaw_eq ..), if_pos isOk]
      rfl
    · refine ⟨devices.platform.backendStatus
          (.keyActionRaw evdevKey .press :: devices.trace),
        [.keyActionRaw evdevKey .press], _, ?_, pressed, by simp⟩
      rw [bind_of_ok (inputLinuxKeyActionRaw_eq ..), if_neg isOk]
      rfl
  · rw [if_neg split]
    exact ⟨_, [.keyActionRaw evdevKey direction], _, rfl, once direction devices,
      by simp⟩

end Operations

/-! ## The modifiers of a request -/

theorem requestedModifiers_nodup (modsMask : UInt32) (userAlt : Bool) :
    (requestedModifiers modsMask userAlt).Nodup := by
  have four : [Modifier.shift, .altGr, .ctrl, .metaKey].Nodup := by
    decide
  rw [requestedModifiers, List.nodup_append]
  refine ⟨four.filter _, ?_, ?_⟩
  · split
    · exact List.nodup_singleton _
    · exact List.nodup_nil
  · intro modifier member last isLast
    have isAlt : last = .alt := by
      split at isLast
      · exact List.mem_singleton.mp isLast
      · cases isLast
    rintro rfl
    rw [isAlt] at member
    exact absurd (List.mem_of_mem_filter member) (by decide)

/-- The bits of a mask that is put together from four conditions. -/
theorem mask_bits (shift altGr ctrl metaKey : Prop) [Decidable shift]
    [Decidable altGr] [Decidable ctrl] [Decidable metaKey] :
    let mask : UInt32 :=
      (if shift then 1 else 0) ||| (if altGr then 2 else 0) |||
        (if ctrl then 4 else 0) ||| if metaKey then 8 else 0
    (mask &&& 1 ≠ 0 ↔ shift) ∧ (mask &&& 2 ≠ 0 ↔ altGr) ∧
      (mask &&& 4 ≠ 0 ↔ ctrl) ∧ (mask &&& 8 ≠ 0 ↔ metaKey) := by
  by_cases isShift : shift <;> by_cases isAltGr : altGr <;>
    by_cases isCtrl : ctrl <;> by_cases isMeta : metaKey <;>
    simp only [isShift, isAltGr, isCtrl, isMeta, if_true, if_false] <;>
    decide

/-- The modifiers that are pressed are those that the mask has, and Alt. -/
theorem mem_requestedModifiers_iff {modsMask : UInt32} {userAlt : Bool}
    {modifier : Modifier} :
    modifier ∈ requestedModifiers modsMask userAlt ↔
      modsMask &&& modifier.bit ≠ 0 ∨ modifier = .alt ∧ userAlt = true := by
  have last : modifier ∈ (if userAlt = true then [Modifier.alt] else []) ↔
      modifier = .alt ∧ userAlt = true := by
    cases userAlt <;> simp
  rw [requestedModifiers, List.mem_append, last, List.mem_filter,
    decide_eq_true_iff]
  cases modifier with
  | alt => simp [Modifier.bit]
  | shift | altGr | ctrl | metaKey => simp

namespace KeyboardCall

theorem mem_requested_char_iff {userMods xkbMods : UInt32} {modifier : Modifier} :
    modifier ∈ requestedModifiers (mergeModifiers userMods xkbMods)
        (userMods &&& CHORD_MOD_ALT ≠ 0) ↔
      asks userMods modifier ∨ xkbMods &&& modifier.bit ≠ 0 := by
  obtain ⟨shift, altGr, ctrl, metaKey⟩ :=
    mask_bits (userMods &&& CHORD_MOD_SHIFT ≠ 0 ∨ xkbMods &&& 1 ≠ 0)
      (xkbMods &&& 2 ≠ 0) (userMods &&& CHORD_MOD_CTRL ≠ 0 ∨ xkbMods &&& 4 ≠ 0)
      (userMods &&& CHORD_MOD_META ≠ 0 ∨ xkbMods &&& 8 ≠ 0)
  rw [mem_requestedModifiers_iff, mergeModifiers]
  cases modifier with
  | shift => simpa [Modifier.bit, asks] using shift
  | altGr => simpa [Modifier.bit, asks] using altGr
  | ctrl => simpa [Modifier.bit, asks] using ctrl
  | metaKey => simpa [Modifier.bit, asks] using metaKey
  | alt => simp [Modifier.bit, asks]

theorem needs_char {platform : Platform} {codepoint : Int32} {userMods : UInt32}
    {direction : CDirection} {evdevKey : Int} {xkbMods : UInt32}
    {modifier : Modifier}
    (mapped : mapCharToEvdevLinux platform codepoint = .ok (evdevKey, xkbMods)) :
    modifier ∈ requestedModifiers (mergeModifiers userMods xkbMods)
        (userMods &&& CHORD_MOD_ALT ≠ 0) ↔
      (KeyboardCall.char codepoint userMods direction).Needs platform modifier := by
  rw [mem_requested_char_iff, Needs, mapped]
  simp

theorem mem_requested_functionKey_iff {userMods : UInt32} {modifier : Modifier} :
    modifier ∈ requestedModifiers
        ((if userMods &&& CHORD_MOD_SHIFT ≠ 0 then 1 else 0) |||
          (if userMods &&& CHORD_MOD_CTRL ≠ 0 then 4 else 0) |||
          (if userMods &&& CHORD_MOD_META ≠ 0 then 8 else 0))
        (userMods &&& CHORD_MOD_ALT ≠ 0) ↔
      asks userMods modifier := by
  obtain ⟨shift, altGr, ctrl, metaKey⟩ :=
    mask_bits (userMods &&& CHORD_MOD_SHIFT ≠ 0) False
      (userMods &&& CHORD_MOD_CTRL ≠ 0) (userMods &&& CHORD_MOD_META ≠ 0)
  rw [if_neg not_false, UInt32.or_zero] at shift altGr ctrl metaKey
  rw [mem_requestedModifiers_iff]
  cases modifier with
  | shift => simpa [Modifier.bit, asks] using shift
  | altGr => simpa [Modifier.bit, asks] using altGr
  | ctrl => simpa [Modifier.bit, asks] using ctrl
  | metaKey => simpa [Modifier.bit, asks] using metaKey
  | alt => simp [Modifier.bit, asks]

/-! ## Balance -/

theorem balancedFrom_of_ladder {call : KeyboardCall} {before middle : Devices}
    {wanted : List Modifier} {steps : List KeyStep} (nodup : wanted.Nodup)
    (needs : ∀ modifier, modifier ∈ wanted ↔ call.Needs before.platform modifier)
    (ladder : Ladder wanted steps) (does : before.Does steps middle)
    (mains : ∀ use ∈ steps.filterMap Step.used, call.IsMainKey before.platform use)
    (ends : (call.perform before).2 = middle ∨
      ∃ text, call.perform before = clipboardPasteText text middle) :
    call.BalancedFrom before := by
  refine ⟨steps, middle, does, ?_, ?_, mains, ends⟩
  · exact ladder.balanced nodup fun modifier isNeeded => (needs modifier).mpr isNeeded
  · exact fun modifier tried => (needs modifier).mp (ladder.mem_wanted tried)

/-- A character that the keymap does not have is pasted at once. -/
theorem char_unmapped {codepoint : Int32} {before : Devices} {err : YAError}
    (mapped : mapCharToEvdevLinux before.platform codepoint = .error err)
    (userMods : UInt32) (direction : CDirection) :
    (KeyboardCall.char codepoint userMods direction).BalancedFrom before := by
  refine ⟨[], before, .refl before, ?_, by simp, by simp,
    Or.inr ⟨some (encodeCodepointToUtf8 codepoint), ?_⟩⟩
  · exact ⟨List.nodup_nil, trivial, rfl, trivial⟩
  · rw [perform, keyboardChar, inputCharLinuxUnified,
      bind_of_ok (getState_apply before), mapped]

theorem char_mapped {codepoint : Int32} {before : Devices} {evdevKey : Int}
    {xkbMods : UInt32}
    (mapped : mapCharToEvdevLinux before.platform codepoint =
      .ok (evdevKey, xkbMods))
    (userMods : UInt32) (direction : CDirection) :
    (KeyboardCall.char codepoint userMods direction).BalancedFrom before := by
  have needs (modifier : Modifier) :
      modifier ∈ requestedModifiers (mergeModifiers userMods xkbMods)
          (userMods &&& CHORD_MOD_ALT ≠ 0) ↔
        (KeyboardCall.char codepoint userMods direction).Needs before.platform
          modifier :=
    needs_char mapped
  have starts : (KeyboardCall.char codepoint userMods direction).perform before =
      (pressModifiersUnified (mergeModifiers userMods xkbMods)
          (userMods &&& CHORD_MOD_ALT ≠ 0) >>=
        injectCharacter codepoint evdevKey (mergeModifiers userMods xkbMods)
          direction) before := by
    rw [perform, keyboardChar, inputCharLinuxUnified,
      bind_of_ok (getState_apply before), mapped]
  have nodup := requestedModifiers_nodup (mergeModifiers userMods xkbMods)
    (userMods &&& CHORD_MOD_ALT ≠ 0)
  rcases pressModifiersFrom_does before [] (requestedModifiers
      (mergeModifiers userMods xkbMods) (userMods &&& CHORD_MOD_ALT ≠ 0))
    with all | stopped
  · obtain ⟨pressed, returned, presses⟩ := all
    obtain ⟨result, uses, used, injected, injects, mains⟩ :=
      injectMainKey_does pressed evdevKey (mergeModifiers userMods xkbMods) direction
    obtain ⟨middle, released, releases⟩ := releaseModifiersUnified_does used
      ((requestedModifiers (mergeModifiers userMods xkbMods)
        (userMods &&& CHORD_MOD_ALT ≠ 0)).reverse ++ [])
    rw [pressModifiersUnified, bind_of_ok returned, injectCharacter,
      bind_of_ok injected, bind_of_ok released] at starts
    rw [List.append_nil] at releases
    refine balancedFrom_of_ladder nodup needs (.complete uses)
      (presses.append (injects.append releases)) ?_ ?_
    · intro use member
      rw [used_complete] at member
      obtain ⟨how, isMain⟩ := mains use member
      exact ⟨evdevKey, xkbMods, how, mapped, isMain⟩
    · rw [starts]
      split
      · exact Or.inr ⟨_, rfl⟩
      · exact Or.inl rfl
  · obtain ⟨taken, failed, rest, err, middle, split, returned, does⟩ := stopped
    rw [pressModifiersUnified, bind_of_ok returned, injectCharacter] at starts
    rw [List.append_nil] at does
    refine balancedFrom_of_ladder nodup needs (.rolledBack split) does ?_
      (Or.inr ⟨_, starts⟩)
    intro use member
    rw [used_rolledBack] at member
    cases member

theorem functionKey_balanced (key : CKey) (userMods : UInt32)
    (direction : CDirection) (before : Devices) :
    (KeyboardCall.functionKey key userMods direction).BalancedFrom before := by
  let modsMask : UInt32 :=
    (if userMods &&& CHORD_MOD_SHIFT ≠ 0 then 1 else 0) |||
      (if userMods &&& CHORD_MOD_CTRL ≠ 0 then 4 else 0) |||
      (if userMods &&& CHORD_MOD_META ≠ 0 then 8 else 0)
  have nodup := requestedModifiers_nodup modsMask
    (userMods &&& CHORD_MOD_ALT ≠ 0)
  have starts : (KeyboardCall.functionKey key userMods direction).perform before =
      (pressModifiersUnified modsMask (userMods &&& CHORD_MOD_ALT ≠ 0) >>=
        injectFunctionKey key direction) before := rfl
  rcases pressModifiersFrom_does before [] (requestedModifiers modsMask
      (userMods &&& CHORD_MOD_ALT ≠ 0)) with all | stopped
  · obtain ⟨pressed, returned, presses⟩ := all
    have injects : pressed.Does (useAll [.keyAction key direction])
        { pressed with trace := .keyAction key direction :: pressed.trace } :=
      .step fun _ _ isPress => by cases isPress
    obtain ⟨middle, released, releases⟩ := releaseModifiersUnified_does
      { pressed with trace := .keyAction key direction :: pressed.trace }
      ((requestedModifiers modsMask
        (userMods &&& CHORD_MOD_ALT ≠ 0)).reverse ++ [])
    rw [pressModifiersUnified, bind_of_ok returned, injectFunctionKey,
      bind_of_ok (inputKeyAction_eq ..), bind_of_ok released] at starts
    rw [List.append_nil] at releases
    refine balancedFrom_of_ladder nodup (fun _ => mem_requested_functionKey_iff)
      (.complete _) (presses.append (injects.append releases)) ?_
      (Or.inl (by rw [starts]; rfl))
    intro use member
    rw [used_complete] at member
    exact List.mem_singleton.mp member
  · obtain ⟨taken, failed, rest, err, middle, split, returned, does⟩ := stopped
    rw [pressModifiersUnified, bind_of_ok returned, injectFunctionKey] at starts
    rw [List.append_nil] at does
    refine balancedFrom_of_ladder nodup (fun _ => mem_requested_functionKey_iff)
      (.rolledBack split) does ?_ (Or.inl (by rw [starts]; rfl))
    intro use member
    rw [used_rolledBack] at member
    cases member

theorem balanced (call : KeyboardCall) (before : Devices) :
    call.BalancedFrom before := by
  cases call with
  | char codepoint userMods direction =>
      cases mapped : mapCharToEvdevLinux before.platform codepoint with
      | error err => exact char_unmapped mapped userMods direction
      | ok key => exact char_mapped mapped userMods direction
  | functionKey key userMods direction =>
      exact functionKey_balanced key userMods direction before

end KeyboardCall

/-- In every sequence of requests, whatever the operations answer, the
modifiers of each request are balanced and nested around its main key. -/
theorem keyboardCalls_balanced (calls : List KeyboardCall) (devices : Devices) :
    KeyboardCall.BalancedRun calls devices := by
  induction calls generalizing devices with
  | nil => trivial
  | cons call later inductionHypothesis =>
      exact ⟨call.balanced devices, inductionHypothesis _⟩

end MouseHero
