import MouseHero.Input.Keyboard
import MouseHero.Input.Uinput
import MouseHero.Library.Triples

/-!
# Releasing keys

Which keys and buttons are released again when writes to the uinput device
fail.
-/

namespace MouseHero

open FaultM

/-! ## Keys in a list of attempts -/

/-- A key-down of the code has been written. -/
def Pressed (code : UInt16) (attempts : List Attempt) : Prop :=
  { event := .key code true, written := true } ∈ attempts

/-- The direction of the latest attempt for the code. -/
def latestKey (code : UInt16) : List Attempt → Option Bool
  | [] => none
  | attempt :: earlier =>
      match attempt.event with
      | .key other down =>
          if other = code then some down else latestKey code earlier
      | _ => latestKey code earlier

/-- The latest attempt for every code that has been pressed, the given codes
apart, is a key-up. -/
def ReleasedBut (held : List UInt16) (attempts : List Attempt) : Prop :=
  ∀ code, Pressed code attempts →
    latestKey code attempts = some false ∨ code ∈ held

/-- The latest attempt for every code that has been pressed is a key-up. -/
def Released (attempts : List Attempt) : Prop :=
  ∀ code, Pressed code attempts → latestKey code attempts = some false

/-- A write whose failure makes the backend return with a key down: the one
right behind a key-down, and another key-down of a code. -/
def Critical (earlier : List Attempt) : InputEvent → Prop
  | .syn =>
      ∃ code, earlier.head? = some { event := .key code true, written := true }
  | .key code true => Pressed code earlier
  | _ => False

/-- No critical write has failed. -/
def Spared : List Attempt → Prop
  | [] => True
  | attempt :: earlier =>
      (attempt.written = false → ¬ Critical earlier attempt.event) ∧
        Spared earlier

section Attempts

variable {held : List UInt16} {attempts : List Attempt} {code : UInt16}
variable {written : Bool}

theorem releasedBut_nil : ReleasedBut [] attempts ↔ Released attempts := by
  simp [ReleasedBut, Released]

theorem ReleasedBut.syn (released : ReleasedBut held attempts) :
    ReleasedBut held ({ event := .syn, written } :: attempts) := by
  intro code pressed
  have before : Pressed code attempts := by simpa [Pressed] using pressed
  exact released code before

theorem ReleasedBut.up (released : ReleasedBut (code :: held) attempts) :
    ReleasedBut held ({ event := .key code false, written } :: attempts) := by
  intro other pressed
  have before : Pressed other attempts := by simpa [Pressed] using pressed
  by_cases same : code = other
  · left
    simp [latestKey, same]
  · simp only [latestKey, if_neg same]
    rcases released other before with isUp | isHeld
    · exact Or.inl isUp
    · exact Or.inr (List.mem_of_ne_of_mem (Ne.symm same) isHeld)

theorem ReleasedBut.down (released : ReleasedBut held attempts) :
    ReleasedBut (code :: held)
      ({ event := .key code true, written } :: attempts) := by
  intro other pressed
  by_cases same : code = other
  · right
    rw [same]
    exact List.mem_cons_self
  · have before : Pressed other attempts := by
      simpa [Pressed, Ne.symm same] using pressed
    simp only [latestKey, if_neg same]
    exact (released other before).imp_right (List.mem_cons_of_mem code)

/-- A key-down that fails leaves a key alone that has not been pressed. -/
theorem ReleasedBut.down_failed (released : ReleasedBut held attempts)
    (unpressed : ¬ Pressed code attempts) :
    ReleasedBut held
      ({ event := .key code true, written := false } :: attempts) := by
  intro other pressed
  have before : Pressed other attempts := by simpa [Pressed] using pressed
  have different : code ≠ other := by
    rintro rfl
    exact unpressed before
  simp only [latestKey, if_neg different]
  exact released other before

end Attempts

/-! ## Events of the backend -/

namespace Uinput

/-- If something is given and no critical write has failed, something holds of
the attempts behind the old ones. -/
def Keeps (given : Prop) (old : List Attempt) (holds : List Attempt → Prop)
    (uinput : Uinput) : Prop :=
  ∃ new, uinput.attempts = new ++ old ∧ (given → Spared new → holds new)

section Events

variable {given : Prop} {old : List Attempt}
variable {holds : List Attempt → Prop}
variable {after : Int → List Attempt → Prop}
variable {event : InputEvent} {rest : List InputEvent}
variable {held : List UInt16}

theorem triple_emitEvents_cons (between : List Attempt → Prop)
    (lost : ∀ new, holds new → ¬ Critical new event →
      after INPUT_BACKEND_ERROR_DEVICE ({ event, written := false } :: new))
    (sent : ∀ new, holds new → between ({ event, written := true } :: new))
    (goesOn : Triple (Keeps given old between) (emitEvents rest)
      fun status => Keeps given old (after status)) :
    Triple (Keeps given old holds) (emitEvents (event :: rest))
      fun status => Keeps given old (after status) := by
  rintro uinput reached result ⟨new, isNew, kept⟩ returned
  rw [emitEvents_cons] at returned
  split at returned
  · cases returned
    refine ⟨{ event, written := false } :: new, ?_, fun isGiven spared => ?_⟩
    · rw [isNew, List.cons_append]
    · exact lost new (kept isGiven spared.2) (spared.1 rfl)
  · refine goesOn _ _ _
      ⟨{ event, written := true } :: new, ?_, fun isGiven spared => ?_⟩ returned
    · rw [isNew, List.cons_append]
    · exact sent new (kept isGiven spared.2)

theorem triple_emitEvents_nil
    (holdsAfter : ∀ new, holds new → after INPUT_BACKEND_OK new) :
    Triple (Keeps given old holds) (emitEvents [])
      fun status => Keeps given old (after status) := by
  apply triple_pure
  rintro uinput ⟨new, isNew, kept⟩
  exact ⟨new, isNew, fun isGiven spared => holdsAfter new (kept isGiven spared)⟩

/-- A key-down and the write behind it: a failure leaves the keys alone. -/
theorem triple_down {code : UInt16}
    (lost : ∀ new, ReleasedBut held new → after INPUT_BACKEND_ERROR_DEVICE new)
    (goesOn : Triple (Keeps given old (ReleasedBut (code :: held)))
      (emitEvents rest) fun status => Keeps given old (after status)) :
    Triple (Keeps given old (ReleasedBut held))
      (emitEvents (.key code true :: .syn :: rest))
      fun status => Keeps given old (after status) := by
  apply triple_emitEvents_cons fun new => ReleasedBut (code :: held) new ∧
    new.head? = some { event := .key code true, written := true }
  · exact fun new released unpressed =>
      lost _ (released.down_failed unpressed)
  · exact fun new released => ⟨released.down, rfl⟩
  apply triple_emitEvents_cons (ReleasedBut (code :: held))
  · exact fun new released harmless => absurd ⟨code, released.2⟩ harmless
  · exact fun new released => released.1.syn
  exact goesOn

/-- A press holds the key if it succeeds, and leaves it alone otherwise. -/
theorem triple_press (code : UInt16) (held : List UInt16) :
    Triple (Keeps given old (ReleasedBut held))
      (emitEvents (keyEvents code .press))
      fun status => Keeps given old
        (ReleasedBut (if status = INPUT_BACKEND_OK then code :: held else held)) :=
  triple_down (fun _ released => released)
    (triple_emitEvents_nil fun _ released => released)

theorem triple_release (code : UInt16) (held : List UInt16) :
    Triple (Keeps given old (ReleasedBut (code :: held)))
      (emitEvents (keyEvents code .release))
      fun _ => Keeps given old (ReleasedBut held) := by
  apply triple_emitEvents_cons (ReleasedBut held)
  · exact fun new released _ => released.up
  · exact fun new released => released.up
  apply triple_emitEvents_cons (ReleasedBut held)
  · exact fun new released _ => released.syn
  · exact fun new released => released.syn
  apply triple_emitEvents_nil
  exact fun new released => released

theorem triple_click (code : UInt16) (held : List UInt16) :
    Triple (Keeps given old (ReleasedBut held))
      (emitEvents (keyEvents code .click))
      fun _ => Keeps given old (ReleasedBut held) :=
  triple_down (fun _ released => released) (triple_release code held)

end Events

/-! ## Operations -/

/-- The operation clicks a key by its name, as the paste shortcut does. -/
def isKeyClick : DeviceCall → Bool
  | .keyAction _ .click => true
  | _ => false

def isClipboardSet : DeviceCall → Bool
  | .clipboardSet _ => true
  | _ => false

/-- The clicks behind a change of the clipboard have succeeded. -/
def PasteSpared (fails : Nat → Bool) (before : List DeviceCall) :
    List DeviceCall → Prop
  | [] => True
  | call :: earlier =>
      (isKeyClick call = true → earlier.any isClipboardSet = true →
        latestStatus fails (call :: earlier ++ before) = INPUT_BACKEND_OK) ∧
        PasteSpared fails before earlier

/-- What is known of the devices in a request that has begun behind the
operations `before`: which keys are held if the device has spared it. -/
def During (fails : Nat → Bool) (base : Platform) (before : List DeviceCall)
    (held : List UInt16) (pasting : Bool) (devices : Devices) : Prop :=
  devices.platform = platform fails base ∧
    ∃ calls, devices.trace = calls ++ before ∧
      (pasting = true → calls.any isClipboardSet = true) ∧
      Keeps (PasteSpared fails before calls) (afterCalls fails before).attempts
        (ReleasedBut held) (afterCalls fails devices.trace)

section Operations

variable {fails : Nat → Bool} {base : Platform} {before : List DeviceCall}
variable {held : List UInt16} {pasting : Bool} {call : DeviceCall}
variable {after : Int → List UInt16}

theorem perform_status (call : DeviceCall) (uinput : Uinput) :
    perform call uinput = (.ok (status call uinput), (perform call uinput).2) := by
  rw [status]
  cases outcome : perform call uinput with
  | mk result reached =>
      cases result with
      | ok value => rfl
      | error impossible => exact nomatch impossible

theorem Keeps.given {given weaker : Prop} {old : List Attempt}
    {holds : List Attempt → Prop} {uinput : Uinput}
    (keeps : Keeps given old holds uinput) (suffices' : weaker → given) :
    Keeps weaker old holds uinput := by
  obtain ⟨new, isNew, kept⟩ := keeps
  exact ⟨new, isNew, fun isGiven => kept (suffices' isGiven)⟩

/-- An operation of the backend does to the held keys what it does to the
device. -/
theorem triple_operate
    (effect : ∀ given old,
      Triple (Keeps given old (ReleasedBut held)) (perform call)
        fun result => Keeps given old (ReleasedBut (after result))) :
    Triple (During fails base before held pasting)
      (operate call Platform.backendStatus)
      fun result => During fails base before (after result) pasting := by
  rintro devices reached result ⟨isPlatform, calls, isTrace, pastes, keeps⟩ returned
  cases returned
  rw [isPlatform]
  refine ⟨rfl, call :: calls, ?_, fun isPasting => ?_, ?_⟩
  · rw [isTrace, List.cons_append]
  · rw [List.any_cons, pastes isPasting, Bool.or_true]
  · exact effect _ _ _ _ _ (keeps.given fun spared => spared.2)
      (perform_status call (afterCalls fails devices.trace))

theorem triple_operate_other {Answer : Type}
    (answer : Platform → List DeviceCall → Answer)
    (silent : perform call = pure INPUT_BACKEND_OK) :
    Triple (During fails base before held pasting) (operate call answer)
      fun _ => During fails base before held (isClipboardSet call || pasting) := by
  rintro devices reached result ⟨isPlatform, calls, isTrace, pastes, keeps⟩ returned
  cases returned
  refine ⟨isPlatform, call :: calls, ?_, fun isPasting => ?_, ?_⟩
  · rw [isTrace, List.cons_append]
  · rw [List.any_cons]
    rcases Bool.or_eq_true_iff.mp isPasting with sets | isPasting
    · rw [sets, Bool.true_or]
    · rw [pastes isPasting, Bool.or_true]
  · have unchanged : afterCalls fails (call :: devices.trace) =
        afterCalls fails devices.trace := by
      rw [afterCalls, silent]
      rfl
    simp only [unchanged]
    exact keeps.given fun spared => spared.2

/-- The click of a paste succeeds if the device spares it. -/
theorem triple_operate_pasteClick
    (isClick : isKeyClick call = true)
    (effect : ∀ given old,
      Triple (Keeps given old (ReleasedBut held)) (perform call)
        fun _ => Keeps given old (ReleasedBut held)) :
    Triple (During fails base before held true)
      (operate call Platform.backendStatus)
      fun result => During fails base before
        (if result = INPUT_BACKEND_OK then held else []) true := by
  rintro devices reached result ⟨isPlatform, calls, isTrace, pastes, keeps⟩ returned
  have stays : Triple (During fails base before held true)
      (operate call Platform.backendStatus)
      fun _ => During fails base before held true := triple_operate effect
  have clicked := stays devices reached result
    ⟨isPlatform, calls, isTrace, pastes, keeps⟩ returned
  cases returned
  rw [isPlatform] at clicked ⊢
  obtain ⟨-, newCalls, isNewTrace, newPastes, new, isNew, kept⟩ := clicked
  refine ⟨rfl, newCalls, isNewTrace, newPastes, new, isNew, fun spared isSpared => ?_⟩
  have sameCalls : newCalls = call :: calls := by
    simp only [isTrace] at isNewTrace
    exact (List.append_cancel_right isNewTrace).symm
  have succeeds : latestStatus fails (call :: calls ++ before) = INPUT_BACKEND_OK := by
    rw [sameCalls] at spared
    exact spared.1 isClick (pastes rfl)
  have isStatus : (platform fails base).backendStatus (call :: devices.trace) =
      INPUT_BACKEND_OK := by
    rw [isTrace]
    exact succeeds
  rw [isStatus, if_pos rfl]
  exact kept spared isSpared

end Operations

/-! ## Keys -/

section Keys

variable {fails : Nat → Bool} {base : Platform} {before : List DeviceCall}
variable {held : List UInt16} {pasting : Bool} {key : CKey} {code : UInt16}

theorem keyAction_eq (known : ckeyToLinuxKeycode key = some code)
    (direction : CDirection) :
    keyAction key direction = emitEvents (keyEvents code direction) := by
  rw [keyAction, known]

/-- Some keys are held if something succeeds, and others if it does not. -/
def Branch (fails : Nat → Bool) (base : Platform) (before : List DeviceCall)
    (held lost : List UInt16) (pasting : Bool) (succeeds : Prop)
    (devices : Devices) : Prop :=
  (succeeds → During fails base before held pasting devices) ∧
    (¬ succeeds → During fails base before lost pasting devices)

theorem branch_of_if {lost : List UInt16} {succeeds : Prop}
    [Decidable succeeds] {devices : Devices}
    (during : During fails base before (if succeeds then held else lost) pasting
      devices) :
    Branch fails base before held lost pasting succeeds devices := by
  constructor
  · intro isTrue
    rwa [if_pos isTrue] at during
  · intro isFalse
    rwa [if_neg isFalse] at during

theorem triple_translated {call : DeviceCall} {pre : Devices → Prop}
    {after : Prop → Devices → Prop}
    (acts : Triple pre (operate call Platform.backendStatus)
      fun result => after (result = INPUT_BACKEND_OK)) :
    Triple pre
      (operate call Platform.backendStatus >>= fun result =>
        pure (translateBackendStatus result))
      fun err => after (err = .success) := by
  refine triple_bind acts fun result => triple_pure fun devices holds => ?_
  rw [translateBackendStatus_eq_success_iff]
  exact holds

theorem triple_answered {call : DeviceCall} {pre post : Devices → Prop}
    (acts : Triple pre (operate call Platform.backendStatus) fun _ => post) :
    Triple pre
      (operate call Platform.backendStatus >>= fun result =>
        pure (translateBackendStatus result))
      fun _ => post :=
  triple_bind acts fun _ => triple_pure fun _ holds => holds

theorem triple_inputLinuxKeyActionRaw_press (evdevKey : Int) :
    Triple (During fails base before held pasting)
      (inputLinuxKeyActionRaw evdevKey .press)
      fun result => Branch fails base before (.ofInt evdevKey :: held) held
        pasting (result = INPUT_BACKEND_OK) := by
  have acts : Triple (During fails base before held pasting)
      (inputLinuxKeyActionRaw evdevKey .press)
      fun result => During fails base before
        (if result = INPUT_BACKEND_OK then .ofInt evdevKey :: held else held)
        pasting :=
    triple_operate fun _ _ => triple_press (.ofInt evdevKey) held
  exact acts.weaken (fun _ during => during) fun _ _ during => branch_of_if during

theorem triple_inputLinuxKeyActionRaw_release (evdevKey : Int) :
    Triple (During fails base before (.ofInt evdevKey :: held) pasting)
      (inputLinuxKeyActionRaw evdevKey .release)
      fun _ => During fails base before held pasting :=
  triple_operate fun _ _ => triple_release (.ofInt evdevKey) held

theorem triple_inputLinuxKeyActionRaw_click (evdevKey : Int) :
    Triple (During fails base before held pasting)
      (inputLinuxKeyActionRaw evdevKey .click)
      fun _ => During fails base before held pasting :=
  triple_operate fun _ _ => triple_click (.ofInt evdevKey) held

theorem triple_inputKeyAction_press (known : ckeyToLinuxKeycode key = some code) :
    Triple (During fails base before held pasting) (inputKeyAction key .press)
      fun err => Branch fails base before (code :: held) held pasting
        (err = .success) := by
  have acts : Triple (During fails base before held pasting)
      (inputLinuxKeyAction key .press)
      fun result => During fails base before
        (if result = INPUT_BACKEND_OK then code :: held else held) pasting :=
    triple_operate fun _ _ => by
      rw [perform, keyAction_eq known]
      exact triple_press code held
  exact triple_translated <|
    acts.weaken (fun _ during => during) fun _ _ during => branch_of_if during

theorem triple_inputKeyAction_release
    (known : ckeyToLinuxKeycode key = some code) :
    Triple (During fails base before (code :: held) pasting)
      (inputKeyAction key .release)
      fun _ => During fails base before held pasting := by
  have acts : Triple (During fails base before (code :: held) pasting)
      (inputLinuxKeyAction key .release)
      fun _ => During fails base before held pasting :=
    triple_operate fun _ _ => by
      rw [perform, keyAction_eq known]
      exact triple_release code held
  exact triple_answered acts

/-- The click of any key, also of one that is not supported. -/
theorem triple_keyAction_click (key : CKey) (given : Prop) (old : List Attempt) :
    Triple (Keeps given old (ReleasedBut held)) (perform (.keyAction key .click))
      fun _ => Keeps given old (ReleasedBut held) := by
  rw [perform]
  cases known : ckeyToLinuxKeycode key with
  | none =>
      rw [keyAction, known]
      exact triple_pure fun _ keeps => keeps
  | some code =>
      rw [keyAction_eq known]
      exact triple_click code held

theorem triple_inputKeyAction_click (key : CKey) :
    Triple (During fails base before held pasting) (inputKeyAction key .click)
      fun _ => During fails base before held pasting := by
  have acts : Triple (During fails base before held pasting)
      (inputLinuxKeyAction key .click)
      fun _ => During fails base before held pasting :=
    triple_operate (triple_keyAction_click key)
  exact triple_answered acts

theorem triple_inputMouseButton_click (button : CButton) :
    Triple (During fails base before held pasting)
      (inputMouseButton button .click)
      fun _ => During fails base before held pasting := by
  have acts : Triple (During fails base before held pasting)
      (inputLinuxMouseClick button)
      fun _ => During fails base before held pasting :=
    triple_operate fun _ _ => by
      rw [perform, mouseClick_eq]
      exact triple_click (buttonToLinuxCode button) held
  exact triple_answered acts

/-! ## Pasting -/

/-- The click in the middle succeeds, or the device has not spared it. -/
theorem triple_inputKeyAction_pasteClick (key : CKey) :
    Triple (During fails base before held true) (inputKeyAction key .click)
      fun err => Branch fails base before held [] true (err = .success) := by
  have acts : Triple (During fails base before held true)
      (inputLinuxKeyAction key .click)
      fun result => During fails base before
        (if result = INPUT_BACKEND_OK then held else []) true :=
    triple_operate_pasteClick rfl (triple_keyAction_click key)
  exact triple_translated <|
    acts.weaken (fun _ during => during) fun _ _ during => branch_of_if during

theorem triple_pasteShortcut {modifier : CKey}
    (known : ckeyToLinuxKeycode modifier = some code) (key : CKey) :
    Triple (During fails base before [] true) (pasteShortcut modifier key)
      fun _ => During fails base before [] true := by
  refine triple_bind (triple_inputKeyAction_press known) fun pressed => ?_
  refine triple_ite (fun succeeds => ?_) fun fails => ?_
  · refine triple_bind
      ((triple_inputKeyAction_pasteClick key).weaken
        (fun _ branch => branch.1 succeeds) fun _ _ branch => branch)
      fun clicked => ?_
    refine triple_ite (fun succeeds => ?_) fun fails => ?_
    · exact (triple_inputKeyAction_release known).weaken
        (fun _ branch => branch.1 succeeds) fun _ _ during => during
    · exact triple_pure fun _ branch => branch.2 fails
  · exact triple_pure fun _ branch => branch.2 fails

theorem triple_sendPasteShortcut (config : ClipboardFallbackConfig) :
    Triple (During fails base before [] true) (sendPasteShortcut config)
      fun _ => During fails base before [] true :=
  triple_ite (fun _ => triple_pasteShortcut rfl _)
    fun _ => triple_pasteShortcut rfl _

theorem triple_clipboardPasteText (text : CString) :
    Triple (During fails base before [] false) (clipboardPasteText text)
      fun _ => During fails base before [] false := by
  have quiet (devices : Devices) (during : During fails base before [] true devices) :
      During fails base before [] false devices := by
    obtain ⟨isPlatform, calls, isTrace, -, keeps⟩ := during
    refine ⟨isPlatform, calls, isTrace, ?_, keeps⟩
    rintro ⟨⟩
  have restores (backup : CString) :
      Triple (During fails base before [] true) (restoreClipboard backup)
        fun _ => During fails base before [] true := by
    cases backup with
    | none => exact triple_pure fun _ during => during
    | some backup =>
        exact triple_bind (triple_operate_other _ rfl) fun _ =>
          triple_pure fun _ during => during
  cases text with
  | none => exact triple_pure fun _ during => during
  | some text =>
      refine triple_ite (fun _ => triple_pure fun _ during => during) fun _ => ?_
      refine triple_getState fun devices => ?_
      refine triple_ite (fun _ => triple_pure fun _ during => during.2) fun _ => ?_
      refine triple_bind
        ((triple_operate_other _ rfl).weaken (fun _ during => during.2)
          fun _ _ during => during)
        fun backup => ?_
      refine triple_bind (triple_operate_other _ rfl) fun setErr => ?_
      refine triple_ite (fun _ => triple_pure quiet) fun _ => ?_
      refine triple_bind (triple_sendPasteShortcut _) fun keyErr => ?_
      exact triple_bind (restores backup) fun _ => triple_pure quiet

/-! ## Modifiers -/

end Keys

end Uinput

/-- The code that a modifier is pressed with. -/
def Modifier.code : Modifier → UInt16
  | shift => 42
  | altGr => 100
  | ctrl => 29
  | metaKey => 125
  | alt => 56

namespace Uinput

section Chords

variable {fails : Nat → Bool} {base : Platform} {before : List DeviceCall}
variable {held : List UInt16} {pasting : Bool}

theorem triple_act_press (modifier : Modifier) :
    Triple (During fails base before held pasting) (modifier.act .press)
      fun err => Branch fails base before (modifier.code :: held) held pasting
        (err = .success) := by
  cases modifier with
  | altGr =>
      refine triple_bind (triple_inputLinuxKeyActionRaw_press KEY_RIGHTALT)
        fun result => triple_pure fun devices branch => ?_
      have sameCode : UInt16.ofInt KEY_RIGHTALT = Modifier.altGr.code := by rfl
      rw [sameCode] at branch
      by_cases succeeds : result = INPUT_BACKEND_OK
      · simpa [succeeds] using branch
      · simpa [succeeds] using branch
  | shift | ctrl | metaKey | alt => exact triple_inputKeyAction_press rfl

theorem triple_act_release (modifier : Modifier) :
    Triple (During fails base before (modifier.code :: held) pasting)
      (modifier.act .release)
      fun _ => During fails base before held pasting := by
  cases modifier with
  | altGr =>
      exact triple_bind (triple_inputLinuxKeyActionRaw_release KEY_RIGHTALT)
        fun _ => triple_pure fun _ during => during
  | shift | ctrl | metaKey | alt => exact triple_inputKeyAction_release rfl

theorem triple_releaseModifiersUnified (pressed : List Modifier) :
    Triple (During fails base before (pressed.map Modifier.code) pasting)
      (releaseModifiersUnified pressed)
      fun _ => During fails base before [] pasting := by
  induction pressed with
  | nil => exact triple_pure fun _ during => during
  | cons modifier pressed inductionHypothesis =>
      exact triple_bind (triple_act_release modifier)
        fun _ => inductionHypothesis

/-- The modifiers that are reported as pressed are held, and no others. -/
theorem triple_pressModifiersFrom (pressed modifiers : List Modifier) :
    Triple (During fails base before (pressed.map Modifier.code) pasting)
      (pressModifiersFrom pressed modifiers)
      fun result => During fails base before
        (((result.toOption).getD []).map Modifier.code) pasting := by
  induction modifiers generalizing pressed with
  | nil => exact triple_pure fun _ during => during
  | cons modifier rest inductionHypothesis =>
      refine triple_bind (triple_act_press modifier) fun err => ?_
      refine triple_ite (fun failed => ?_) fun succeeds => ?_
      · refine triple_bind
          ((triple_releaseModifiersUnified pressed).weaken
            (fun _ branch => branch.2 failed) fun _ _ during => during)
          fun _ => ?_
        exact triple_pure fun _ during => during
      · exact (inductionHypothesis (modifier :: pressed)).weaken
          (fun _ branch => branch.1 (not_not.mp succeeds)) fun _ _ during => during

theorem triple_pressModifiersUnified (modsMask : UInt32) (userAlt : Bool) :
    Triple (During fails base before [] pasting)
      (pressModifiersUnified modsMask userAlt)
      fun result => During fails base before
        (((result.toOption).getD []).map Modifier.code) pasting :=
  triple_pressModifiersFrom [] _

/-! ## Characters and function keys -/

theorem triple_injectMainKey (evdevKey : Int) (finalMods : UInt32) :
    Triple (During fails base before held pasting)
      (injectMainKey evdevKey finalMods .click)
      fun _ => During fails base before held pasting := by
  refine triple_ite (fun _ => ?_) fun _ => triple_inputLinuxKeyActionRaw_click _
  refine triple_bind (triple_inputLinuxKeyActionRaw_press evdevKey) fun result => ?_
  refine triple_ite (fun succeeds => ?_) fun failed => ?_
  · exact (triple_inputLinuxKeyActionRaw_release evdevKey).weaken
      (fun _ branch => branch.1 succeeds) fun _ _ during => during
  · exact triple_pure fun _ branch => branch.2 failed

theorem triple_keyboardChar (codepoint : Int32) (mods : UInt32) :
    Triple (During fails base before [] false)
      (keyboardChar codepoint mods .click)
      fun _ => During fails base before [] false := by
  refine triple_getState fun devices => ?_
  cases mapCharToEvdevLinux devices.platform codepoint with
  | error err =>
      exact (triple_clipboardPasteText _).weaken (fun _ during => during.2)
        fun _ _ during => during
  | ok mapped =>
      refine triple_bind
        ((triple_pressModifiersUnified _ _).weaken (fun _ during => during.2)
          fun _ _ during => during)
        fun result => ?_
      cases result with
      | error err =>
          exact triple_clipboardPasteText
            (some (encodeCodepointToUtf8 codepoint))
      | ok pressed =>
          refine triple_bind (triple_injectMainKey _ _) fun result => ?_
          refine triple_bind (triple_releaseModifiersUnified pressed) fun _ => ?_
          exact triple_ite (fun _ => triple_clipboardPasteText _)
            fun _ => triple_pure fun _ during => during

theorem triple_keyboardFunctionKey (key : CKey) (mods : UInt32) :
    Triple (During fails base before [] false)
      (keyboardFunctionKey key mods .click)
      fun _ => During fails base before [] false := by
  refine triple_bind (triple_pressModifiersUnified _ _) fun result => ?_
  cases result with
  | error err => exact triple_pure fun _ during => during
  | ok pressed =>
      refine triple_bind (triple_inputKeyAction_click key) fun err => ?_
      refine triple_bind (triple_releaseModifiersUnified pressed) fun _ => ?_
      exact triple_pure fun _ during => during

end Chords

end Uinput

end MouseHero
