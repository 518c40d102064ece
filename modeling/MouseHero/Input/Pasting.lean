import MouseHero.Input.Keyboard

/-!
# Cleaning up behind pasting

What `clipboard_paste_text` leaves behind when one of its operations fails: the
modifier of the paste shortcut, and the text that had been in the clipboard.
-/

namespace MouseHero

open FaultM

/-! ## Clean pasting -/

/-- Behind every press of the key that succeeds, there is a release of it.  The
calls are in the order of time. -/
def ReleasedBehind (platform : Platform) (key : CKey) :
    List DeviceCall → List DeviceCall → Prop
  | _, [] => True
  | before, call :: later =>
      (call = .keyAction key .press →
        platform.backendStatus (call :: before) = INPUT_BACKEND_OK →
        .keyAction key .release ∈ later) ∧
        ReleasedBehind platform key (call :: before) later

/-- The text of a write to the clipboard. -/
def DeviceCall.written : DeviceCall → Option (List UInt8)
  | .clipboardSet text => some text
  | _ => none

/-- Behind every text that is read from the clipboard, the last one written is
the same text. -/
def RestoredBehind (platform : Platform) :
    List DeviceCall → List DeviceCall → Prop
  | _, [] => True
  | before, call :: later =>
      (call = .clipboardGet →
        ∀ backup, platform.clipboardText (call :: before) = some backup →
          (later.filterMap DeviceCall.written).getLast? = some backup) ∧
        RestoredBehind platform (call :: before) later

/-- Pasting leaves neither modifier down, and what has been read from the
clipboard is written last. -/
def PastesCleanly (text : CString) (devices : Devices) : Prop :=
  ∃ calls,
    (clipboardPasteText text devices).2.trace = calls.reverse ++ devices.trace ∧
      ReleasedBehind devices.platform .control devices.trace calls ∧
      ReleasedBehind devices.platform .shift devices.trace calls ∧
      RestoredBehind devices.platform devices.trace calls

/-! ## The operations of pasting -/

section Calls

variable (platform : Platform) (config : ClipboardFallbackConfig)
variable (text : List UInt8) (old : List DeviceCall)

/-- The modifier of the paste shortcut. -/
def pasteModifier : CKey :=
  if config.useCtrlV then .control else .shift

/-- The key of the paste shortcut. -/
def pasteKey : CKey :=
  if config.useCtrlV then .v else .insert

/-! The operations up to each of the steps, the latest first. -/

def pasteGot : List DeviceCall :=
  .clipboardGet :: old

def pasteSet : List DeviceCall :=
  .clipboardSet text :: pasteGot old

def pastePressed : List DeviceCall :=
  .keyAction (pasteModifier config) .press :: pasteSet text old

def pasteClicked : List DeviceCall :=
  .keyAction (pasteKey config) .click :: pastePressed config text old

/-- The operations of a shortcut, which stops at the first failure. -/
def shortcutCalls (modifier key : CKey) : List DeviceCall :=
  .keyAction modifier .press ::
    if platform.backendStatus (.keyAction modifier .press :: old) =
        INPUT_BACKEND_OK then
      .keyAction key .click ::
        if platform.backendStatus
            (.keyAction key .click :: .keyAction modifier .press :: old) =
              INPUT_BACKEND_OK then
          [.keyAction modifier .release]
        else []
    else []

/-- The operation that restores the clipboard. -/
def restoreCalls : List DeviceCall :=
  match platform.clipboardText (pasteGot old) with
  | none => []
  | some backup => [.clipboardSet backup]

/-- The operations of pasting. -/
def pasteCalls : List DeviceCall :=
  .clipboardGet :: .clipboardSet text ::
    if platform.serviceStatus (pasteSet text old) = .success then
      shortcutCalls platform (pasteSet text old) (pasteModifier config)
          (pasteKey config) ++
        restoreCalls platform old
    else []

end Calls

/-- No write and no click fails at the wrong place: neither a click of the
shortcut behind its modifier nor, with another text in the clipboard, the write
of the text. -/
def PasteSpared (text : CString) (devices : Devices) : Prop :=
  ∀ bytes, text = some bytes → cString bytes ≠ [] →
    devices.clipboardConfig.enabled = true →
    (devices.platform.serviceStatus (pasteSet (cString bytes) devices.trace) =
        .success →
      devices.platform.backendStatus (pastePressed devices.clipboardConfig
        (cString bytes) devices.trace) = INPUT_BACKEND_OK →
      devices.platform.backendStatus (pasteClicked devices.clipboardConfig
        (cString bytes) devices.trace) = INPUT_BACKEND_OK) ∧
    (devices.platform.serviceStatus (pasteSet (cString bytes) devices.trace) ≠
        .success →
      ∀ backup,
        devices.platform.clipboardText (pasteGot devices.trace) = some backup →
        backup = cString bytes)

private theorem clipboardGet_eq (devices : Devices) :
    clipboardGet devices =
      (.ok (devices.platform.clipboardText (pasteGot devices.trace)),
        { devices with trace := pasteGot devices.trace }) :=
  rfl

private theorem clipboardSet_eq (text : List UInt8) (devices : Devices) :
    clipboardSet text { devices with trace := pasteGot devices.trace } =
      (.ok (devices.platform.serviceStatus (pasteSet text devices.trace)),
        { devices with trace := pasteSet text devices.trace }) :=
  rfl

private theorem sendPasteShortcut_eq (config : ClipboardFallbackConfig) :
    sendPasteShortcut config =
      pasteShortcut (pasteModifier config) (pasteKey config) := by
  rw [sendPasteShortcut, pasteModifier, pasteKey]
  split <;> rfl

private theorem pasteShortcut_eq (modifier key : CKey) (devices : Devices) :
    ∃ err, pasteShortcut modifier key devices =
      (.ok err,
        { devices with
          trace := (shortcutCalls devices.platform devices.trace modifier
            key).reverse ++ devices.trace }) := by
  rw [pasteShortcut, bind_of_ok (inputKeyAction_eq ..), shortcutCalls]
  by_cases pressed : devices.platform.backendStatus
      (.keyAction modifier .press :: devices.trace) = INPUT_BACKEND_OK
  · rw [if_pos (translateBackendStatus_eq_success_iff.mpr pressed),
      bind_of_ok (inputKeyAction_eq ..), if_pos pressed]
    by_cases clicked : devices.platform.backendStatus
        (.keyAction key .click :: .keyAction modifier .press :: devices.trace) =
          INPUT_BACKEND_OK
    · rw [if_pos (translateBackendStatus_eq_success_iff.mpr clicked),
        if_pos clicked]
      exact ⟨_, rfl⟩
    · rw [if_neg (translateBackendStatus_eq_success_iff.not.mpr clicked),
        if_neg clicked]
      exact ⟨_, rfl⟩
  · rw [if_neg (translateBackendStatus_eq_success_iff.not.mpr pressed),
      if_neg pressed]
    exact ⟨_, rfl⟩

private theorem restoreClipboard_eq (devices : Devices) (trace : List DeviceCall) :
    restoreClipboard (devices.platform.clipboardText (pasteGot devices.trace))
        { devices with trace := trace } =
      (.ok ⟨⟩,
        { devices with
          trace := (restoreCalls devices.platform devices.trace).reverse ++
            trace }) := by
  rw [restoreCalls]
  cases devices.platform.clipboardText (pasteGot devices.trace) with
  | none => rfl
  | some backup => rfl

theorem clipboardPasteText_trace {bytes : List UInt8} {devices : Devices}
    (nonempty : cString bytes ≠ [])
    (enabled : devices.clipboardConfig.enabled = true) :
    (clipboardPasteText (some bytes) devices).2.trace =
      (pasteCalls devices.platform devices.clipboardConfig (cString bytes)
        devices.trace).reverse ++ devices.trace := by
  simp only [clipboardPasteText, if_neg nonempty]
  rw [bind_of_ok (getState_apply devices), enabled, Bool.not_true,
    if_neg Bool.false_ne_true, bind_of_ok (clipboardGet_eq devices),
    bind_of_ok (clipboardSet_eq ..), pasteCalls]
  by_cases written : devices.platform.serviceStatus
      (pasteSet (cString bytes) devices.trace) = .success
  · obtain ⟨err, returned⟩ := pasteShortcut_eq
      (pasteModifier devices.clipboardConfig) (pasteKey devices.clipboardConfig)
      { devices with trace := pasteSet (cString bytes) devices.trace }
    rw [if_neg (not_not.mpr written), if_pos written, sendPasteShortcut_eq,
      bind_of_ok returned, bind_of_ok (restoreClipboard_eq ..), pure_apply]
    simp [pasteSet, pasteGot]
  · rw [if_pos written, if_neg written]
    rfl

/-! ## When pasting is clean -/

theorem pastesCleanly_of_silent {text : CString} {devices : Devices}
    (silent : (clipboardPasteText text devices).2 = devices) :
    PastesCleanly text devices :=
  ⟨[], by rw [silent]; rfl, trivial, trivial, trivial⟩

/-- The operations are the only list that leads from the one trace to the
other. -/
theorem pastesCleanly_iff {text : CString} {devices : Devices}
    {calls : List DeviceCall}
    (leads : (clipboardPasteText text devices).2.trace =
      calls.reverse ++ devices.trace) :
    PastesCleanly text devices ↔
      ReleasedBehind devices.platform .control devices.trace calls ∧
        ReleasedBehind devices.platform .shift devices.trace calls ∧
        RestoredBehind devices.platform devices.trace calls := by
  constructor
  · intro clean
    obtain ⟨other, same, holds⟩ := clean
    rw [leads] at same
    obtain rfl := List.reverse_inj.mp (List.append_cancel_right same)
    exact holds
  · intro holds
    exact ⟨calls, leads, holds⟩

section Calls

variable {platform : Platform} {config : ClipboardFallbackConfig}
variable {text : List UInt8} {old earlier : List DeviceCall}

theorem releasedBehind_of_not_mem {key : CKey} {before calls : List DeviceCall}
    (unpressed : .keyAction key .press ∉ calls) :
    ReleasedBehind platform key before calls := by
  induction calls generalizing before with
  | nil => trivial
  | cons call later inductionHypothesis =>
      rw [List.mem_cons, not_or] at unpressed
      exact ⟨fun same => absurd same.symm unpressed.1,
        inductionHypothesis unpressed.2⟩

private theorem releasedBehind_skip {key : CKey} {call : DeviceCall}
    {before later : List DeviceCall} (other : call ≠ .keyAction key .press) :
    ReleasedBehind platform key before (call :: later) ↔
      ReleasedBehind platform key (call :: before) later :=
  ⟨fun behind => behind.2, fun behind => ⟨fun same => absurd same other, behind⟩⟩

private theorem releasedBehind_press_iff {key : CKey} {before later : List DeviceCall}
    (unpressed : .keyAction key .press ∉ later) :
    ReleasedBehind platform key before (.keyAction key .press :: later) ↔
      (platform.backendStatus (.keyAction key .press :: before) =
          INPUT_BACKEND_OK →
        .keyAction key .release ∈ later) := by
  constructor
  · exact fun behind => behind.1 rfl
  · exact fun released => ⟨fun _ => released, releasedBehind_of_not_mem unpressed⟩

private theorem not_mem_restoreCalls (key : CKey) (direction : CDirection) :
    .keyAction key direction ∉ restoreCalls platform old := by
  rw [restoreCalls]
  cases platform.clipboardText (pasteGot old) with
  | none => simp
  | some backup => simp

/-- The modifier of a shortcut is released unless the click fails. -/
theorem releasedBehind_shortcutCalls (modifier key other : CKey) :
    ReleasedBehind platform other old
        (shortcutCalls platform old modifier key ++ restoreCalls platform earlier) ↔
      (modifier = other →
        platform.backendStatus (.keyAction modifier .press :: old) =
          INPUT_BACKEND_OK →
        platform.backendStatus
            (.keyAction key .click :: .keyAction modifier .press :: old) =
          INPUT_BACKEND_OK) := by
  have restores := @not_mem_restoreCalls platform earlier other
  rw [shortcutCalls, List.cons_append]
  by_cases same : modifier = other
  · subst same
    rw [releasedBehind_press_iff]
    · by_cases pressed : platform.backendStatus (.keyAction modifier .press :: old) =
          INPUT_BACKEND_OK
      · rw [if_pos pressed]
        split
        · rename_i clicked
          simp [clicked]
        · rename_i clicked
          simp [clicked, pressed, restores]
      · simp [pressed]
    · split
      · split <;> simp [restores]
      · simp [restores]
  · refine iff_of_true (releasedBehind_of_not_mem ?_) fun isOther => absurd isOther same
    split
    · split <;> simp [restores, Ne.symm same]
    · simp [restores, Ne.symm same]

private theorem releasedBehind_pasteCalls (key : CKey) :
    ReleasedBehind platform key old (pasteCalls platform config text old) ↔
      (pasteModifier config = key →
        platform.serviceStatus (pasteSet text old) = .success →
        platform.backendStatus (pastePressed config text old) = INPUT_BACKEND_OK →
        platform.backendStatus (pasteClicked config text old) =
          INPUT_BACKEND_OK) := by
  rw [pasteCalls, releasedBehind_skip (by simp), releasedBehind_skip (by simp)]
  change ReleasedBehind platform key (pasteSet text old) _ ↔ _
  by_cases written : platform.serviceStatus (pasteSet text old) = .success
  · rw [if_pos written, releasedBehind_shortcutCalls]
    exact ⟨fun released isKey _ => released isKey,
      fun released isKey => released isKey written⟩
  · rw [if_neg written]
    exact iff_of_true trivial fun _ isWritten => absurd isWritten written

private theorem restoredBehind_of_not_mem {before calls : List DeviceCall}
    (unread : .clipboardGet ∉ calls) : RestoredBehind platform before calls := by
  induction calls generalizing before with
  | nil => trivial
  | cons call later inductionHypothesis =>
      rw [List.mem_cons, not_or] at unread
      exact ⟨fun same => absurd same.symm unread.1, inductionHypothesis unread.2⟩

private theorem restoredBehind_get_iff {before later : List DeviceCall}
    (unread : .clipboardGet ∉ later) :
    RestoredBehind platform before (.clipboardGet :: later) ↔
      ∀ backup, platform.clipboardText (.clipboardGet :: before) = some backup →
        (later.filterMap DeviceCall.written).getLast? = some backup := by
  constructor
  · exact fun behind => behind.1 rfl
  · exact fun restored => ⟨fun _ => restored, restoredBehind_of_not_mem unread⟩

private theorem shortcutCalls_clipboard (modifier key : CKey) :
    .clipboardGet ∉ shortcutCalls platform old modifier key ∧
      (shortcutCalls platform old modifier key).filterMap DeviceCall.written =
        [] := by
  rw [shortcutCalls]
  split
  · split <;> simp [DeviceCall.written]
  · simp [DeviceCall.written]

private theorem restoreCalls_clipboard :
    .clipboardGet ∉ restoreCalls platform old ∧
      (restoreCalls platform old).filterMap DeviceCall.written =
        (platform.clipboardText (pasteGot old)).toList := by
  rw [restoreCalls]
  cases platform.clipboardText (pasteGot old) with
  | none => simp
  | some backup => simp [DeviceCall.written]

/-- What has been read is written last unless another text cannot be set. -/
theorem restoredBehind_pasteCalls :
    RestoredBehind platform old (pasteCalls platform config text old) ↔
      (platform.serviceStatus (pasteSet text old) ≠ .success →
        ∀ backup, platform.clipboardText (pasteGot old) = some backup →
          backup = text) := by
  obtain ⟨noRead, noWrite⟩ :=
    @shortcutCalls_clipboard platform (pasteSet text old) (pasteModifier config)
      (pasteKey config)
  obtain ⟨restoresUnread, restores⟩ := @restoreCalls_clipboard platform old
  rw [pasteCalls]
  by_cases written : platform.serviceStatus (pasteSet text old) = .success
  · rw [if_pos written]
    refine iff_of_true ?_ fun failed => absurd written failed
    rw [restoredBehind_get_iff]
    · intro backup got
      change platform.clipboardText (pasteGot old) = some backup at got
      have behind := congrArg List.getLast? (congrArg₂ (· ++ ·) noWrite restores)
      rw [← List.filterMap_append, got] at behind
      rw [← List.singleton_append, List.filterMap_append, List.getLast?_append,
        behind]
      rfl
    · simp [noRead, restoresUnread]
  · rw [if_neg written, restoredBehind_get_iff (by simp)]
    constructor
    · intro restored _ backup got
      exact (Option.some.inj (restored backup got)).symm
    · intro same backup got
      rw [same written backup got]
      rfl

end Calls

private theorem pasteModifier_or (config : ClipboardFallbackConfig) :
    pasteModifier config = .control ∨ pasteModifier config = .shift := by
  rw [pasteModifier]
  split
  · exact Or.inl rfl
  · exact Or.inr rfl

/-- Pasting is clean if and only if nothing fails at the wrong place. -/
theorem clipboardPasteText_clean_iff (text : CString) (devices : Devices) :
    PastesCleanly text devices ↔ PasteSpared text devices := by
  by_cases pastes : ∃ bytes, text = some bytes ∧ cString bytes ≠ [] ∧
      devices.clipboardConfig.enabled = true
  · obtain ⟨bytes, rfl, nonempty, enabled⟩ := pastes
    rw [pastesCleanly_iff (clipboardPasteText_trace nonempty enabled),
      releasedBehind_pasteCalls, releasedBehind_pasteCalls,
      restoredBehind_pasteCalls]
    constructor
    · intro clean other same _ _
      obtain rfl := Option.some.inj same
      refine ⟨?_, clean.2.2⟩
      rcases pasteModifier_or devices.clipboardConfig with isControl | isShift
      · exact clean.1 isControl
      · exact clean.2.1 isShift
    · intro spared
      obtain ⟨clicks, restores⟩ := spared bytes rfl nonempty enabled
      exact ⟨fun _ => clicks, fun _ => clicks, restores⟩
  · refine iff_of_true (pastesCleanly_of_silent ?_) ?_
    · apply clipboardPasteText_silent
      by_cases enabled : devices.clipboardConfig.enabled = true
      · refine Or.inl fun bytes isText => ?_
        by_contra nonempty
        exact pastes ⟨bytes, isText, nonempty, enabled⟩
      · exact Or.inr (Bool.eq_false_of_not_eq_true enabled)
    · intro bytes isText nonempty enabled
      exact absurd ⟨bytes, isText, nonempty, enabled⟩ pastes

/-- A machine on which the write of a V fails, with the shortcut Ctrl+V. -/
def brokenVDevices : Devices where
  platform :=
    { backendStatus := fun calls =>
        if calls.head? = some (.keyAction .v .click) then -5 else INPUT_BACKEND_OK
      serviceStatus := fun _ => .success
      exitStatus := fun _ => 0
      clipboardText := fun _ => none
      xkbKeymap := fun _ => none }
  clipboardConfig := ⟨true, true⟩
  trace := []

/-- Control stays down there. -/
theorem brokenV_leavesControl :
    (clipboardPasteText (some [0xC3, 0xA9]) brokenVDevices).2.trace =
        [.keyAction .v .click, .keyAction .control .press,
          .clipboardSet [0xC3, 0xA9], .clipboardGet] ∧
      ¬ PastesCleanly (some [0xC3, 0xA9]) brokenVDevices := by
  have traced :
      (clipboardPasteText (some [0xC3, 0xA9]) brokenVDevices).2.trace =
        [.keyAction .v .click, .keyAction .control .press,
          .clipboardSet [0xC3, 0xA9], .clipboardGet] := by
    decide
  refine ⟨traced, fun clean => ?_⟩
  have holds := (@pastesCleanly_iff _ _
    [.clipboardGet, .clipboardSet [0xC3, 0xA9], .keyAction .control .press,
      .keyAction .v .click] traced).mp clean
  have released := holds.1.2.2.1 rfl (by decide)
  revert released
  decide

end MouseHero
