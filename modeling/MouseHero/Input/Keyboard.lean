import MouseHero.Input.Facade
import MouseHero.Input.Keymap

/-!
# The keyboard

`clipboard.c` and `handler.c`: characters and function keys with their
modifiers, and pasting for what the keyboard layout does not have.  The delays
between the key events are left out.
-/

namespace MouseHero

open FaultM

/-! ## Pasting -/

/-- Press the modifier, click the key and release the modifier, up to the first
failure. -/
def pasteShortcut (modifier key : CKey) : DeviceM YAError := do
  let pressed ← inputKeyAction modifier .press
  if pressed = .success then
    let clicked ← inputKeyAction key .click
    if clicked = .success then
      inputKeyAction modifier .release
    else
      return clicked
  else
    return pressed

/-- Send the configured paste shortcut. -/
def sendPasteShortcut (config : ClipboardFallbackConfig) : DeviceM YAError :=
  if config.useCtrlV then pasteShortcut .control .v
  else pasteShortcut .shift .insert

/-- Put the saved text, if there is any, back into the clipboard. -/
def restoreClipboard : CString → DeviceM Unit
  | none => return ()
  | some backup => do
      let _ ← clipboardSet backup

/-- `clipboard_paste_text`. -/
def clipboardPasteText (text : CString) : DeviceM YAError := do
  match text with
  | none => return .invalidInput
  | some text =>
      if cString text = [] then
        return .invalidInput
      else
        let devices ← getState
        if !devices.clipboardConfig.enabled then
          return .unsupportedOperation
        else
          let backup ← clipboardGet
          let setErr ← clipboardSet (cString text)
          if setErr ≠ .success then
            return setErr
          else
            let keyErr ← sendPasteShortcut devices.clipboardConfig
            restoreClipboard backup
            return keyErr

/-! ## Modifiers -/

/-- `CHORD_MOD_SHIFT` to `CHORD_MOD_META` of a keyboard request. -/
def CHORD_MOD_SHIFT : UInt32 := 1
def CHORD_MOD_CTRL : UInt32 := 2
def CHORD_MOD_ALT : UInt32 := 4
def CHORD_MOD_META : UInt32 := 8

/-- The modifiers in the order of `pressed_state`.  The first four are the bits
of a mask. -/
inductive Modifier where
  | shift
  | altGr
  | ctrl
  | metaKey
  | alt
  deriving DecidableEq, Repr

/-- The bit of a modifier in a mask. -/
def Modifier.bit : Modifier → UInt32
  | shift => 1
  | altGr => 2
  | ctrl => 4
  | metaKey => 8
  | alt => 0

/-- `merge_modifiers`. -/
def mergeModifiers (userMods xkbMods : UInt32) : UInt32 :=
  (if userMods &&& CHORD_MOD_SHIFT ≠ 0 ∨ xkbMods &&& 1 ≠ 0 then 1 else 0) |||
    (if xkbMods &&& 2 ≠ 0 then 2 else 0) |||
    (if userMods &&& CHORD_MOD_CTRL ≠ 0 ∨ xkbMods &&& 4 ≠ 0 then 4 else 0) |||
    (if userMods &&& CHORD_MOD_META ≠ 0 ∨ xkbMods &&& 8 ≠ 0 then 8 else 0)

/-- The modifiers to press, in order. -/
def requestedModifiers (modsMask : UInt32) (userAlt : Bool) : List Modifier :=
  [Modifier.shift, .altGr, .ctrl, .metaKey].filter
      (fun modifier => modsMask &&& modifier.bit ≠ 0) ++
    if userAlt then [.alt] else []

/-- `KEY_RIGHTALT`. -/
def KEY_RIGHTALT : Int := 100

/-- Press or release a modifier. -/
def Modifier.act (direction : CDirection) : Modifier → DeviceM YAError
  | shift => inputKeyAction .shift direction
  | altGr => do
      let result ← inputLinuxKeyActionRaw KEY_RIGHTALT direction
      return if result = INPUT_BACKEND_OK then .success else .platformError
  | ctrl => inputKeyAction .control direction
  | metaKey => inputKeyAction .metaKey direction
  | alt => inputKeyAction .alt direction

/-- `release_modifiers_unified`: release what has been pressed, the latest
first. -/
def releaseModifiersUnified : List Modifier → DeviceM Unit
  | [] => return ()
  | modifier :: pressed => do
      let _ ← modifier.act .release
      releaseModifiersUnified pressed

/-- The steps of `press_modifiers_unified`: the first failure releases what
has been pressed so far. -/
def pressModifiersFrom (pressed : List Modifier) :
    List Modifier → DeviceM (Except YAError (List Modifier))
  | [] => return .ok pressed
  | modifier :: rest => do
      let err ← modifier.act .press
      if err ≠ .success then
        releaseModifiersUnified pressed
        return .error err
      else
        pressModifiersFrom (modifier :: pressed) rest

/-- `press_modifiers_unified`: the pressed modifiers, the latest first. -/
def pressModifiersUnified (modsMask : UInt32) (userAlt : Bool) :
    DeviceM (Except YAError (List Modifier)) :=
  pressModifiersFrom [] (requestedModifiers modsMask userAlt)

/-! ## Characters and function keys -/

/-- The main key of a character.  With modifiers a click is split. -/
def injectMainKey (evdevKey : Int) (finalMods : UInt32)
    (direction : CDirection) : DeviceM Int :=
  if direction = .click ∧ finalMods ≠ 0 then do
    let result ← inputLinuxKeyActionRaw evdevKey .press
    if result = INPUT_BACKEND_OK then
      inputLinuxKeyActionRaw evdevKey .release
    else
      return result
  else
    inputLinuxKeyActionRaw evdevKey direction

/-- A character with its modifiers pressed.  Failures end in pasting. -/
def injectCharacter (codepoint : Int32) (evdevKey : Int)
    (finalMods : UInt32) (direction : CDirection) :
    Except YAError (List Modifier) → DeviceM YAError
  | .error _ => clipboardPasteText (some (encodeCodepointToUtf8 codepoint))
  | .ok pressed => do
      let result ← injectMainKey evdevKey finalMods direction
      releaseModifiersUnified pressed
      if result ≠ INPUT_BACKEND_OK then
        clipboardPasteText (some (encodeCodepointToUtf8 codepoint))
      else
        return .success

/-- `input_char_linux_unified`. -/
def inputCharLinuxUnified (codepoint : Int32) (userMods : UInt32)
    (direction : CDirection) : DeviceM YAError := do
  let devices ← getState
  match mapCharToEvdevLinux devices.platform codepoint with
  | .ok (evdevKey, xkbMods) =>
      let finalMods := mergeModifiers userMods xkbMods
      let userAlt := userMods &&& CHORD_MOD_ALT ≠ 0
      let pressed ← pressModifiersUnified finalMods userAlt
      injectCharacter codepoint evdevKey finalMods direction pressed
  | .error _ => clipboardPasteText (some (encodeCodepointToUtf8 codepoint))

/-- A function key with its modifiers pressed. -/
def injectFunctionKey (key : CKey) (direction : CDirection) :
    Except YAError (List Modifier) → DeviceM YAError
  | .error err => return err
  | .ok pressed => do
      let err ← inputKeyAction key direction
      releaseModifiersUnified pressed
      return err

/-- `input_function_key_linux`. -/
def inputFunctionKeyLinux (key : CKey) (userMods : UInt32)
    (direction : CDirection) : DeviceM YAError := do
  let modsMask :=
    (if userMods &&& CHORD_MOD_SHIFT ≠ 0 then 1 else 0) |||
      (if userMods &&& CHORD_MOD_CTRL ≠ 0 then 4 else 0) |||
      (if userMods &&& CHORD_MOD_META ≠ 0 then 8 else 0)
  let userAlt := userMods &&& CHORD_MOD_ALT ≠ 0
  let pressed ← pressModifiersUnified modsMask userAlt
  injectFunctionKey key direction pressed

/-- `keyboard_char`. -/
def keyboardChar (codepoint : Int32) (mods : UInt32)
    (direction : CDirection) : DeviceM YAError :=
  inputCharLinuxUnified codepoint mods direction

/-- `keyboard_function_key`. -/
def keyboardFunctionKey (key : CKey) (mods : UInt32)
    (direction : CDirection) : DeviceM YAError :=
  inputFunctionKeyLinux key mods direction

/-! ## Traces -/

private theorem pasteShortcut_extends (modifier key : CKey) :
    Respects Devices.Extends (pasteShortcut modifier key) := by
  apply bind_extends (inputKeyAction_extends _ _)
  intro pressed
  apply respects_ite _ (pure_extends _)
  apply bind_extends (inputKeyAction_extends _ _)
  intro clicked
  exact respects_ite (inputKeyAction_extends _ _) (pure_extends _)

theorem sendPasteShortcut_extends (config : ClipboardFallbackConfig) :
    Respects Devices.Extends (sendPasteShortcut config) :=
  respects_ite (pasteShortcut_extends _ _) (pasteShortcut_extends _ _)

theorem restoreClipboard_extends (backup : CString) :
    Respects Devices.Extends (restoreClipboard backup) := by
  cases backup with
  | none => exact pure_extends _
  | some backup =>
      exact bind_extends (operate_extends _ _) fun _ => pure_extends _

theorem clipboardPasteText_extends (text : CString) :
    Respects Devices.Extends (clipboardPasteText text) := by
  cases text with
  | none => exact pure_extends _
  | some text =>
      apply respects_ite (pure_extends _)
      apply bind_extends (respects_getState Devices.extends_refl)
      intro devices
      apply respects_ite (pure_extends _)
      apply bind_extends (operate_extends _ _)
      intro backup
      apply bind_extends (operate_extends _ _)
      intro setErr
      apply respects_ite (pure_extends _)
      exact bind_extends (sendPasteShortcut_extends _) fun _ =>
        bind_extends (restoreClipboard_extends _) fun _ => pure_extends _

/-- Pasting is an operation for a text that is not empty, if it is enabled. -/
theorem clipboardPasteText_grows {text : List UInt8} {devices : Devices}
    (nonempty : cString text ≠ [])
    (enabled : devices.clipboardConfig.enabled = true) :
    devices.Grows (clipboardPasteText (some text) devices).2 := by
  have pastes :
      Respects Devices.Grows (do
        let backup ← clipboardGet
        let setErr ← clipboardSet (cString text)
        if setErr ≠ .success then
          return setErr
        else
          let keyErr ← sendPasteShortcut devices.clipboardConfig
          restoreClipboard backup
          return keyErr) := by
    apply bind_grows (operate_grows _ _)
    intro backup
    apply bind_extends (operate_extends _ _)
    intro setErr
    apply respects_ite (pure_extends _)
    exact bind_extends (sendPasteShortcut_extends _) fun _ =>
      bind_extends (restoreClipboard_extends _) fun _ => pure_extends _
  have decided := pastes devices
  simp only [clipboardPasteText, if_neg nonempty]
  rw [bind_of_ok (getState_apply devices), enabled]
  exact decided

theorem clipboardPasteText_silent {text : CString} {devices : Devices}
    (refused :
      (∀ bytes, text = some bytes → cString bytes = []) ∨
        devices.clipboardConfig.enabled = false) :
    (clipboardPasteText text devices).2 = devices := by
  cases text with
  | none => rfl
  | some text =>
      by_cases empty : cString text = []
      · simp only [clipboardPasteText, if_pos empty, pure_apply]
      · rcases refused with noText | disabled
        · exact absurd (noText text rfl) empty
        · simp only [clipboardPasteText, if_neg empty]
          rw [bind_of_ok (getState_apply devices), disabled]
          rfl

theorem Modifier.act_grows (direction : CDirection) (modifier : Modifier) :
    Respects Devices.Grows (modifier.act direction) := by
  cases modifier with
  | altGr => exact bind_grows (operate_grows _ _) fun _ => pure_extends _
  | shift | ctrl | metaKey | alt => exact inputKeyAction_grows _ _

theorem Modifier.act_extends (direction : CDirection) (modifier : Modifier) :
    Respects Devices.Extends (modifier.act direction) :=
  fun devices => (modifier.act_grows direction devices).extends

theorem releaseModifiersUnified_extends (pressed : List Modifier) :
    Respects Devices.Extends (releaseModifiersUnified pressed) := by
  induction pressed with
  | nil => exact pure_extends _
  | cons modifier pressed inductionHypothesis =>
      exact bind_extends (modifier.act_extends _) fun _ => inductionHypothesis

private theorem pressModifiersFrom_extends (pressed modifiers : List Modifier) :
    Respects Devices.Extends (pressModifiersFrom pressed modifiers) := by
  induction modifiers generalizing pressed with
  | nil => exact pure_extends _
  | cons modifier rest inductionHypothesis =>
      apply bind_extends (modifier.act_extends _)
      intro err
      apply respects_ite
      · exact bind_extends (releaseModifiersUnified_extends _)
          fun _ => pure_extends _
      · exact inductionHypothesis _

/-- What follows the modifiers leaves a trace, or pressing them did. -/
theorem pressModifiersUnified_grows {Answer : Type}
    (modsMask : UInt32) (userAlt : Bool)
    {next : Except YAError (List Modifier) → DeviceM Answer}
    (injects : ∀ pressed, Respects Devices.Grows (next (.ok pressed)))
    (refuses : ∀ err, Respects Devices.Extends (next (.error err))) :
    Respects Devices.Grows (pressModifiersUnified modsMask userAlt >>= next) := by
  rw [pressModifiersUnified]
  cases requestedModifiers modsMask userAlt with
  | nil => exact injects []
  | cons modifier rest =>
      apply bind_grows
      · apply bind_grows (modifier.act_grows _)
        intro err
        apply respects_ite
        · exact bind_extends (releaseModifiersUnified_extends _)
            fun _ => pure_extends _
        · exact pressModifiersFrom_extends _ _
      · intro pressed
        cases pressed with
        | error err => exact refuses err
        | ok pressed => exact fun devices => (injects pressed devices).extends

private theorem injectMainKey_grows (evdevKey : Int) (finalMods : UInt32)
    (direction : CDirection) :
    Respects Devices.Grows (injectMainKey evdevKey finalMods direction) := by
  apply respects_ite
  · apply bind_grows (operate_grows _ _)
    intro result
    exact respects_ite (operate_extends _ _) (pure_extends _)
  · exact operate_grows _ _

/-- A character is injected if the layout has it, and pasted otherwise. -/
theorem inputCharLinuxUnified_grows {codepoint : Int32}
    {devices : Devices} (userMods : UInt32) (direction : CDirection)
    (small : codepoint.toInt < 0x110000)
    (possible :
      (mapCharToEvdevLinux devices.platform codepoint).isOk = true ∨
        devices.clipboardConfig.enabled = true) :
    devices.Grows
      (inputCharLinuxUnified codepoint userMods direction devices).2 := by
  rw [inputCharLinuxUnified, bind_of_ok (getState_apply devices)]
  cases mapped : mapCharToEvdevLinux devices.platform codepoint with
  | error err =>
      rcases possible with found | enabled
      · rw [mapped] at found
        cases found
      · exact clipboardPasteText_grows (cString_encodeCodepointToUtf8 small)
          enabled
  | ok key =>
      refine pressModifiersUnified_grows _ _ ?_ ?_ devices
      · intro pressed
        apply bind_grows (injectMainKey_grows _ _ _)
        intro result
        apply bind_extends (releaseModifiersUnified_extends _)
        intro _
        exact respects_ite (clipboardPasteText_extends _) (pure_extends _)
      · exact fun _ => clipboardPasteText_extends _

theorem inputCharLinuxUnified_silent {codepoint : Int32}
    {devices : Devices} (userMods : UInt32) (direction : CDirection)
    (unmapped : (mapCharToEvdevLinux devices.platform codepoint).isOk = false)
    (disabled : devices.clipboardConfig.enabled = false) :
    (inputCharLinuxUnified codepoint userMods direction devices).2 =
      devices := by
  rw [inputCharLinuxUnified, bind_of_ok (getState_apply devices)]
  cases mapped : mapCharToEvdevLinux devices.platform codepoint with
  | error err => exact clipboardPasteText_silent (Or.inr disabled)
  | ok key =>
      rw [mapped] at unmapped
      cases unmapped

theorem inputFunctionKeyLinux_grows (key : CKey) (userMods : UInt32)
    (direction : CDirection) :
    Respects Devices.Grows (inputFunctionKeyLinux key userMods direction) := by
  apply pressModifiersUnified_grows
  · intro pressed
    apply bind_grows (inputKeyAction_grows _ _)
    intro err
    exact bind_extends (releaseModifiersUnified_extends _) fun _ =>
      pure_extends _
  · exact fun _ => pure_extends _

end MouseHero
