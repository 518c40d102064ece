import MouseHero.Input.Devices

/-!
# The uinput device

`linux_uinput.c`, down to the `write` of every input event.  The descriptor is
open, and any of the writes can fail.
-/

namespace MouseHero

open FaultM

/-- `struct input_event`, as far as the backend uses it. -/
inductive InputEvent where
  | key (code : UInt16) (down : Bool)
  | rel (code : UInt16) (value : Int)
  | syn
  deriving DecidableEq, Repr

/-- A `write` of an event. -/
structure Attempt where
  event : InputEvent
  written : Bool
  deriving DecidableEq, Repr

/-- The device with the writes so far, the latest first.  `fails` decides which
of them fail. -/
structure Uinput where
  fails : Nat → Bool
  attempts : List Attempt

/-- Computations on the device.  They have no faults. -/
abbrev UinputM := FaultM PEmpty Uinput

/-! ## Codes -/

/-- `button_to_linux_code`. -/
def buttonToLinuxCode : CButton → UInt16
  | .left => 272
  | .right => 273
  | .middle => 274

/-- `ckey_to_linux_keycode`; a key without a code is not supported. -/
def ckeyToLinuxKeycode : CKey → Option UInt16
  | .function => none
  | .alt | .lMenu => some 56
  | .control | .lControl => some 29
  | .shift | .lShift => some 42
  | .metaKey | .lWin | .command => some 125
  | .rMenu => some 100
  | .rControl => some 97
  | .rShift => some 54
  | .rWin | .rCommand | .rOption => some 126
  | .optionKey => some 56
  | .num digit => [11, 2, 3, 4, 5, 6, 7, 8, 9, 10][digit.val]?
  | .f index =>
      if index.val < 10 then some (.ofNat (59 + index.val))
      else if index.val < 12 then some (.ofNat (77 + index.val))
      else some (.ofNat (171 + index.val))
  | .upArrow => some 103
  | .downArrow => some 108
  | .leftArrow => some 105
  | .rightArrow => some 106
  | .home => some 102
  | .endKey => some 107
  | .pageUp => some 104
  | .pageDown => some 109
  | .escape => some 1
  | .returnKey => some 28
  | .space => some 57
  | .tab => some 15
  | .backspace => some 14
  | .delete => some 111
  | .insert => some 110
  | .capsLock => some 58
  | .numlock => some 69
  | .scrollLock | .scroll => some 70
  | .numpad digit => [82, 79, 80, 81, 75, 76, 77, 71, 72, 73][digit.val]?
  | .add => some 78
  | .subtract => some 74
  | .multiply => some 55
  | .divide => some 98
  | .decimal => some 83
  | .separator => some 121
  | .oemMinus => some 12
  | .oemPlus => some 13
  | .oem4 => some 26
  | .oem6 => some 27
  | .oem5 => some 43
  | .oem1 => some 39
  | .oem7 => some 40
  | .oemComma => some 51
  | .oemPeriod => some 52
  | .oem2 => some 53
  | .oem3 => some 41
  | .printScr => some 99
  | .pause => some 119
  | .breakKey => some 411
  | .apps => some 127
  | .power => some 116
  | .sleep => some 142
  | .volumeUp => some 115
  | .volumeDown => some 114
  | .volumeMute => some 113
  | .micMute => some 248
  | .mediaPlayPause => some 164
  | .mediaStop => some 166
  | .mediaNextTrack => some 163
  | .mediaPrevTrack => some 165
  | .mediaFast => some 208
  | .mediaRewind => some 168
  | .browserBack => some 158
  | .browserForward => some 159
  | .browserRefresh => some 173
  | .browserStop => some 128
  | .browserSearch => some 217
  | .browserFavorites => some 156
  | .browserHome => some 172
  | .launchMail => some 155
  | .launchMediaSelect => some 226
  | .launchApp1 => some 148
  | .launchApp2 => some 149
  | .brightnessUp => some 225
  | .brightnessDown => some 224
  | .help => some 138
  | .undo => some 131
  | .redo => some 182
  | .find => some 136
  | .select => some 353
  | .execute => some 134
  | .eject => some 161
  | .zoom => some 372
  | .kana | .hangeul | .hangul => some 122
  | .hanja => some 123
  | .kanji => some 90
  | .convert => some 92
  | .nonConvert => some 94
  | .a => some 30
  | .b => some 48
  | .c => some 46
  | .d => some 32
  | .e => some 18
  | .letterF => some 33
  | .g => some 34
  | .h => some 35
  | .i => some 23
  | .j => some 36
  | .k => some 37
  | .l => some 38
  | .m => some 50
  | .n => some 49
  | .o => some 24
  | .p => some 25
  | .q => some 16
  | .r => some 19
  | .s => some 31
  | .t => some 20
  | .u => some 22
  | .v => some 47
  | .w => some 17
  | .x => some 45
  | .y => some 21
  | .z => some 44

def REL_X : UInt16 := 0

def REL_Y : UInt16 := 1

def REL_HWHEEL : UInt16 := 6

def REL_WHEEL : UInt16 := 8

def INPUT_BACKEND_ERROR_DEVICE : Int := -5

namespace Uinput

/-! ## Writing -/

/-- `emit_event`. -/
def emitEvent (event : InputEvent) : UinputM Int :=
  fun uinput =>
    let fails := uinput.fails uinput.attempts.length
    (.ok (if fails then -1 else 0),
      { uinput with
        attempts := { event, written := !fails } :: uinput.attempts })

/-- Calls of `emit_event` one after another.  The first failure is the end. -/
def emitEvents : List InputEvent → UinputM Int
  | [] => return INPUT_BACKEND_OK
  | event :: rest => do
      let result ← emitEvent event
      if result < 0 then
        return INPUT_BACKEND_ERROR_DEVICE
      else
        emitEvents rest

/-- `input_linux_mouse_move`. -/
def mouseMove (dx dy : Int) : UinputM Int :=
  emitEvents <|
    (if dx ≠ 0 then [.rel REL_X dx] else []) ++
      (if dy ≠ 0 then [.rel REL_Y dy] else []) ++ [.syn]

/-- `input_linux_mouse_press`. -/
def mousePress (button : CButton) : UinputM Int :=
  emitEvents [.key (buttonToLinuxCode button) true, .syn]

/-- `input_linux_mouse_release`. -/
def mouseRelease (button : CButton) : UinputM Int :=
  emitEvents [.key (buttonToLinuxCode button) false, .syn]

/-- `input_linux_mouse_click`. -/
def mouseClick (button : CButton) : UinputM Int := do
  let result ← mousePress button
  if result ≠ INPUT_BACKEND_OK then
    return result
  else
    mouseRelease button

/-- `input_linux_mouse_scroll`. -/
def mouseScroll (direction : ScrollDirection) (amount : Int) : UinputM Int :=
  if amount ≤ 0 then
    return INPUT_BACKEND_ERROR_INVALID_PARAM
  else
    match direction with
    | .up => emitEvents [.rel REL_WHEEL amount, .syn]
    | .down => emitEvents [.rel REL_WHEEL (-amount), .syn]
    | .left => emitEvents [.rel REL_HWHEEL (-amount), .syn]
    | .right => emitEvents [.rel REL_HWHEEL amount, .syn]

/-- The events of a key action. -/
def keyEvents (code : UInt16) : CDirection → List InputEvent
  | .press => [.key code true, .syn]
  | .release => [.key code false, .syn]
  | .click => [.key code true, .syn, .key code false, .syn]

/-- `input_linux_key_action`. -/
def keyAction (key : CKey) (direction : CDirection) : UinputM Int :=
  match ckeyToLinuxKeycode key with
  | none => return INPUT_BACKEND_ERROR_INVALID_PARAM
  | some code => emitEvents (keyEvents code direction)

/-- `input_linux_key_action_raw`. -/
def keyActionRaw (evdevKey : Int) (direction : CDirection) : UinputM Int :=
  emitEvents (keyEvents (.ofInt evdevKey) direction)

/-! ## The backend of the server -/

/-- What an operation does to the device.  Those that are none of the backend
do nothing. -/
def perform : DeviceCall → UinputM Int
  | .mouseMove dx dy => mouseMove dx dy
  | .mousePress button => mousePress button
  | .mouseRelease button => mouseRelease button
  | .mouseClick button => mouseClick button
  | .mouseScroll direction amount => mouseScroll direction amount
  | .keyAction key direction => keyAction key direction
  | .keyActionRaw evdevKey direction => keyActionRaw evdevKey direction
  | _ => return INPUT_BACKEND_OK

/-- The device behind some operations, the latest first. -/
def afterCalls (fails : Nat → Bool) : List DeviceCall → Uinput
  | [] => { fails, attempts := [] }
  | call :: earlier => (perform call (afterCalls fails earlier)).2

/-- The status that an operation returns. -/
def status (call : DeviceCall) (uinput : Uinput) : Int :=
  match (perform call uinput).1 with
  | .ok result => result
  | .error impossible => nomatch impossible

/-- The status of the latest of some operations. -/
def latestStatus (fails : Nat → Bool) : List DeviceCall → Int
  | [] => INPUT_BACKEND_OK
  | call :: earlier => status call (afterCalls fails earlier)

/-- The machine with the uinput device. -/
def platform (fails : Nat → Bool) (base : Platform) : Platform :=
  { base with backendStatus := latestStatus fails }

/-! ## Outcomes -/

theorem emitEvents_cons (event : InputEvent) (rest : List InputEvent)
    (uinput : Uinput) :
    emitEvents (event :: rest) uinput =
      if uinput.fails uinput.attempts.length then
        (.ok INPUT_BACKEND_ERROR_DEVICE,
          { uinput with
            attempts := { event, written := false } :: uinput.attempts })
      else
        emitEvents rest
          { uinput with
            attempts := { event, written := true } :: uinput.attempts } := by
  simp only [emitEvents, emitEvent, bind_apply]
  cases uinput.fails uinput.attempts.length <;> rfl

theorem emitEvents_append (events rest : List InputEvent) :
    (emitEvents events >>= fun result =>
      if result ≠ INPUT_BACKEND_OK then return result else emitEvents rest) =
      emitEvents (events ++ rest) := by
  induction events with
  | nil => rfl
  | cons event events inductionHypothesis =>
      funext uinput
      rw [bind_apply, List.cons_append, emitEvents_cons, emitEvents_cons]
      by_cases fails : uinput.fails uinput.attempts.length = true
      · simp only [if_pos fails]
        rfl
      · simp only [if_neg fails]
        rw [← inductionHypothesis, bind_apply]

/-- A click is a press, and a release if the press succeeds. -/
theorem mouseClick_eq (button : CButton) :
    mouseClick button =
      emitEvents (keyEvents (buttonToLinuxCode button) .click) :=
  emitEvents_append _ _

end Uinput

end MouseHero
