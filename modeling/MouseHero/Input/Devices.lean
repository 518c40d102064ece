import MouseHero.Event.Types

/-!
# Devices

The operations through which the server acts on the machine: the uinput
backend, the input and clipboard functions of the Rust library, the power
scripts and `system`.  Every operation is recorded, and its outcome is any
function of what has been recorded so far.
-/

namespace MouseHero

open FaultM

/-- `YAError`. -/
inductive YAError where
  | success
  | platformError
  | clipboardError
  | invalidInput
  | unsupportedOperation
  | notFound
  deriving DecidableEq, Repr

/-- The mouse buttons of `CButton` that the backend supports. -/
inductive CButton where
  | left
  | middle
  | right
  deriving DecidableEq, Repr

/-- `CDirection`. -/
inductive CDirection where
  | press
  | release
  | click
  deriving DecidableEq, Repr

/-- `scroll_direction_t`. -/
inductive ScrollDirection where
  | up
  | down
  | left
  | right
  deriving DecidableEq, Repr

/-- The keys of `CKey` that `ckey_to_linux_keycode` has a code for, and `Function`,
which it has none for.  `f 0` is F1. -/
inductive CKey where
  | function | shift | control | alt | metaKey | apps
  | lShift | rShift | lControl | rControl | lMenu | rMenu
  | lWin | command | rWin | rCommand | rOption | optionKey
  | backspace | tab | returnKey | escape | insert | delete | space
  | home | endKey | pageUp | pageDown
  | leftArrow | upArrow | rightArrow | downArrow
  | capsLock | numlock | scrollLock | scroll | printScr | pause | breakKey
  | f (index : Fin 24)
  | num (digit : Fin 10)
  | numpad (digit : Fin 10)
  | multiply | add | separator | subtract | decimal | divide
  | oemMinus | oemPlus | oem4 | oem6 | oem5 | oem1 | oem7 | oemComma | oemPeriod
  | oem2 | oem3
  | power | sleep
  | browserBack | browserForward | browserRefresh | browserStop
  | browserSearch | browserFavorites | browserHome
  | mediaNextTrack | mediaPrevTrack | mediaStop | mediaPlayPause
  | mediaFast | mediaRewind
  | volumeMute | volumeDown | volumeUp | micMute
  | launchMail | launchMediaSelect | launchApp1 | launchApp2
  | brightnessUp | brightnessDown
  | help | undo | redo | find | select | execute | eject | zoom
  | kana | hangeul | hangul | hanja | kanji | convert | nonConvert
  | a | b | c | d | e | letterF | g | h | i | j | k | l | m
  | n | o | p | q | r | s | t | u | v | w | x | y | z
  deriving DecidableEq, Repr

/-- An operation on the machine. -/
inductive DeviceCall where
  | mouseMove (dx dy : Int)
  | mousePress (button : CButton)
  | mouseRelease (button : CButton)
  | mouseClick (button : CButton)
  | mouseScroll (direction : ScrollDirection) (amount : Int)
  | keyAction (key : CKey) (direction : CDirection)
  | keyActionRaw (evdevKey : Int) (direction : CDirection)
  | keyActionWithCode (code : UInt8) (direction : CDirection)
  | mouseButton (button : CButton) (direction : CDirection)
  | clipboardGet
  | clipboardSet (text : List UInt8)
  | runPowerScript (name : String)
  | system (command : String)
  deriving DecidableEq, Repr

/-- How the machine answers an operation, given all the operations so far, the
latest first.  The keymap of `xkb_mapper.c` is fixed when the server starts. -/
structure Platform where
  backendStatus : List DeviceCall → Int
  serviceStatus : List DeviceCall → YAError
  exitStatus : List DeviceCall → Int
  clipboardText : List DeviceCall → CString
  xkbKeymap : List UInt8 → Option (Int × UInt32)

/-- `clipboard_fallback_config_t`. -/
structure ClipboardFallbackConfig where
  enabled : Bool
  useCtrlV : Bool
  deriving DecidableEq, Repr

/-- The machine, with the operations performed on it, the latest first. -/
structure Devices where
  platform : Platform
  clipboardConfig : ClipboardFallbackConfig
  trace : List DeviceCall

/-- Computations on the devices.  They have no faults. -/
abbrev DeviceM := FaultM PEmpty Devices

/-- Perform an operation. -/
def operate {Answer : Type} (call : DeviceCall)
    (answer : Platform → List DeviceCall → Answer) : DeviceM Answer :=
  fun devices =>
    (.ok (answer devices.platform (call :: devices.trace)),
      { devices with trace := call :: devices.trace })

/-! ## The uinput backend -/

def INPUT_BACKEND_OK : Int := 0

def INPUT_BACKEND_ERROR_INVALID_PARAM : Int := -4

def inputLinuxMouseMove (dx dy : Int) : DeviceM Int :=
  operate (.mouseMove dx dy) Platform.backendStatus

def inputLinuxMousePress (button : CButton) : DeviceM Int :=
  operate (.mousePress button) Platform.backendStatus

def inputLinuxMouseRelease (button : CButton) : DeviceM Int :=
  operate (.mouseRelease button) Platform.backendStatus

def inputLinuxMouseClick (button : CButton) : DeviceM Int :=
  operate (.mouseClick button) Platform.backendStatus

def inputLinuxMouseScroll (direction : ScrollDirection) (amount : Int) :
    DeviceM Int :=
  operate (.mouseScroll direction amount) Platform.backendStatus

def inputLinuxKeyAction (key : CKey) (direction : CDirection) : DeviceM Int :=
  operate (.keyAction key direction) Platform.backendStatus

def inputLinuxKeyActionRaw (evdevKey : Int) (direction : CDirection) :
    DeviceM Int :=
  operate (.keyActionRaw evdevKey direction) Platform.backendStatus

/-! ## The Rust library and the system -/

def keyActionWithCode (code : UInt8) (direction : CDirection) :
    DeviceM YAError :=
  operate (.keyActionWithCode code direction) Platform.serviceStatus

def mouseButton (button : CButton) (direction : CDirection) :
    DeviceM YAError :=
  operate (.mouseButton button direction) Platform.serviceStatus

def clipboardGet : DeviceM CString :=
  operate .clipboardGet Platform.clipboardText

def clipboardSet (text : List UInt8) : DeviceM YAError :=
  operate (.clipboardSet text) Platform.serviceStatus

/-- `ya_run_power_script`. -/
def yaRunPowerScript (scriptBasename : String) : DeviceM Int :=
  operate (.runPowerScript scriptBasename) Platform.exitStatus

def system (command : String) : DeviceM Int :=
  operate (.system command) Platform.exitStatus

/-! ## What a computation does to the trace -/

/-- Operations are only added, and the machine stays the same. -/
def Devices.Extends (before after : Devices) : Prop :=
  before.trace <:+ after.trace

/-- At least one operation is added. -/
def Devices.Grows (before after : Devices) : Prop :=
  ∃ call, call :: before.trace <:+ after.trace

theorem Devices.extends_refl (devices : Devices) : devices.Extends devices :=
  List.suffix_rfl

theorem Devices.extends_trans (first middle last : Devices)
    (initial : first.Extends middle) (later : middle.Extends last) :
    first.Extends last :=
  List.IsSuffix.trans initial later

theorem Devices.grows_extends (first middle last : Devices)
    (initial : first.Grows middle) (later : middle.Extends last) :
    first.Grows last := by
  obtain ⟨call, grows⟩ := initial
  exact ⟨call, grows.trans later⟩

theorem Devices.Grows.extends {before after : Devices}
    (grows : before.Grows after) : before.Extends after := by
  obtain ⟨call, longer⟩ := grows
  exact (List.suffix_cons call before.trace).trans longer

theorem Devices.Grows.trace_ne {before after : Devices}
    (grows : before.Grows after) : after.trace ≠ before.trace := by
  obtain ⟨call, longer⟩ := grows
  intro same
  have := longer.length_le
  rw [same, List.length_cons] at this
  omega

section Operations

variable {Answer Next : Type}

theorem operate_grows (call : DeviceCall)
    (answer : Platform → List DeviceCall → Answer) :
    Respects Devices.Grows (operate call answer) :=
  fun _ => ⟨call, List.suffix_rfl⟩

theorem operate_extends (call : DeviceCall)
    (answer : Platform → List DeviceCall → Answer) :
    Respects Devices.Extends (operate call answer) :=
  fun devices => (operate_grows call answer devices).extends

theorem pure_extends (value : Answer) :
    Respects Devices.Extends (pure value : DeviceM Answer) :=
  respects_pure Devices.extends_refl value

theorem bind_extends {first : DeviceM Answer} {next : Answer → DeviceM Next}
    (firstExtends : Respects Devices.Extends first)
    (nextExtends : ∀ value, Respects Devices.Extends (next value)) :
    Respects Devices.Extends (first >>= next) :=
  respects_bind Devices.extends_trans firstExtends nextExtends

/-- A computation that begins with an operation leaves a trace. -/
theorem bind_grows {first : DeviceM Answer} {next : Answer → DeviceM Next}
    (firstGrows : Respects Devices.Grows first)
    (nextExtends : ∀ value, Respects Devices.Extends (next value)) :
    Respects Devices.Grows (first >>= next) :=
  respects_andThen (fun _ _ grows => grows) Devices.grows_extends firstGrows
    nextExtends

end Operations

end MouseHero
