import MouseHero.Buffer
import MouseHero.Library.CFloat
import Mathlib.Data.List.TakeWhile

/-!
# Events

The header and the parameter structures of `ya_event.h`.  An event's `param`
pointer is untyped in the source; here it points to one of the parameter
structures, and reading it as another one is a fault.  `F` is the carrier of
the `float` fields.
-/

namespace MouseHero

/-- `YAEventType`. -/
inductive YAEventType where
  | mouseMove
  | mouseClick
  | mouseWheel
  | keyboard
  | textInput
  | textGet
  | discover
  | mouseStop
  | control
  | authorize
  | heartbeat
  | sessionOption
  deriving DecidableEq, Repr

namespace YAEventType

/-- The value of the enumeration constant. -/
def code : YAEventType → UInt32
  | mouseMove => 0x1
  | mouseClick => 0x2
  | mouseWheel => 0x3
  | keyboard => 0x4
  | textInput => 0x5
  | textGet => 0x6
  | discover => 0x7
  | mouseStop => 0x8
  | control => 0x9
  | authorize => 0xA
  | heartbeat => 0xB
  | sessionOption => 0xC

/-- Every type, in the order of the codes. -/
def all : List YAEventType :=
  [mouseMove, mouseClick, mouseWheel, keyboard, textInput, textGet, discover,
    mouseStop, control, authorize, heartbeat, sessionOption]

/-- The constant with the given value.  A header can hold other values. -/
def ofCode? (code : UInt32) : Option YAEventType :=
  all.find? fun type => type.code == code

@[simp]
theorem ofCode?_code (type : YAEventType) : ofCode? type.code = some type := by
  cases type <;> rfl

theorem ofCode?_eq_some {code : UInt32} {type : YAEventType} :
    ofCode? code = some type ↔ code = type.code := by
  constructor
  · intro found
    have matching := List.find?_some found
    exact (beq_iff_eq.mp matching).symm
  · rintro rfl
    exact ofCode?_code type

theorem code_lt (type : YAEventType) : type.code.toNat < 128 := by
  cases type <;> decide

end YAEventType

/-- `REQUEST` of `YAEventDirection`. -/
def REQUEST : UInt32 := 0x1

/-- `RESPONSE` of `YAEventDirection`. -/
def RESPONSE : UInt32 := 0x2

def DISCOVERY_MAGIC : UInt32 := 0x4B424D43

def YA_PROTOCOL_VERSION : UInt32 := 3

/-- `YAEventHeader`.  Type and direction hold whatever value they were read
or built with. -/
structure YAEventHeader where
  type : UInt32
  direction : UInt32
  index : UInt32
  uid : UInt32
  deriving DecidableEq, Repr

structure YACommonEventRequest where
  lparam : Int32
  rparam : Int32
  deriving DecidableEq, Repr

structure YAKeyboardEventRequest where
  code : Int32
  op : Int32
  mods : UInt32
  deriving DecidableEq, Repr

/-- A `char *`: null, or the allocated bytes in front of the final NUL. -/
abbrev CString := Option (List UInt8)

structure YATextInputEventRequest where
  text : CString
  deriving DecidableEq, Repr

structure YAInputGetEventResponse where
  text : CString
  deriving DecidableEq, Repr

structure YAAuthorizeEventRequest where
  type : UInt32
  version : UInt32
  deriving DecidableEq, Repr

structure YAAuthorizeEventResponse (F : Type) where
  success : Bool
  osType : UInt32
  uid : UInt32
  sessionPort : UInt16
  commandPort : UInt16
  macs : CString
  displayScale : F
  clientVersion : UInt32
  deriving DecidableEq, Repr

structure YASessionOptionEventRequest (F : Type) where
  pointerScale : F
  deriving DecidableEq, Repr

structure YADiscoverEventRequest where
  magic : UInt32
  deriving DecidableEq, Repr

structure YADiscoverEventResponse where
  magic : UInt32
  port : UInt16
  deriving DecidableEq, Repr

/-- What a non-null `param` points to. -/
inductive YAParam (F : Type) where
  | common (request : YACommonEventRequest)
  | keyboard (request : YAKeyboardEventRequest)
  | textInput (request : YATextInputEventRequest)
  | inputGet (response : YAInputGetEventResponse)
  | authorizeRequest (request : YAAuthorizeEventRequest)
  | authorizeResponse (response : YAAuthorizeEventResponse F)
  | sessionOption (request : YASessionOptionEventRequest F)
  | discoverRequest (request : YADiscoverEventRequest)
  | discoverResponse (response : YADiscoverEventResponse)
  deriving DecidableEq, Repr

/-- `sizeof` of the structure, for 64-bit pointers. -/
def YAParam.size {F : Type} : YAParam F → Nat
  | common _ => 8
  | keyboard _ => 12
  | textInput _ => 8
  | inputGet _ => 8
  | authorizeRequest _ => 8
  | authorizeResponse _ => 32
  | sessionOption _ => 4
  | discoverRequest _ => 4
  | discoverResponse _ => 8

/-- `YAEvent`. -/
structure YAEvent (F : Type) where
  header : YAEventHeader
  param : Option (YAParam F)
  paramLen : Nat
  deriving DecidableEq, Repr

/-- `YAEvent event = {0}`. -/
def YAEvent.zero {F : Type} : YAEvent F where
  header := { type := 0, direction := 0, index := 0, uid := 0 }
  param := none
  paramLen := 0

/-- `YAPackageSize`. -/
structure YAPackageSize where
  totalSize : UInt32
  headerSize : UInt32
  bodySize : UInt32
  deriving DecidableEq, Repr

/-- The bytes `strlen` counts. -/
def cString (bytes : List UInt8) : List UInt8 :=
  bytes.takeWhile (· ≠ 0)

theorem cString_of_no_nul {bytes : List UInt8}
    (noNul : 0 ∉ bytes) : cString bytes = bytes := by
  apply List.takeWhile_eq_self_iff.mpr
  intro byte member
  have nonzero : byte ≠ 0 := fun zero => noNul (zero ▸ member)
  simpa using nonzero

end MouseHero
