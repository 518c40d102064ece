import MouseHero.Buffer
import MouseHero.Library.CFloat

/-!
# The MessagePack reader

The functions of the vendored `mpack` library that decode a message held in
memory: no fill function, no tracking, extension types disabled.  A reader
has a sticky error, and `left` is the distance from its read position to its
end.  The memory behind the read position is `data`, which can be shorter
than `left` when the caller passed a length beyond its buffer; reading past
it is a fault.
-/

namespace MouseHero

open FaultM

/-- `mpack_error_t`, as far as the reader raises it. -/
inductive MpackError where
  | ok
  | invalid
  | unsupported
  | type
  | tooBig
  deriving DecidableEq, Repr

/-- `mpack_reader_t` over data in memory. -/
structure MpackReader where
  data : List UInt8
  left : Nat
  error : MpackError
  deriving DecidableEq, Repr

/-- `mpack_tag_t`: the type of the next element with its value or count. -/
inductive MpackTag where
  | nil
  | bool (value : Bool)
  | int (value : Int)
  | uint (value : Nat)
  | float (bits : Nat)
  | double (bits : Nat)
  | str (length : Nat)
  | bin (length : Nat)
  | array (count : Nat)
  | map (count : Nat)
  deriving DecidableEq, Repr

abbrev ReaderM (Result : Type) :=
  FaultM Fault MpackReader Result

/-- `mpack_reader_init_data`. -/
def mpackReaderInitData (data : List UInt8) (count : Nat) : MpackReader :=
  { data, left := count, error := .ok }

/-- `mpack_reader_flag_error`: the first error stays, and nothing is left to
read after it. -/
def MpackReader.flagError (reader : MpackReader) (error : MpackError) :
    MpackReader :=
  if reader.error = .ok then { reader with error, left := 0 } else reader

def mpackReaderFlagError (error : MpackError) : ReaderM PUnit :=
  modifyState fun reader => reader.flagError error

/-- `mpack_reader_ensure`: without a fill function, truncated data is
invalid. -/
def mpackReaderEnsure (count : Nat) : ReaderM Bool := fun reader =>
  if count ≤ reader.left then
    (.ok true, reader)
  else
    (.ok false, reader.flagError .invalid)

/-- Load `count` bytes from `offset` bytes behind the read position. -/
def loadBytes (offset count : Nat) : ReaderM (List UInt8) := fun reader =>
  if offset + count ≤ reader.data.length then
    (.ok ((reader.data.drop offset).take count), reader)
  else
    (.error .outOfBoundsRead, reader)

/-- Move the read position. -/
def advance (count : Nat) : ReaderM PUnit :=
  modifyState fun reader =>
    { reader with
      data := reader.data.drop count
      left := reader.left - count }

/-- Two's complement value of a loaded word. -/
def signedWord (width value : Nat) : Int :=
  if 2 * value < 256 ^ width then value else value - (256 ^ width : Nat)

/-- What the leading byte of an element says about the rest of its tag. -/
inductive TagLayout where
  | immediate (tag : MpackTag)
  | sized (width : Nat) (make : Nat → MpackTag)
  | unusable (error : MpackError)

/-- The switch of `mpack_parse_tag`. -/
def tagLayout (type : UInt8) : TagLayout :=
  if type.toNat < 0x80 then .immediate (.uint type.toNat)
  else if type.toNat < 0x90 then .immediate (.map (type.toNat % 0x10))
  else if type.toNat < 0xa0 then .immediate (.array (type.toNat % 0x10))
  else if type.toNat < 0xc0 then .immediate (.str (type.toNat % 0x20))
  else if 0xe0 ≤ type.toNat then .immediate (.int (type.toNat - 256))
  else
    match type.toNat with
    | 0xc0 => .immediate .nil
    | 0xc2 => .immediate (.bool false)
    | 0xc3 => .immediate (.bool true)
    | 0xc4 => .sized 1 .bin
    | 0xc5 => .sized 2 .bin
    | 0xc6 => .sized 4 .bin
    | 0xca => .sized 4 .float
    | 0xcb => .sized 8 .double
    | 0xcc => .sized 1 .uint
    | 0xcd => .sized 2 .uint
    | 0xce => .sized 4 .uint
    | 0xcf => .sized 8 .uint
    | 0xd0 => .sized 1 fun value => .int (signedWord 1 value)
    | 0xd1 => .sized 2 fun value => .int (signedWord 2 value)
    | 0xd2 => .sized 4 fun value => .int (signedWord 4 value)
    | 0xd3 => .sized 8 fun value => .int (signedWord 8 value)
    | 0xd9 => .sized 1 .str
    | 0xda => .sized 2 .str
    | 0xdb => .sized 4 .str
    | 0xdc => .sized 2 .array
    | 0xdd => .sized 4 .array
    | 0xde => .sized 2 .map
    | 0xdf => .sized 4 .map
    | 0xc1 => .unusable .invalid
    -- ext8, ext16, ext32 and fixext with MPACK_EXTENSIONS disabled
    | _ => .unusable .unsupported

/-- `mpack_parse_tag`: the next tag and its size, if there is one. -/
def mpackParseTag : ReaderM (Option (MpackTag × Nat)) := do
  if ← mpackReaderEnsure 1 then
    let type ← loadBytes 0 1
    match tagLayout (type.headD 0) with
    | .immediate tag => pure (some (tag, 1))
    | .sized width make =>
        if ← mpackReaderEnsure (width + 1) then
          let bytes ← loadBytes 1 width
          pure (some (make (BigEndian.ofBytes bytes), width + 1))
        else
          pure none
    | .unusable error => do
        mpackReaderFlagError error
        pure none
  else
    pure none

/-- `mpack_read_tag`. -/
def mpackReadTag : ReaderM MpackTag := do
  let reader ← getState
  if reader.error ≠ .ok then
    pure .nil
  else
    match ← mpackParseTag with
    | none => pure .nil
    | some (tag, count) => do
        advance count
        pure tag

/-- Flag a type error and return the value an expect function then returns. -/
def expectFailure {Result : Type} (value : Result) : ReaderM Result := do
  mpackReaderFlagError .type
  pure value

/-- `mpack_expect_u32`. -/
def mpackExpectU32 : ReaderM UInt32 := do
  match ← mpackReadTag with
  | .uint value =>
      if value < 2 ^ 32 then pure (UInt32.ofNat value) else expectFailure 0
  | .int value =>
      if 0 ≤ value ∧ value < 2 ^ 32 then
        pure (UInt32.ofNat value.toNat)
      else
        expectFailure 0
  | _ => expectFailure 0

/-- `mpack_expect_i32`. -/
def mpackExpectI32 : ReaderM Int32 := do
  match ← mpackReadTag with
  | .uint value =>
      if value < 2 ^ 31 then pure (Int32.ofInt value) else expectFailure 0
  | .int value =>
      if -2 ^ 31 ≤ value ∧ value < 2 ^ 31 then
        pure (Int32.ofInt value)
      else
        expectFailure 0
  | _ => expectFailure 0

/-- `mpack_expect_float`. -/
def mpackExpectFloat {F : Type} [CFloat F] : ReaderM F := do
  match ← mpackReadTag with
  | .uint value => pure (CFloat.singleOfInt value)
  | .int value => pure (CFloat.singleOfInt value)
  | .float bits => pure (CFloat.ofSingle bits)
  | .double bits => pure (CFloat.single (CFloat.ofDouble bits))
  | _ => expectFailure (CFloat.constant 0)

/-- `mpack_expect_array`. -/
def mpackExpectArray : ReaderM Nat := do
  match ← mpackReadTag with
  | .array count => pure count
  | _ => expectFailure 0

/-- `mpack_expect_native_u8`, `mpack_expect_native_u16` and
`mpack_expect_native_u32`. -/
def mpackExpectNative (width : Nat) : ReaderM Nat := do
  let reader ← getState
  if reader.error ≠ .ok then
    pure 0
  else if ← mpackReaderEnsure width then
    let bytes ← loadBytes 0 width
    advance width
    pure (BigEndian.ofBytes bytes)
  else
    pure 0

/-- `mpack_expect_str`. -/
def mpackExpectStr : ReaderM Nat := do
  let type ← mpackExpectNative 1
  if type / 0x20 = 5 then pure (type % 0x20)
  else if type = 0xd9 then mpackExpectNative 1
  else if type = 0xda then mpackExpectNative 2
  else if type = 0xdb then mpackExpectNative 4
  else expectFailure 0

/-- `mpack_read_bytes`: the bytes written to the destination, zeros when the
data is truncated or the reader is in an error state. -/
def mpackReadBytes (count : Nat) : ReaderM (List UInt8) := do
  let reader ← getState
  if reader.left < count then
    if reader.error = .ok then
      mpackReaderFlagError .invalid
    pure (List.replicate count 0)
  else
    let bytes ← loadBytes 0 count
    advance count
    pure bytes

/-- `mpack_expect_map`. -/
def mpackExpectMap : ReaderM Nat := do
  match ← mpackReadTag with
  | .map count => pure count
  | _ => expectFailure 0

/-! ## C strings -/

/-- The low bits of a byte. -/
def lowBits (byte : UInt8) (count : Nat) : Nat :=
  byte.toNat % 2 ^ count

def isContinuation (byte : UInt8) : Bool :=
  byte &&& 0xc0 = 0x80

/-- `mpack_utf8_check_impl`. -/
def mpackUtf8CheckImpl (allowNull : Bool) : List UInt8 → Bool
  | [] => true
  | lead :: rest =>
      if ¬ allowNull ∧ lead = 0 then false
      else if lead ≤ 0x7f then mpackUtf8CheckImpl allowNull rest
      else if lead &&& 0xe0 = 0xc0 then
        match rest with
        | cont :: rest =>
            let z := lowBits lead 5 * 2 ^ 6 + lowBits cont 6
            isContinuation cont && 0x80 ≤ z && mpackUtf8CheckImpl allowNull rest
        | [] => false
      else if lead &&& 0xf0 = 0xe0 then
        match rest with
        | cont1 :: cont2 :: rest =>
            let z :=
              lowBits lead 4 * 2 ^ 12 + lowBits cont1 6 * 2 ^ 6 + lowBits cont2 6
            isContinuation cont1 && isContinuation cont2 && 0x800 ≤ z &&
              !(0xd800 ≤ z && z ≤ 0xdfff) && mpackUtf8CheckImpl allowNull rest
        | _ => false
      else if lead &&& 0xf8 = 0xf0 then
        match rest with
        | cont1 :: cont2 :: cont3 :: rest =>
            let z :=
              lowBits lead 3 * 2 ^ 18 + lowBits cont1 6 * 2 ^ 12 +
                lowBits cont2 6 * 2 ^ 6 + lowBits cont3 6
            isContinuation cont1 && isContinuation cont2 &&
              isContinuation cont3 && 0x10000 ≤ z && z ≤ 0x10ffff &&
              mpackUtf8CheckImpl allowNull rest
        | _ => false
      else false

/-- `mpack_utf8_check_no_null`. -/
def mpackUtf8CheckNoNull (str : List UInt8) : Bool :=
  mpackUtf8CheckImpl false str

/-- `mpack_read_cstr_unchecked`: what is written in front of the final NUL. -/
def mpackReadCstrUnchecked (bufferSize byteCount : Nat) :
    ReaderM (List UInt8) := do
  let reader ← getState
  if reader.error ≠ .ok then
    pure []
  else if bufferSize - 1 < byteCount then
    mpackReaderFlagError .tooBig
    pure []
  else
    mpackReadBytes byteCount

/-- `mpack_read_utf8_cstr`: the string in the buffer afterwards. -/
def mpackReadUtf8Cstr (bufferSize byteCount : Nat) :
    ReaderM (List UInt8) := do
  let buf ← mpackReadCstrUnchecked bufferSize byteCount
  let reader ← getState
  if reader.error = .ok ∧ ¬ mpackUtf8CheckNoNull buf then
    mpackReaderFlagError .type
    pure []
  else
    pure (buf.takeWhile (· ≠ 0))

/-- `mpack_expect_utf8_cstr`. -/
def mpackExpectUtf8Cstr (bufferSize : Nat) : ReaderM (List UInt8) := do
  let length ← mpackExpectStr
  mpackReadUtf8Cstr bufferSize length

end MouseHero
