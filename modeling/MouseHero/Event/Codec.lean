import MouseHero.Event.Types
import MouseHero.Mpack.Reader
import MouseHero.Mpack.Writer

/-!
# The event codec

The functions of `ya_event.c`.  A serializer returns its status and the bytes
it has written, a parser its status and the parameters it delivers; both
dispatch on the type alone.  Allocations succeed.
-/

namespace MouseHero

open FaultM BigEndian

variable {F : Type} [CFloat F]

/-! ## Serializers -/

/-- `serializer_fn`. -/
abbrev SerializerFn (F : Type) :=
  Option (YAParam F) → Except Fault (Int × List UInt8)

/-- `mpack_write_str(writer, text, strlen(text))`. -/
def writeCString : CString → Except Fault (List UInt8)
  | none => .error .nullDereference
  | some bytes =>
      .ok (mpackWriteStr bytes (UInt32.ofNat (cString bytes).length))

def serializeCommonRequest : SerializerFn F
  | some (.common request) =>
      .ok (0, mpackStartArray 2 ++ mpackWriteI32 request.lparam ++
        mpackWriteI32 request.rparam)
  | some _ => .error .paramType
  | none => .error .nullDereference

def serializeKeyboardRequest : SerializerFn F
  | some (.keyboard request) =>
      .ok (0, mpackStartArray 3 ++ mpackWriteI32 request.code ++
        mpackWriteI32 request.op ++ mpackWriteU32 request.mods)
  | some _ => .error .paramType
  | none => .error .nullDereference

def serializeTextInputRequest : SerializerFn F
  | some (.textInput request) => do
      let text ← writeCString request.text
      pure (0, text)
  | some _ => .error .paramType
  | none => .error .nullDereference

def serializeTextGetResponse : SerializerFn F
  | some (.inputGet response) => do
      let text ← writeCString response.text
      pure (0, text)
  | some _ => .error .paramType
  | none => .error .nullDereference

def serializeAuthorizeResponse : SerializerFn F
  | some (.authorizeResponse response) => do
      let macs ← writeCString (some (response.macs.getD []))
      let fields :=
        mpackWriteBool response.success ++ mpackWriteU32 response.osType ++
          mpackWriteU32 response.uid ++
          mpackWriteU32 response.sessionPort.toUInt32 ++
          mpackWriteU32 response.commandPort.toUInt32 ++ macs ++
          mpackWriteFloat response.displayScale
      if response.clientVersion ≥ 2 then
        pure (0, mpackStartArray 8 ++ fields ++
          mpackWriteU32 YA_PROTOCOL_VERSION)
      else
        -- the response format of version 1 clients
        pure (0, mpackStartArray 7 ++ fields)
  | some _ => .error .paramType
  | none => .error .nullDereference

def serializeDiscoverResponse : SerializerFn F
  | some (.discoverResponse response) =>
      .ok (0, mpackStartArray 2 ++ mpackWriteU32 DISCOVERY_MAGIC ++
        mpackWriteU32 response.port.toUInt32)
  | some _ => .error .paramType
  | none => .error .nullDereference

/-- `get_serializer`. -/
def getSerializer (type _direction : UInt32) : Option (SerializerFn F) :=
  match YAEventType.ofCode? type with
  | some .mouseMove | some .mouseClick | some .mouseWheel | some .control =>
      some serializeCommonRequest
  | some .keyboard => some serializeKeyboardRequest
  | some .textInput => some serializeTextInputRequest
  | some .textGet => some serializeTextGetResponse
  | some .authorize => some serializeAuthorizeResponse
  | some .discover => some serializeDiscoverResponse
  | some .heartbeat | some .mouseStop | some .sessionOption | none => none

/-- The header that `ya_serialize_event` writes. -/
def serializeEventHeader (header : YAEventHeader) : List UInt8 :=
  mpackStartArray 4 ++ mpackWriteU32 header.uid ++ mpackWriteU32 header.type ++
    mpackWriteU32 header.direction ++ mpackWriteU32 header.index

/-- The returned length of `ya_serialize_event` and the buffer at `*out`. -/
structure SerializedEvent where
  length : Int
  out : Option (List UInt8)
  deriving DecidableEq, Repr

/-- The payload that `ya_serialize_event` writes first. -/
def serializeBody (event : YAEvent F) : Except Fault (Int × List UInt8) :=
  match getSerializer event.header.type event.header.direction with
  | some serialize => serialize event.param
  | none => .ok (0, [])

/-- The combined buffer: total size, header size, header and body. -/
def frameBytes (header body : List UInt8) : List UInt8 :=
  toBytes 4 (header.length + body.length + 4) ++ toBytes 4 header.length ++
    header ++ body

/-- `ya_serialize_event`. -/
def yaSerializeEvent (event : YAEvent F) : Except Fault SerializedEvent := do
  let (status, body) ← serializeBody event
  if status < 0 then
    return { length := -1, out := none }
  let header := serializeEventHeader event.header
  let total := header.length + body.length + 4
  let totalWithSize := (Int32.ofNat (total + 4)).toInt
  if totalWithSize < 0 then
    -- no allocation of that many bytes, and `memset` on the null pointer
    .error .nullDereference
  else if totalWithSize < total + 4 then
    .error .outOfBoundsWrite
  else
    return { length := totalWithSize, out := some (frameBytes header body) }

/-! ## Parsers -/

/-- The status of a parser and its output parameters. -/
structure ParserResult (F : Type) where
  status : Int
  outParam : Option (YAParam F)
  outLen : Nat
  deriving DecidableEq, Repr

/-- `parser_fn`. -/
abbrev ParserFn (F : Type) :=
  List UInt8 → Nat → Except Fault (ParserResult F)

/-- The frame shared by the parsers: read the parameters and deliver them.
The error of the reader is not consulted. -/
def deliver (read : ReaderM (YAParam F)) : ParserFn F := fun data len =>
  match (read (mpackReaderInitData data len)).1 with
  | .ok param =>
      .ok { status := 0, outParam := some param, outLen := param.size }
  | .error fault => .error fault

/-- The text of a string: `malloc(str_len + 1)` with a 32-bit sum, the bytes
and a NUL behind them. -/
def readText : ReaderM CString := do
  let strLen ← mpackExpectStr
  let allocated := (strLen + 1) % 2 ^ 32
  if allocated < strLen + 1 then
    fault .outOfBoundsWrite
  else
    let text ← mpackReadBytes strLen
    pure (some text)

def parseCommonRequest : ParserFn F := deliver do
  let _ ← mpackExpectArray
  let lparam ← mpackExpectI32
  let rparam ← mpackExpectI32
  pure (.common { lparam, rparam })

def parseKeyboardRequest : ParserFn F := deliver do
  let _ ← mpackExpectArray
  let code ← mpackExpectI32
  let op ← mpackExpectI32
  let mods ← mpackExpectU32
  pure (.keyboard { code, op, mods })

def parseTextInputRequest : ParserFn F := deliver do
  let text ← readText
  pure (.textInput { text })

def parseTextGetResponse : ParserFn F := deliver do
  let text ← readText
  pure (.inputGet { text })

def parseAuthorizeRequest : ParserFn F := deliver do
  let _ ← mpackExpectArray
  let type ← mpackExpectU32
  let version ← mpackExpectU32
  pure (.authorizeRequest { type, version })

def parseSessionOptionRequest : ParserFn F := deliver do
  let _ ← mpackExpectArray
  let reader ← getState
  let pointerScale ←
    if reader.error = .ok then
      mpackExpectFloat
    else
      pure (CFloat.constant 0)
  pure (.sessionOption { pointerScale })

def parseDiscoverRequest : ParserFn F := deliver do
  let magic ← mpackExpectU32
  pure (.discoverRequest { magic })

/-- `get_parser`. -/
def getParser (type _direction : UInt32) : Option (ParserFn F) :=
  match YAEventType.ofCode? type with
  | some .mouseMove | some .mouseClick | some .mouseWheel | some .control =>
      some parseCommonRequest
  | some .keyboard => some parseKeyboardRequest
  | some .textInput => some parseTextInputRequest
  | some .textGet => some parseTextGetResponse
  | some .authorize => some parseAuthorizeRequest
  | some .sessionOption => some parseSessionOptionRequest
  | some .discover => some parseDiscoverRequest
  | some .heartbeat | some .mouseStop | none => none

/-- The cast of an `int32_t` to `uint8_t`, kept in an enumeration. -/
def byteOfInt32 (value : Int32) : UInt32 :=
  value.toUInt32.toUInt8.toUInt32

/-- The elements of the header array. -/
def readEventHeader : ReaderM YAEventHeader := do
  let count ← mpackExpectArray
  if count ≠ 4 then
    mpackReaderFlagError .type
  let uid ← mpackExpectI32
  let type ← mpackExpectI32
  let direction ← mpackExpectI32
  let index ← mpackExpectI32
  pure {
    type := byteOfInt32 type
    direction := byteOfInt32 direction
    index := index.toUInt32
    uid := uid.toUInt32
  }

/-- `ya_parse_event_header`: the header, or nothing for the status -1. -/
def yaParseEventHeader (buf : List UInt8) (length : UInt32) :
    Except Fault (Option YAEventHeader) :=
  if buf.length < length.toNat then
    .ok none
  else
    match evbufferPullup buf length.toNat with
    | none => .ok none
    | some data =>
        match readEventHeader (mpackReaderInitData data length.toNat) with
        | (.error fault, _) => .error fault
        | (.ok header, reader) =>
            if reader.error ≠ .ok then .ok none else .ok (some header)

/-- The status of `ya_parse_event`, the buffer it leaves and the event it has
filled in. -/
structure ParsedEvent (F : Type) where
  status : Int
  buf : List UInt8
  event : YAEvent F
  deriving DecidableEq, Repr

/-- The value of `int content_len = size->bodySize`. -/
def contentLen (size : YAPackageSize) : Int :=
  size.bodySize.toInt32.toInt

/-- Where `ya_parse_event` is when it has dealt with the header: refused with
the status -1, done because the body is empty, or in front of the call of a
body parser on `payload`. -/
inductive BodyStage where
  | refused (buf : List UInt8)
  | noBody (header : YAEventHeader) (buf : List UInt8)
  | body (header : YAEventHeader) (payload buf : List UInt8)
  deriving DecidableEq, Repr

/-- `ya_parse_event` up to the choice of the body parser. -/
def bodyStage (buf : List UInt8) (size : YAPackageSize) :
    Except Fault BodyStage := do
  match ← yaParseEventHeader buf size.headerSize with
  | none => return .refused buf
  | some header =>
      let buf := evbufferDrain buf size.headerSize.toNat
      if contentLen size = 0 then
        return .noBody header buf
      else
        match evbufferPullup buf (contentLen size) with
        | none => return .refused buf
        | some payload => return .body header payload buf

/-- The call of the body parser; without one the event has no parameters. -/
def callParser (header : YAEventHeader) (payload : List UInt8)
    (len : Nat) : Except Fault (ParserResult F) :=
  match getParser header.type header.direction with
  | some parse => parse payload len
  | none => .ok { status := 0, outParam := none, outLen := 0 }

/-- `ya_parse_event`. -/
def yaParseEvent (buf : List UInt8) (event : YAEvent F)
    (size : YAPackageSize) : Except Fault (ParsedEvent F) := do
  match ← bodyStage buf size with
  | .refused buf => return { status := -1, buf, event }
  | .noBody header buf =>
      return { status := 0, buf, event := { event with header } }
  | .body header payload buf =>
      let result : ParserResult F ←
        callParser header payload (sizeOfInt (contentLen size))
      if result.status < 0 then
        return { status := -1, buf, event }
      else
        return {
          status := 0
          buf := evbufferDrain buf (sizeOfInt (contentLen size))
          event :=
            { header, param := result.outParam, paramLen := result.outLen }
        }

/-! ## Sizes -/

/-- The sizes in front of a buffer. -/
def packageSize (buffer : List UInt8) : YAPackageSize :=
  let totalSize := wordAt buffer 0
  let headerSize := wordAt buffer 4
  { totalSize, headerSize, bodySize := totalSize - headerSize - 4 }

/-- `ya_get_package_size`. -/
def yaGetPackageSize (buffer : List UInt8) : Except Fault YAPackageSize := do
  let totalSize ← toUint32 buffer 0
  let headerSize ← toUint32 buffer 4
  return { totalSize, headerSize, bodySize := totalSize - headerSize - 4 }

theorem yaGetPackageSize_of_short {buffer : List UInt8} (short : buffer.length < 4) :
    yaGetPackageSize buffer = .error .nullDereference := by
  simp only [yaGetPackageSize, toUint32, if_pos short, Nat.not_lt_zero, if_false]
  rfl

theorem yaGetPackageSize_of_word {buffer : List UInt8} (word : 4 ≤ buffer.length) :
    yaGetPackageSize buffer = .ok (packageSize buffer) := by
  simp only [yaGetPackageSize, toUint32, if_neg (Nat.not_lt.mpr word), Nat.not_lt_zero,
    if_false]
  rfl

theorem yaGetPackageSize_eq_ok {buffer : List UInt8} {size : YAPackageSize}
    (returned : yaGetPackageSize buffer = .ok size) :
    4 ≤ buffer.length ∧ size = packageSize buffer := by
  by_cases short : buffer.length < 4
  · rw [yaGetPackageSize_of_short short] at returned
    cases returned
  · have word := Nat.not_lt.mp short
    rw [yaGetPackageSize_of_word word] at returned
    cases returned
    exact ⟨word, rfl⟩

end MouseHero
