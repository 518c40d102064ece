import MouseHero.Event.Codec
import MouseHero.Mpack.Reads

/-!
# The wire format of events

Headers and bodies as relations between their contents and the byte strings
that denote them.  The parsers of the codec accept every such byte string and
the serializers produce one of them, so that a round trip composes from one
fact about each side.
-/

namespace MouseHero

open FaultM MessagePack BigEndian

variable {F : Type} [CFloat F]

/-! ## Integers of the C types -/

theorem mpackExpectI32_reads {value : Int32} {bytes : List UInt8}
    (encoding : IntEncoding value.toInt bytes) :
    Reads mpackExpectI32 value bytes := by
  have consumed :=
    mpackExpectI32_encoding encoding value.le_toInt value.toInt_lt
  simpa using consumed

theorem mpackExpectU32_reads {value : UInt32} {bytes : List UInt8}
    (encoding : IntEncoding value.toNat bytes) :
    Reads mpackExpectU32 value bytes := by
  have consumed :=
    mpackExpectU32_encoding encoding (by omega)
      (by have := value.toNat_lt; omega)
  simpa using consumed

/-! ## Bodies -/

/-- The types whose parameters are `lparam` and `rparam`. -/
def YAEventType.isCommon : YAEventType → Bool
  | mouseMove | mouseClick | mouseWheel | control => true
  | _ => false

/-- `body` is one MessagePack value of the shape documented for the type, and
`param` holds its contents. -/
inductive BodyEncoding : YAEventType → YAParam F → List UInt8 → Prop
  | common (type : YAEventType) (request : YACommonEventRequest)
      (array lparam rparam : List UInt8) :
      type.isCommon →
      ArrayHeader 2 array →
      IntEncoding request.lparam.toInt lparam →
      IntEncoding request.rparam.toInt rparam →
      BodyEncoding type (.common request) (array ++ (lparam ++ rparam))
  | keyboard (request : YAKeyboardEventRequest)
      (array code op mods : List UInt8) :
      ArrayHeader 3 array →
      IntEncoding request.code.toInt code →
      IntEncoding request.op.toInt op →
      IntEncoding request.mods.toNat mods →
      BodyEncoding .keyboard (.keyboard request)
        (array ++ (code ++ (op ++ mods)))
  | textInput (text body : List UInt8) :
      StringEncoding text body →
      BodyEncoding .textInput (.textInput { text := some text }) body
  | textGet (text body : List UInt8) :
      StringEncoding text body →
      BodyEncoding .textGet (.inputGet { text := some text }) body
  | authorize (request : YAAuthorizeEventRequest)
      (array type version : List UInt8) :
      ArrayHeader 2 array →
      IntEncoding request.type.toNat type →
      IntEncoding request.version.toNat version →
      BodyEncoding .authorize (.authorizeRequest request)
        (array ++ (type ++ version))
  | sessionOption (scale : Number) (array number : List UInt8) :
      ArrayHeader 1 array →
      NumberEncoding scale number →
      BodyEncoding .sessionOption
        (.sessionOption { pointerScale := CFloat.ofNumber scale })
        (array ++ number)
  | discover (request : YADiscoverEventRequest) (magic : List UInt8) :
      IntEncoding request.magic.toNat magic →
      BodyEncoding .discover (.discoverRequest request) magic

omit [CFloat F] in
/-- A parser whose reads accept the front of the data delivers what they
return. -/
theorem deliver_reads {read : ReaderM (YAParam F)} {param : YAParam F}
    {body rest : List UInt8} {len : Nat}
    (reads : Reads read param body) (available : body.length ≤ len) :
    deliver read (body ++ rest) len =
      .ok { status := 0, outParam := some param, outLen := param.size } := by
  rw [deliver, mpackReaderInitData, reads rest len available]

/-- A text that is not the longest one of all is read whole. -/
theorem readText_encoding {text body : List UInt8}
    (encoding : StringEncoding text body) (fits : text.length + 1 < 2 ^ 32) :
    Reads readText (some text) body := by
  obtain ⟨header, announces, rfl⟩ := encoding
  have allocated : (text.length + 1) % 2 ^ 32 = text.length + 1 :=
    Nat.mod_eq_of_lt fits
  refine (mpackExpectStr_header announces).bind ?_
  simp only [allocated, Nat.lt_irrefl, if_false]
  exact (mpackReadBytes_reads text).map

private theorem readText_reads {text body : List UInt8}
    (encoding : StringEncoding text body) (fits : body.length < 2 ^ 32) :
    Reads readText (some text) body := by
  obtain ⟨header, announces, rfl⟩ := encoding
  have lengths : text.length + 1 ≤ (header ++ text).length := by
    cases announces <;> simp
  exact readText_encoding ⟨header, announces, rfl⟩ (by omega)

/-- The parser of a type delivers the contents of every body of its shape,
whatever follows the body. -/
theorem callParser_encoding
    {header : YAEventHeader} {type : YAEventType} {param : YAParam F}
    {body : List UInt8} {len : Nat} (rest : List UInt8)
    (kind : header.type = type.code)
    (encoding : BodyEncoding type param body)
    (fits : body.length < 2 ^ 32) (available : body.length ≤ len) :
    callParser header (body ++ rest) len =
      .ok { status := 0, outParam := some param, outLen := param.size } := by
  rw [callParser, kind]
  cases encoding with
  | common _ request array lparam rparam common arrayHeader first second =>
      have parser :
          getParser (F := F) type.code header.direction =
            some parseCommonRequest := by
        cases type <;> first | rfl | cases common
      rw [parser]
      exact deliver_reads
        ((mpackExpectArray_header arrayHeader).bind <|
          (mpackExpectI32_reads first).bind
            (mpackExpectI32_reads second).map) available
  | keyboard request array code op mods arrayHeader first second third =>
      exact deliver_reads
        ((mpackExpectArray_header arrayHeader).bind <|
          (mpackExpectI32_reads first).bind <|
            (mpackExpectI32_reads second).bind
              (mpackExpectU32_reads third).map) available
  | textInput text body string =>
      exact deliver_reads (readText_reads string fits).map available
  | textGet text body string =>
      exact deliver_reads (readText_reads string fits).map available
  | authorize request array type version arrayHeader first second =>
      exact deliver_reads
        ((mpackExpectArray_header arrayHeader).bind <|
          (mpackExpectU32_reads first).bind
            (mpackExpectU32_reads second).map) available
  | sessionOption scale array number arrayHeader encoding =>
      refine deliver_reads
        ((mpackExpectArray_header arrayHeader).bind <|
          Reads.getState fun reader healthy => ?_) available
      simp only [healthy, if_true]
      exact (mpackExpectFloat_encoding encoding).map
  | discover request magic encoding =>
      exact deliver_reads (mpackExpectU32_reads encoding).map available

/-! ## Headers -/

/-- `bytes` is the array of the header's elements. -/
inductive HeaderEncoding : YAEventHeader → List UInt8 → Prop
  | array (header : YAEventHeader) (array uid type direction index : List UInt8) :
      ArrayHeader 4 array →
      IntEncoding header.uid.toNat uid →
      IntEncoding header.type.toNat type →
      IntEncoding header.direction.toNat direction →
      IntEncoding header.index.toNat index →
      HeaderEncoding header (array ++ (uid ++ (type ++ (direction ++ index))))

/-- Type and direction are the values of a byte. -/
def YAEventHeader.InRange (header : YAEventHeader) : Prop :=
  header.type.toNat < 256 ∧ header.direction.toNat < 256

/-- The header parser reads `uid` and `index` as signed words. -/
def YAEventHeader.IdsRepresentable (header : YAEventHeader) : Prop :=
  header.uid.toNat < 2 ^ 31 ∧ header.index.toNat < 2 ^ 31

theorem mpackExpectI32_unsigned {value : UInt32} {bytes : List UInt8}
    (encoding : IntEncoding value.toNat bytes)
    (representable : value.toNat < 2 ^ 31) :
    Reads mpackExpectI32 value.toInt32 bytes := by
  have consumed :=
    mpackExpectI32_encoding encoding (by omega) (by omega)
  have same : Int32.ofInt value.toNat = value.toInt32 := by
    rw [Int32.ofInt_eq_ofNat, ← UInt32.toInt32_ofNat', UInt32.ofNat_toNat]
  simpa only [same] using consumed

private theorem byteOfInt32_of_lt {value : UInt32} (small : value.toNat < 256) :
    byteOfInt32 value.toInt32 = value := by
  apply UInt32.toNat_inj.mp
  simp [byteOfInt32, Nat.mod_eq_of_lt small]

theorem yaParseEventHeader_append
    {bytes rest : List UInt8} {length : UInt32}
    (nonempty : 0 < bytes.length) (size : length.toNat = bytes.length) :
    yaParseEventHeader (bytes ++ rest) length =
      match readEventHeader ⟨bytes, bytes.length, .ok⟩ with
      | (.error fault, _) => .error fault
      | (.ok header, reader) =>
          if reader.error ≠ .ok then .ok none else .ok (some header) := by
  unfold yaParseEventHeader
  rw [size, if_neg (by simp), evbufferPullup_append nonempty]
  rfl

theorem HeaderEncoding.length_pos
    {header : YAEventHeader} {bytes : List UInt8}
    (encoding : HeaderEncoding header bytes) :
    0 < bytes.length := by
  cases encoding with
  | array array uid type direction index arrayHeader =>
      have leading : 0 < array.length := by cases arrayHeader <;> simp
      simp only [List.length_append]
      omega

/-- The header parser reads back every header whose elements it can
represent. -/
theorem yaParseEventHeader_encoding
    {header : YAEventHeader} {bytes rest : List UInt8} {length : UInt32}
    (encoding : HeaderEncoding header bytes) (range : header.InRange)
    (representable : header.IdsRepresentable)
    (size : length.toNat = bytes.length) :
    yaParseEventHeader (bytes ++ rest) length = .ok (some header) := by
  rw [yaParseEventHeader_append encoding.length_pos size]
  obtain ⟨typeRange, directionRange⟩ := range
  have reads : Reads readEventHeader header bytes := by
    cases encoding with
    | array array uid type direction index arrayHeader uidEncoding
        typeEncoding directionEncoding indexEncoding =>
        refine (mpackExpectArray_header arrayHeader).bind ?_
        simp only [ne_eq, not_true_eq_false, if_false]
        refine (mpackExpectI32_unsigned uidEncoding representable.1).bind ?_
        refine (mpackExpectI32_unsigned typeEncoding (by omega)).bind ?_
        refine
          (mpackExpectI32_unsigned directionEncoding (by omega)).bind ?_
        refine
          (mpackExpectI32_unsigned indexEncoding representable.2).mapTo ?_
        simp [byteOfInt32_of_lt, typeRange, directionRange]
  have consumed := reads [] bytes.length (Nat.le_refl _)
  rw [List.append_nil] at consumed
  rw [consumed]
  simp

/-- An error raised before the last element is the error of the header. -/
theorem readEventHeader_uid_outOfRange
    {header : YAEventHeader} {bytes : List UInt8}
    (encoding : HeaderEncoding header bytes)
    (outside : 2 ^ 31 ≤ header.uid.toNat) :
    ∃ read reader,
      readEventHeader ⟨bytes, bytes.length, .ok⟩ = (.ok read, reader) ∧
        reader.error = .type := by
  cases encoding with
  | array array uid type direction index arrayHeader uidEncoding =>
      simp only [List.length_append]
      rw [readEventHeader,
        bind_of_ok (mpackExpectArray_header arrayHeader _ _ (by omega))]
      simp only [ne_eq, not_true_eq_false, if_false]
      rw [bind_of_ok
        (mpackExpectI32_outOfRange _ uidEncoding (by omega) (by omega)),
        bind_of_ok (mpackExpectI32_error (by simp)),
        bind_of_ok (mpackExpectI32_error (by simp)),
        bind_of_ok (mpackExpectI32_error (by simp))]
      exact ⟨_, _, rfl, rfl⟩

private theorem readEventHeader_index_outOfRange
    {header : YAEventHeader} {bytes : List UInt8}
    (encoding : HeaderEncoding header bytes) (range : header.InRange)
    (uidRepresentable : header.uid.toNat < 2 ^ 31)
    (outside : 2 ^ 31 ≤ header.index.toNat) :
    ∃ read reader,
      readEventHeader ⟨bytes, bytes.length, .ok⟩ = (.ok read, reader) ∧
        reader.error = .type := by
  obtain ⟨typeRange, directionRange⟩ := range
  cases encoding with
  | array array uid type direction index arrayHeader uidEncoding
      typeEncoding directionEncoding indexEncoding =>
      simp only [List.length_append]
      rw [readEventHeader,
        bind_of_ok (mpackExpectArray_header arrayHeader _ _ (by omega))]
      simp only [ne_eq, not_true_eq_false, if_false]
      rw [bind_of_ok
        (mpackExpectI32_unsigned uidEncoding uidRepresentable _ _ (by omega)),
        bind_of_ok
          (mpackExpectI32_unsigned typeEncoding (by omega) _ _ (by omega)),
        bind_of_ok
          (mpackExpectI32_unsigned directionEncoding (by omega) _ _
            (by omega))]
      have last (left : Nat) (available : index.length ≤ left) :
          mpackExpectI32 ⟨index, left, .ok⟩ = (.ok 0, ⟨[], 0, .type⟩) := by
        have refused :=
          mpackExpectI32_outOfRange [] indexEncoding available
            (by omega)
        rwa [List.append_nil] at refused
      rw [bind_of_ok (last _ (by omega))]
      exact ⟨_, _, rfl, rfl⟩

/-- A header with a `uid` or `index` beyond the signed words is refused. -/
theorem yaParseEventHeader_outOfRange
    {header : YAEventHeader} {bytes rest : List UInt8} {length : UInt32}
    (encoding : HeaderEncoding header bytes) (range : header.InRange)
    (outside : ¬ header.IdsRepresentable)
    (size : length.toNat = bytes.length) :
    yaParseEventHeader (bytes ++ rest) length = .ok none := by
  have failed :
      ∃ read reader,
        readEventHeader ⟨bytes, bytes.length, .ok⟩ = (.ok read, reader) ∧
          reader.error = .type := by
    by_cases uidRepresentable : header.uid.toNat < 2 ^ 31
    · refine readEventHeader_index_outOfRange encoding range
        uidRepresentable ?_
      by_contra indexRepresentable
      exact outside ⟨uidRepresentable, by omega⟩
    · exact readEventHeader_uid_outOfRange encoding (by omega)
  obtain ⟨read, reader, stopped, error⟩ := failed
  rw [yaParseEventHeader_append encoding.length_pos size, stopped]
  simp [error]

/-! ## What the serializers write -/

theorem serializeEventHeader_encoding (header : YAEventHeader) :
    HeaderEncoding header (serializeEventHeader header) := by
  simp only [serializeEventHeader, List.append_assoc]
  exact .array header _ _ _ _ _ (mpackStartArray_header 4)
    (mpackWriteU32_encoding _) (mpackWriteU32_encoding _)
    (mpackWriteU32_encoding _) (mpackWriteU32_encoding _)

theorem length_serializeEventHeader_le (header : YAEventHeader) :
    (serializeEventHeader header).length ≤ 37 := by
  have uid := (mpackWriteU32_encoding header.uid).length_le
  have type := (mpackWriteU32_encoding header.type).length_le
  have direction := (mpackWriteU32_encoding header.direction).length_le
  have index := (mpackWriteU32_encoding header.index).length_le
  have array : (mpackStartArray 4).length = 1 := rfl
  simp only [serializeEventHeader, List.length_append]
  omega

/-- The text of a string that a serializer may be handed. -/
def IsText (text : CString) : Prop :=
  ∃ bytes, text = some bytes ∧ 0 ∉ bytes

/-- The parameters are those of the type, for the types whose serializer and
parser use the same structure. -/
def YAParam.Matches (param : YAParam F) (type : YAEventType) : Prop :=
  match param with
  | .common _ => type.isCommon
  | .keyboard _ => type = .keyboard
  | .textInput request => type = .textInput ∧ IsText request.text
  | .inputGet response => type = .textGet ∧ IsText response.text
  | _ => False

/-- The length of the shortest encoding of a text. -/
def stringEncodingLength (text : CString) : Nat :=
  let count := (text.getD []).length
  let header :=
    if count ≤ 31 then 1 else if count ≤ 0xff then 2
    else if count ≤ 0xffff then 3 else 5
  header + count

/-- The length of the body with the given parameters. -/
def YAParam.bodyLength : YAParam F → Nat
  | .common request =>
      1 + (mpackWriteI32 request.lparam).length +
        (mpackWriteI32 request.rparam).length
  | .keyboard request =>
      1 + (mpackWriteI32 request.code).length +
        (mpackWriteI32 request.op).length +
        (mpackWriteU32 request.mods).length
  | .textInput request => stringEncodingLength request.text
  | .inputGet response => stringEncodingLength response.text
  | _ => 0

theorem writeCString_encoding {text : List UInt8}
    (noNul : 0 ∉ text) (fits : text.length < 2 ^ 32) :
    ∃ body,
      writeCString (some text) = .ok body ∧ StringEncoding text body ∧
        body.length = stringEncodingLength (some text) := by
  refine ⟨mpackWriteStr text (UInt32.ofNat text.length), ?_,
    mpackWriteStr_encoding fits, ?_⟩
  · rw [writeCString, cString_of_no_nul noNul]
  · have count : (UInt32.ofNat text.length).toNat = text.length := by
      simp only [UInt32.toNat_ofNat']
      omega
    simp only [mpackWriteStr, UInt32.le_iff_toNat_le, UInt32.reduceToNat,
      count, List.take_length, List.length_append, stringEncodingLength,
      Option.getD_some]
    split
    · rfl
    split
    · rfl
    split
    · rfl
    · rfl

private theorem text_length_lt {text : List UInt8} {bound : Nat}
    (fits : stringEncodingLength (some text) < bound) :
    text.length < bound := by
  simp only [stringEncodingLength, Option.getD_some] at fits
  omega

theorem serializeCommonRequest_encoding {type : YAEventType}
    (common : type.isCommon) (request : YACommonEventRequest) :
    ∃ body,
      serializeCommonRequest (some (.common request : YAParam F)) =
          .ok (0, body) ∧
        BodyEncoding type (.common request : YAParam F) body ∧
        body.length = (.common request : YAParam F).bodyLength := by
  refine ⟨_, rfl, ?_, ?_⟩
  · rw [List.append_assoc]
    exact .common type request _ _ _ common (mpackStartArray_header 2)
      (mpackWriteI32_encoding _) (mpackWriteI32_encoding _)
  · simp only [YAParam.bodyLength, mpackStartArray, List.length_append]
    rfl

theorem serializeKeyboardRequest_encoding (request : YAKeyboardEventRequest) :
    ∃ body,
      serializeKeyboardRequest (some (.keyboard request : YAParam F)) =
          .ok (0, body) ∧
        BodyEncoding .keyboard (.keyboard request : YAParam F) body ∧
        body.length = (.keyboard request : YAParam F).bodyLength := by
  refine ⟨_, rfl, ?_, ?_⟩
  · simp only [List.append_assoc]
    exact .keyboard request _ _ _ _ (mpackStartArray_header 3)
      (mpackWriteI32_encoding _) (mpackWriteI32_encoding _)
      (mpackWriteU32_encoding _)
  · simp only [YAParam.bodyLength, mpackStartArray, List.length_append]
    rfl

theorem getSerializer_common {type : YAEventType} (common : type.isCommon)
    (direction : UInt32) :
    getSerializer (F := F) type.code direction =
      some serializeCommonRequest := by
  cases type <;> first | rfl | cases common

theorem serializeBody_encoding
    {event : YAEvent F} {type : YAEventType} {param : YAParam F}
    (kind : event.header.type = type.code) (carried : event.param = some param)
    (matching : param.Matches type) (fits : param.bodyLength < 2 ^ 32) :
    ∃ body,
      serializeBody event = .ok (0, body) ∧ BodyEncoding type param body ∧
        body.length = param.bodyLength := by
  rw [serializeBody, kind, carried]
  cases param with
  | common request =>
      rw [getSerializer_common matching]
      exact serializeCommonRequest_encoding matching request
  | keyboard request =>
      cases matching
      exact serializeKeyboardRequest_encoding request
  | textInput request =>
      obtain ⟨rfl, text, isText, noNul⟩ := matching
      obtain ⟨_⟩ := request
      cases isText
      obtain ⟨body, written, encoding, length⟩ :=
        writeCString_encoding noNul (text_length_lt fits)
      refine ⟨body, ?_, .textInput text body encoding, length⟩
      simp [getSerializer, serializeTextInputRequest, written]
  | inputGet response =>
      obtain ⟨rfl, text, isText, noNul⟩ := matching
      obtain ⟨_⟩ := response
      cases isText
      obtain ⟨body, written, encoding, length⟩ :=
        writeCString_encoding noNul (text_length_lt fits)
      refine ⟨body, ?_, .textGet text body encoding, length⟩
      simp [getSerializer, serializeTextGetResponse, written]
  | _ => cases matching

end MouseHero
