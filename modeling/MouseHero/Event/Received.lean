import MouseHero.Event.RoundTrip

/-!
# What a receiver makes of a frame

Serializers and parsers agree on the structure of the parameters for most
types.  The parsers of AUTHORIZE and DISCOVER read requests, and the
serializers write responses; some types have parameters on one side only.
-/

namespace MouseHero

open FaultM MessagePack BigEndian

variable {F : Type} [CFloat F]

/-! ## Received events -/

/-- The bytes of a text that are written: as many as the 32-bit length says. -/
def writtenText (text : List UInt8) : List UInt8 :=
  (cString text).take ((cString text).length % 2 ^ 32)

/-- The parameters a receiver reads where the serializer has written some. -/
def YAParam.received : YAParam F → YAParam F
  | .textInput request =>
      .textInput { text := request.text.map writtenText }
  | .inputGet response =>
      .inputGet { text := response.text.map writtenText }
  -- A `bool` in the place of the type, or an array in the place of the magic
  -- number, is read as zero, and so is what follows it.
  | .authorizeResponse _ => .authorizeRequest { type := 0, version := 0 }
  | .discoverResponse _ => .discoverRequest { magic := 0 }
  | param => param

/-- The event that a receiver reads from the frame of an event. -/
def YAEvent.received (event : YAEvent F) : YAEvent F :=
  let param :=
    match (getSerializer event.header.type event.header.direction :
        Option (SerializerFn F)) with
    | some _ => event.param.map YAParam.received
    | none => none
  { event with param, paramLen := (param.map YAParam.size).getD 0 }

/-! ## Parameters of another shape -/

/-- An element that is not an integer, where one is expected. -/
theorem mpackExpectU32_mismatch (rest : List UInt8) (left : Nat)
    {tag : MpackTag} {front : List UInt8} (reads : Reads mpackReadTag tag front)
    (available : front.length ≤ left) (mismatch : tag.integer? = none) :
    mpackExpectU32 ⟨front ++ rest, left, .ok⟩ =
      (.ok 0, ⟨rest, 0, .type⟩) := by
  rw [mpackExpectU32, bind_of_ok (reads rest left available)]
  cases tag with
  | uint value => cases mismatch
  | int value => cases mismatch
  | _ => rfl

theorem mpackExpectU32_error {reader : MpackReader}
    (failed : reader.error ≠ .ok) :
    mpackExpectU32 reader = (.ok 0, reader) := by
  have tag : mpackReadTag reader = (.ok .nil, reader) := by
    rw [mpackReadTag, bind_of_ok (getState_apply _)]
    simp [failed]
  rw [mpackExpectU32, bind_of_ok tag]
  simp [expectFailure_apply, MpackReader.flagError, failed]

omit [CFloat F] in
/-- A response to an authorization is read as an empty request. -/
theorem parseAuthorizeRequest_mismatch {count : Nat}
    {array rest : List UInt8} {len : Nat} (success : Bool)
    (arrayHeader : ArrayHeader count array)
    (available : array.length + 1 ≤ len) :
    parseAuthorizeRequest (F := F) (array ++ (mpackWriteBool success ++ rest))
        len =
      .ok {
        status := 0
        outParam := some (.authorizeRequest { type := 0, version := 0 })
        outLen := 8 } := by
  have bool : Reads mpackReadTag (.bool success) (mpackWriteBool success) := by
    cases success <;> exact mpackReadTag_immediate rfl
  have mismatch :=
    mpackExpectU32_mismatch rest (len - array.length) bool
      (by simp only [mpackWriteBool, List.length_singleton]; omega) rfl
  rw [parseAuthorizeRequest, deliver, mpackReaderInitData,
    bind_of_ok (mpackExpectArray_header arrayHeader _ len (by omega)),
    bind_of_ok mismatch, bind_of_ok (mpackExpectU32_error (by simp))]
  rfl

omit [CFloat F] in
/-- A response to a discovery is read as a request without the magic number. -/
theorem parseDiscoverRequest_mismatch (rest : List UInt8) {len : Nat}
    (available : 1 ≤ len) :
    parseDiscoverRequest (F := F) (mpackStartArray 2 ++ rest) len =
      .ok {
        status := 0
        outParam := some (.discoverRequest { magic := 0 })
        outLen := 4 } := by
  have array : Reads mpackReadTag (.array 2) (mpackStartArray 2) :=
    mpackReadTag_immediate rfl
  have mismatch :=
    mpackExpectU32_mismatch rest len array available rfl
  rw [parseDiscoverRequest, deliver, mpackReaderInitData, bind_of_ok mismatch]
  rfl

/-! ## Bodies that serializers write -/

private theorem length_writtenText (text : List UInt8) :
    (writtenText text).length = (cString text).length % 2 ^ 32 := by
  rw [writtenText, List.length_take]
  exact Nat.min_eq_left (Nat.mod_le _ _)

theorem writeCString_written {text : CString} {body : List UInt8}
    (written : writeCString text = .ok body) :
    ∃ bytes, text = some bytes ∧ StringEncoding (writtenText bytes) body := by
  cases text with
  | none => cases written
  | some bytes =>
      cases written
      refine ⟨bytes, rfl, ?_⟩
      have short : (writtenText bytes).length < 2 ^ 32 := by
        rw [length_writtenText]
        omega
      have count :
          UInt32.ofNat (cString bytes).length =
            UInt32.ofNat (writtenText bytes).length := by
        apply UInt32.toNat_inj.mp
        rw [length_writtenText, UInt32.toNat_ofNat', UInt32.toNat_ofNat',
          Nat.mod_mod]
      have isPrefix : cString bytes = bytes.take (cString bytes).length :=
        List.prefix_iff_eq_take.mp (List.takeWhile_prefix _)
      have front :
          bytes.take ((cString bytes).length % 2 ^ 32) = writtenText bytes := by
        rw [writtenText, isPrefix, List.take_take, ← isPrefix,
          Nat.min_eq_left (Nat.mod_le _ _)]
      have same :
          mpackWriteStr bytes (UInt32.ofNat (cString bytes).length) =
            mpackWriteStr (writtenText bytes)
              (UInt32.ofNat (writtenText bytes).length) := by
        rw [count]
        simp only [mpackWriteStr, UInt32.toNat_ofNat', Nat.mod_eq_of_lt short,
          List.take_length]
        rw [length_writtenText, front]
      rw [same]
      exact mpackWriteStr_encoding short

/-- What a serializer has written is read as the received parameters. -/
def ReadBack (header : YAEventHeader) (param : Option (YAParam F))
    (written : Except Fault (Int × List UInt8)) : Prop :=
  ∀ status body,
    written = .ok (status, body) → body.length < 2 ^ 32 →
    status = 0 ∧ 0 < body.length ∧
      ∃ received : YAParam F,
        param.map YAParam.received = some received ∧
          callParser header body body.length =
            .ok {
              status := 0
              outParam := some received
              outLen := received.size }

theorem readBack_error {header : YAEventHeader} {param : Option (YAParam F)}
    (reason : Fault) : ReadBack header param (.error reason) := by
  intro status body written
  cases written

theorem readBack_encoding {header : YAEventHeader} {type : YAEventType}
    {param : YAParam F} {body : List UInt8}
    (kind : header.type = type.code)
    (encoding : BodyEncoding type param.received body) :
    ReadBack header (some param) (.ok (0, body)) := by
  intro status written same fits
  cases same
  refine ⟨rfl, encoding.length_pos, _, rfl, ?_⟩
  have delivered :=
    callParser_encoding [] kind encoding fits (Nat.le_refl body.length)
  rwa [List.append_nil] at delivered

private theorem serializeCommonRequest_readBack {header : YAEventHeader}
    {type : YAEventType} (kind : header.type = type.code)
    (common : type.isCommon) (param : Option (YAParam F)) :
    ReadBack header param (serializeCommonRequest param) := by
  cases param with
  | none => exact readBack_error _
  | some param =>
      cases param with
      | common request =>
          obtain ⟨body, written, encoding, -⟩ :=
            serializeCommonRequest_encoding (F := F) common request
          rw [written]
          exact readBack_encoding kind encoding
      | _ => exact readBack_error _

private theorem serializeKeyboardRequest_readBack {header : YAEventHeader}
    (kind : header.type = YAEventType.keyboard.code)
    (param : Option (YAParam F)) :
    ReadBack header param (serializeKeyboardRequest param) := by
  cases param with
  | none => exact readBack_error _
  | some param =>
      cases param with
      | keyboard request =>
          obtain ⟨body, written, encoding, -⟩ :=
            serializeKeyboardRequest_encoding (F := F) request
          rw [written]
          exact readBack_encoding kind encoding
      | _ => exact readBack_error _

private theorem serializeTextInputRequest_readBack {header : YAEventHeader}
    (kind : header.type = YAEventType.textInput.code)
    (param : Option (YAParam F)) :
    ReadBack header param (serializeTextInputRequest param) := by
  cases param with
  | none => exact readBack_error _
  | some param =>
      cases param with
      | textInput request =>
          cases written : writeCString request.text with
          | error reason =>
              simp only [serializeTextInputRequest, written]
              exact readBack_error _
          | ok body =>
              obtain ⟨bytes, text, encoding⟩ := writeCString_written written
              simp only [serializeTextInputRequest, written]
              apply readBack_encoding kind
              rw [YAParam.received, text]
              exact .textInput _ body encoding
      | _ => exact readBack_error _

private theorem serializeTextGetResponse_readBack {header : YAEventHeader}
    (kind : header.type = YAEventType.textGet.code)
    (param : Option (YAParam F)) :
    ReadBack header param (serializeTextGetResponse param) := by
  cases param with
  | none => exact readBack_error _
  | some param =>
      cases param with
      | inputGet response =>
          cases written : writeCString response.text with
          | error reason =>
              simp only [serializeTextGetResponse, written]
              exact readBack_error _
          | ok body =>
              obtain ⟨bytes, text, encoding⟩ := writeCString_written written
              simp only [serializeTextGetResponse, written]
              apply readBack_encoding kind
              rw [YAParam.received, text]
              exact .textGet _ body encoding
      | _ => exact readBack_error _

private theorem serializeAuthorizeResponse_readBack {header : YAEventHeader}
    (kind : header.type = YAEventType.authorize.code)
    (param : Option (YAParam F)) :
    ReadBack header param (serializeAuthorizeResponse param) := by
  cases param with
  | none => exact readBack_error _
  | some param =>
      cases param with
      | authorizeResponse response =>
          -- The two formats differ behind the first field.
          have shape :
              ∃ count rest, count ≤ 15 ∧
                serializeAuthorizeResponse (some (.authorizeResponse response)) =
                  .ok (0, mpackStartArray count ++
                    (mpackWriteBool response.success ++ rest)) := by
            simp only [serializeAuthorizeResponse, writeCString, except_ok_bind,
              List.append_assoc]
            split
            · exact ⟨8, _, by decide, rfl⟩
            · exact ⟨7, _, by decide, rfl⟩
          obtain ⟨count, rest, small, written⟩ := shape
          rw [written]
          intro status body same fits
          cases same
          have array : (mpackStartArray count).length = 1 := by
            rw [mpackStartArray, if_pos small]
            rfl
          have long :
              1 + 1 ≤
                (mpackStartArray count ++
                  (mpackWriteBool response.success ++ rest)).length := by
            simp only [List.length_append, array, mpackWriteBool,
              List.length_singleton]
            omega
          refine ⟨rfl, by omega, _, rfl, ?_⟩
          rw [callParser, kind]
          exact parseAuthorizeRequest_mismatch response.success
            (mpackStartArray_header count) (array ▸ long)
      | _ => exact readBack_error _

private theorem serializeDiscoverResponse_readBack {header : YAEventHeader}
    (kind : header.type = YAEventType.discover.code)
    (param : Option (YAParam F)) :
    ReadBack header param (serializeDiscoverResponse param) := by
  cases param with
  | none => exact readBack_error _
  | some param =>
      cases param with
      | discoverResponse response =>
          intro status body written fits
          cases written
          have long :
              1 ≤
                (mpackStartArray 2 ++ mpackWriteU32 DISCOVERY_MAGIC ++
                  mpackWriteU32 response.port.toUInt32).length := by
            have array : (mpackStartArray 2).length = 1 := rfl
            simp only [List.length_append]
            omega
          refine ⟨rfl, long, _, rfl, ?_⟩
          rw [callParser, kind, List.append_assoc]
          rw [List.append_assoc] at long
          exact parseDiscoverRequest_mismatch _ long
      | _ => exact readBack_error _

/-- Every serializer writes what the parser of the type reads as the received
parameters. -/
theorem getSerializer_readBack {header : YAEventHeader}
    {serialize : SerializerFn F}
    (selected : getSerializer header.type header.direction = some serialize)
    (param : Option (YAParam F)) :
    ReadBack header param (serialize param) := by
  cases known : YAEventType.ofCode? header.type with
  | none =>
      simp only [getSerializer, known] at selected
      cases selected
  | some type =>
      have kind := YAEventType.ofCode?_eq_some.mp known
      simp only [getSerializer, known] at selected
      cases type <;> cases selected
      case some.keyboard.refl =>
        exact serializeKeyboardRequest_readBack kind param
      case some.textInput.refl =>
        exact serializeTextInputRequest_readBack kind param
      case some.textGet.refl =>
        exact serializeTextGetResponse_readBack kind param
      case some.authorize.refl =>
        exact serializeAuthorizeResponse_readBack kind param
      case some.discover.refl =>
        exact serializeDiscoverResponse_readBack kind param
      all_goals exact serializeCommonRequest_readBack kind rfl param

/-! ## Frames -/

/-- An event as `ya_serialize_event` puts it on the wire.  Type and direction
are values of a byte, as those of the enumerations are. -/
structure SentFrame (F : Type) [CFloat F] where
  event : YAEvent F
  bytes : List UInt8
  range : event.header.InRange
  serialized :
    yaSerializeEvent event =
      .ok { length := bytes.length, out := some bytes }

namespace SentFrame

variable (frame : SentFrame F)

/-- A frame has a header and a body, and its length is an `int`. -/
theorem exists_body :
    ∃ body,
      frame.bytes =
          frameBytes (serializeEventHeader frame.event.header) body ∧
        frame.bytes.length < 2 ^ 31 ∧
        ((body = [] ∧ frame.event.received.param = none) ∨
          (0 < body.length ∧
            callParser frame.event.header body body.length =
              .ok {
                status := 0
                outParam := frame.event.received.param
                outLen := frame.event.received.paramLen })) := by
  obtain ⟨status, body, written, bytes, short⟩ :=
    yaSerializeEvent_eq_ok frame.serialized
  refine ⟨body, bytes, short, ?_⟩
  rw [bytes, length_frameBytes] at short
  rw [serializeBody] at written
  cases selected :
      (getSerializer frame.event.header.type frame.event.header.direction :
        Option (SerializerFn F)) with
  | none =>
      rw [selected] at written
      cases written
      refine Or.inl ⟨rfl, ?_⟩
      simp only [YAEvent.received, selected]
  | some serialize =>
      rw [selected] at written
      obtain ⟨-, nonempty, received, carried, parsed⟩ :=
        getSerializer_readBack selected frame.event.param status body written
          (by omega)
      refine Or.inr ⟨nonempty, ?_⟩
      simp only [YAEvent.received, selected, carried]
      exact parsed

theorem yaParseEvent_eq (representable : frame.event.header.IdsRepresentable)
    (rest : List UInt8) :
    yaParseEvent (evbufferDrain (frame.bytes ++ rest) 8) YAEvent.zero
        (packageSize (frame.bytes ++ rest)) =
      .ok { status := 0, buf := rest, event := frame.event.received } := by
  obtain ⟨body, bytes, short, read⟩ := frame.exists_body
  have encoding := serializeEventHeader_encoding frame.event.header
  rw [bytes] at short ⊢
  rw [evbufferDrain_frame, packageSize_frame]
  rcases read with ⟨rfl, absent⟩ | ⟨nonempty, parsed⟩
  · rw [yaParseEvent_frame_noBody encoding frame.range representable short]
    have nothing : frame.event.received.paramLen = 0 := by
      have length :
          frame.event.received.paramLen =
            (frame.event.received.param.map YAParam.size).getD 0 := rfl
      rw [length, absent]
      rfl
    have same :
        frame.event.received =
          { YAEvent.zero with header := frame.event.header } := by
      calc
        frame.event.received =
            { header := frame.event.header
              param := frame.event.received.param
              paramLen := frame.event.received.paramLen } := rfl
        _ = { YAEvent.zero with header := frame.event.header } := by
            rw [absent, nothing]
            rfl
    rw [same]
  · rw [yaParseEvent_frame_body encoding frame.range representable short
      nonempty parsed rfl]
    rfl

/-- In front of any bytes, a frame with other ids is refused, and loses its
sizes. -/
theorem yaParseEvent_refused
    (outside : ¬ frame.event.header.IdsRepresentable) (rest : List UInt8) :
    ∃ header body,
      frame.bytes = frameBytes header body ∧
        header = serializeEventHeader frame.event.header ∧
        yaParseEvent (F := F) (evbufferDrain (frame.bytes ++ rest) 8)
            YAEvent.zero (packageSize (frame.bytes ++ rest)) =
          .ok {
            status := -1
            buf := header ++ (body ++ rest)
            event := YAEvent.zero } := by
  obtain ⟨body, bytes, short, -⟩ := frame.exists_body
  have encoding := serializeEventHeader_encoding frame.event.header
  refine ⟨_, body, bytes, rfl, ?_⟩
  rw [bytes] at short ⊢
  rw [evbufferDrain_frame, packageSize_frame,
    yaParseEvent_frame_refused encoding frame.range outside short]

end SentFrame

end MouseHero
