import MouseHero.Event.Parsed
import MouseHero.Event.Received
import MouseHero.Event.TextBuffers

/-!
# Serializers and parsers in pairs

For each type and direction, `get_serializer` and `get_parser` select a
function.  They belong together for the types whose requests and responses
have one structure: neither table looks at the direction.
-/

namespace MouseHero

open FaultM MessagePack BigEndian

variable {F : Type} [CFloat F]

/-! ## Payloads -/

/-- A `char *` to a C string, or null. -/
def IsCString (text : CString) : Prop :=
  ∀ bytes, text = some bytes → 0 ∉ bytes

/-- The structure that events of the type carry in the direction. -/
def YAParam.CarriedBy (param : YAParam F) (type : YAEventType)
    (direction : UInt32) : Prop :=
  match param with
  | .common _ => type.isCommon
  | .keyboard _ => type = .keyboard
  | .textInput request => type = .textInput ∧ IsCString request.text
  | .inputGet response => type = .textGet ∧ IsCString response.text
  | .authorizeRequest _ => type = .authorize ∧ direction = REQUEST
  | .authorizeResponse response =>
      type = .authorize ∧ direction = RESPONSE ∧ IsCString response.macs
  | .sessionOption _ => type = .sessionOption
  | .discoverRequest _ => type = .discover ∧ direction = REQUEST
  | .discoverResponse _ => type = .discover ∧ direction = RESPONSE

/-- The selected parser decodes what the selected serializer has written to
the same payload. -/
def RoundTrips (type : YAEventType) (direction : UInt32) (param : YAParam F) :
    Prop :=
  ∃ serialize parse body,
    getSerializer type.code direction = some serialize ∧
      getParser type.code direction = some parse ∧
      serialize (some param) = .ok (0, body) ∧
      parse body body.length =
        .ok {
          status := 0
          outParam := some param
          outLen := param.size }

/-- A text that is there, and shorter than the greatest length. -/
def TextFits (text : CString) : Prop :=
  ∃ bytes, text = some bytes ∧ bytes.length + 1 < 2 ^ 32

/-- The texts of the payload, if it has any, fit. -/
def YAParam.TextsFit : YAParam F → Prop
  | .textInput request => TextFits request.text
  | .inputGet response => TextFits response.text
  | _ => True

/-- The types whose serializer and parser use the same structure. -/
def YAEventType.isPaired : YAEventType → Bool
  | authorize | discover | sessionOption => false
  | _ => true

theorem YAEventType.isPaired_of_isCommon {type : YAEventType}
    (common : type.isCommon) : type.isPaired := by
  cases type <;> first | rfl | cases common

/-! ## Texts -/

/-- The serializer of a text writes an encoding of all of it, if the text is
shorter than 2^32 bytes. -/
theorem writeCString_whole {text : List UInt8} (noNul : 0 ∉ text)
    (fits : text.length + 1 < 2 ^ 32) :
    ∃ body,
      writeCString (some text) = .ok body ∧ StringEncoding text body := by
  obtain ⟨body, written, encoding, -⟩ :=
    writeCString_encoding noNul (by omega)
  exact ⟨body, written, encoding⟩

omit [CFloat F] in
/-- A text that is delivered has been allocated with its NUL. -/
theorem deliver_text_fits {make : CString → YAParam F}
    {body text : List UInt8} {outLen : Nat}
    (injective : ∀ first second, make first = make second → first = second)
    (delivered :
      deliver (readText >>= fun text => pure (make text)) body body.length =
        .ok { status := 0, outParam := some (make (some text)), outLen }) :
    text.length + 1 < 2 ^ 32 := by
  rcases deliver_text make body with
    ⟨holds, other, length, result⟩ | ⟨-, fault⟩
  · rw [delivered] at result
    simp only [Except.ok.injEq, ParserResult.mk.injEq, Option.some.injEq,
      true_and] at result
    have same := injective _ _ result.1
    simp only [Option.some.injEq] at same
    have word := declaredLength_lt body
    have shorter := (lt_textAllocation_iff word).mp holds
    rw [same, length]
    omega
  · rw [delivered] at fault
    cases fault

theorem text_roundTrips_iff {type : YAEventType} {direction : UInt32}
    (make : CString → YAParam F) {serialize : SerializerFn F} {text : CString}
    (selected : getSerializer type.code direction = some serialize)
    (parser :
      getParser type.code direction =
        some (deliver (readText >>= fun text => pure (make text))))
    (writes :
      serialize (some (make text)) =
        (writeCString text >>= fun body => pure (0, body)))
    (injective : ∀ first second, make first = make second → first = second)
    (isText : IsCString text) :
    RoundTrips type direction (make text) ↔ TextFits text := by
  constructor
  · rintro ⟨other, parse, body, isOther, isParse, written, delivered⟩
    rw [selected] at isOther
    rw [parser] at isParse
    cases isOther
    cases isParse
    rw [writes] at written
    cases chars : writeCString text with
    | error fault => simp [chars] at written
    | ok bytes =>
        obtain ⟨present, rfl, -⟩ := writeCString_written chars
        exact ⟨present, rfl, deliver_text_fits injective delivered⟩
  · rintro ⟨bytes, rfl, fits⟩
    obtain ⟨body, written, encoding⟩ :=
      writeCString_whole (isText bytes rfl) fits
    have read :
        Reads (readText >>= fun text => pure (make text)) (make (some bytes))
          body :=
      (readText_encoding encoding fits).map
    refine ⟨serialize, _, body, selected, parser, ?_, ?_⟩
    · rw [writes, written]
      rfl
    · rw [← List.append_nil body]
      exact deliver_reads read (by simp)

/-! ## Types whose structures are numbers -/

theorem roundTrips_encoding {type : YAEventType} {direction : UInt32}
    {param : YAParam F} {serialize : SerializerFn F} {body : List UInt8}
    (selected : getSerializer type.code direction = some serialize)
    (written : serialize (some param) = .ok (0, body))
    (encoding : BodyEncoding type param body) (fits : body.length < 2 ^ 32) :
    RoundTrips type direction param := by
  let header : YAEventHeader :=
    { type := type.code, direction, index := 0, uid := 0 }
  have kind : header.type = type.code := rfl
  have delivered :=
    callParser_encoding [] kind encoding fits (Nat.le_refl body.length)
  rw [List.append_nil, callParser] at delivered
  cases parser : (getParser type.code direction : Option (ParserFn F)) with
  | none =>
      simp only [header, parser] at delivered
      cases delivered
  | some parse =>
      simp only [header, parser] at delivered
      exact ⟨serialize, parse, body, selected, parser, written, delivered⟩

private theorem common_roundTrips {type : YAEventType} (common : type.isCommon)
    (direction : UInt32) (request : YACommonEventRequest) :
    RoundTrips type direction (.common request : YAParam F) := by
  obtain ⟨body, written, encoding, length⟩ :=
    serializeCommonRequest_encoding (F := F) common request
  have lparam := (mpackWriteI32_encoding request.lparam).length_le
  have rparam := (mpackWriteI32_encoding request.rparam).length_le
  refine roundTrips_encoding (getSerializer_common common direction) written
    encoding ?_
  simp only [length, YAParam.bodyLength]
  omega

private theorem keyboard_roundTrips (direction : UInt32)
    (request : YAKeyboardEventRequest) :
    RoundTrips .keyboard direction (.keyboard request : YAParam F) := by
  obtain ⟨body, written, encoding, length⟩ :=
    serializeKeyboardRequest_encoding (F := F) request
  have code := (mpackWriteI32_encoding request.code).length_le
  have op := (mpackWriteI32_encoding request.op).length_le
  have mods := (mpackWriteU32_encoding request.mods).length_le
  have selected :
      getSerializer (F := F) YAEventType.keyboard.code direction =
        some serializeKeyboardRequest :=
    rfl
  refine roundTrips_encoding selected written encoding ?_
  simp only [length, YAParam.bodyLength]
  omega

/-! ## Each type -/

private theorem textInput_roundTrips_iff (direction : UInt32)
    (request : YATextInputEventRequest) (isText : IsCString request.text) :
    RoundTrips .textInput direction (.textInput request : YAParam F) ↔
      TextFits request.text := by
  refine text_roundTrips_iff (fun text => .textInput { text }) rfl rfl rfl ?_
    isText
  intro first second same
  injection same with same
  injection same

private theorem textGet_roundTrips_iff (direction : UInt32)
    (response : YAInputGetEventResponse) (isText : IsCString response.text) :
    RoundTrips .textGet direction (.inputGet response : YAParam F) ↔
      TextFits response.text := by
  refine text_roundTrips_iff (fun text => .inputGet { text }) rfl rfl rfl ?_
    isText
  intro first second same
  injection same with same
  injection same

private theorem not_roundTrips_of_written {type : YAEventType} {direction : UInt32}
    {param : YAParam F}
    (refused :
      ∀ serialize body,
        getSerializer type.code direction = some serialize →
          serialize (some param) ≠ .ok (0, body)) :
    ¬ RoundTrips type direction param := by
  rintro ⟨serialize, parse, body, selected, -, written, -⟩
  exact refused serialize body selected written

private theorem not_roundTrips_of_parsedAs {type : YAEventType} {direction : UInt32}
    {param : YAParam F} (other : ¬ param.ParsedAs type) :
    ¬ RoundTrips type direction param := by
  rintro ⟨serialize, parse, body, -, parser, -, delivered⟩
  let header : YAEventHeader :=
    { type := type.code, direction, index := 0, uid := 0 }
  have known : YAEventType.ofCode? header.type = some type :=
    YAEventType.ofCode?_code type
  have called :
      callParser header body body.length =
        .ok {
          status := 0
          outParam := some param
          outLen := param.size } := by
    simp only [callParser, header, parser]
    exact delivered
  exact other (callParser_parsedAs known called param rfl).1

/-- A serializer for another structure, a parser for another structure, or no
serializer. -/
theorem not_roundTrips_of_unpaired {type : YAEventType} {direction : UInt32}
    {param : YAParam F} (unpaired : type.isPaired = false)
    (carried : param.CarriedBy type direction) :
    ¬ RoundTrips type direction param := by
  cases param with
  | common request =>
      have paired := YAEventType.isPaired_of_isCommon carried
      rw [unpaired] at paired
      cases paired
  | keyboard request =>
      cases carried
      cases unpaired
  | textInput request =>
      obtain ⟨rfl, -⟩ := carried
      cases unpaired
  | inputGet response =>
      obtain ⟨rfl, -⟩ := carried
      cases unpaired
  | authorizeRequest request =>
      obtain ⟨rfl, -⟩ := carried
      apply not_roundTrips_of_written
      intro serialize body selected written
      cases selected
      cases written
  | authorizeResponse response => exact not_roundTrips_of_parsedAs id
  | sessionOption request =>
      cases carried
      apply not_roundTrips_of_written
      intro serialize body selected
      cases selected
  | discoverRequest request =>
      obtain ⟨rfl, -⟩ := carried
      apply not_roundTrips_of_written
      intro serialize body selected written
      cases selected
      cases written
  | discoverResponse response => exact not_roundTrips_of_parsedAs id

private theorem roundTrips_iff_of_paired {type : YAEventType} {direction : UInt32}
    {param : YAParam F} (paired : type.isPaired = true)
    (carried : param.CarriedBy type direction) :
    RoundTrips type direction param ↔ param.TextsFit := by
  cases param with
  | common request =>
      exact iff_of_true (common_roundTrips carried direction request) trivial
  | keyboard request =>
      cases carried
      exact iff_of_true (keyboard_roundTrips direction request) trivial
  | textInput request =>
      obtain ⟨rfl, isText⟩ := carried
      exact textInput_roundTrips_iff direction request isText
  | inputGet response =>
      obtain ⟨rfl, isText⟩ := carried
      exact textGet_roundTrips_iff direction response isText
  | sessionOption request =>
      cases carried
      cases paired
  | _ =>
      obtain ⟨rfl, -⟩ := carried
      cases paired

/-- For the payloads that a type carries in a direction, serializer and parser
are a pair for the types other than AUTHORIZE, DISCOVER and SESSION_OPTION,
as far as a text fits. -/
theorem roundTrips_iff (type : YAEventType) (direction : UInt32)
    (param : YAParam F) (carried : param.CarriedBy type direction) :
    RoundTrips type direction param ↔ type.isPaired ∧ param.TextsFit := by
  cases paired : type.isPaired with
  | false =>
      refine iff_of_false (not_roundTrips_of_unpaired paired carried) ?_
      rintro ⟨impossible, -⟩
      cases impossible
  | true =>
      rw [roundTrips_iff_of_paired paired carried]
      exact (and_iff_right rfl).symm

theorem roundTrips_iff_textInput :
    RoundTrips .textInput REQUEST
        (.textInput { text := some [0x61] } : YAParam Rat) ↔
      YAEventType.textInput.isPaired ∧
        (.textInput { text := some [0x61] } : YAParam Rat).TextsFit :=
  roundTrips_iff .textInput REQUEST _
    ⟨rfl, by rintro bytes ⟨rfl⟩; decide⟩

/-- Neither the request nor the response of an authorization makes the round
trip, nor do those of a discovery, nor a session option. -/
theorem roundTrips_unpaired :
    ¬ RoundTrips .authorize REQUEST
        (.authorizeRequest { type := 1, version := 3 } : YAParam Rat) ∧
      ¬ RoundTrips .authorize RESPONSE
        (.authorizeResponse {
          success := true
          osType := 1
          uid := 7
          sessionPort := 8080
          commandPort := 8081
          macs := some []
          displayScale := 1
          clientVersion := 3 } : YAParam Rat) ∧
      ¬ RoundTrips .discover REQUEST
        (.discoverRequest { magic := DISCOVERY_MAGIC } : YAParam Rat) ∧
      ¬ RoundTrips .discover RESPONSE
        (.discoverResponse { magic := DISCOVERY_MAGIC, port := 8080 } :
          YAParam Rat) ∧
      ¬ RoundTrips .sessionOption REQUEST
        (.sessionOption { pointerScale := 1 } : YAParam Rat) := by
  have noMacs : IsCString (some []) := by
    rintro bytes ⟨rfl⟩
    exact List.not_mem_nil
  exact ⟨not_roundTrips_of_unpaired rfl ⟨rfl, rfl⟩,
    not_roundTrips_of_unpaired rfl ⟨rfl, rfl, noMacs⟩,
    not_roundTrips_of_unpaired rfl ⟨rfl, rfl⟩,
    not_roundTrips_of_unpaired rfl ⟨rfl, rfl⟩,
    not_roundTrips_of_unpaired rfl rfl⟩

end MouseHero
