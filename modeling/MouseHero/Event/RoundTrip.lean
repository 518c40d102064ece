import MouseHero.Event.Frame

/-!
# Events survive the wire

The event types whose serializer and parser use the same parameter structure
come back from a frame exactly as they went in, for every integer and every
NUL-free text, and the bytes behind the frame stay untouched.
-/

namespace MouseHero

open MessagePack BigEndian

variable {F : Type} [CFloat F]

/-- The length of the frame of an event with the given parameters. -/
def YAEvent.frameLength (event : YAEvent F) (param : YAParam F) : Nat :=
  8 + (serializeEventHeader event.header).length + param.bodyLength

/-- Serializing an event whose frame has an `int` length. -/
theorem yaSerializeEvent_of_body
    {event : YAEvent F} {body : List UInt8}
    (written : serializeBody event = .ok (0, body))
    (short :
      (frameBytes (serializeEventHeader event.header) body).length < 2 ^ 31) :
    yaSerializeEvent event =
      .ok {
        length := (frameBytes (serializeEventHeader event.header) body).length
        out := some (frameBytes (serializeEventHeader event.header) body) } := by
  rw [length_frameBytes] at short ⊢
  have whole :
      (Int32.ofNat ((serializeEventHeader event.header).length + body.length +
        4 + 4)).toInt =
        ((serializeEventHeader event.header).length + body.length + 8 : Nat) :=
    Int32.toInt_ofNat_of_lt short
  rw [yaSerializeEvent, written]
  simp only [except_ok_bind, whole]
  rw [if_neg (by omega), if_neg (by omega), if_neg (by omega)]
  rfl

/-- A serialised event has been written as a frame of an `int` length. -/
theorem yaSerializeEvent_eq_ok {event : YAEvent F} {frame : List UInt8}
    (serialized :
      yaSerializeEvent event =
        .ok { length := frame.length, out := some frame }) :
    ∃ status body,
      serializeBody event = .ok (status, body) ∧
        frame = frameBytes (serializeEventHeader event.header) body ∧
        frame.length < 2 ^ 31 := by
  rw [yaSerializeEvent] at serialized
  cases written : serializeBody event with
  | error reason =>
      rw [written] at serialized
      cases serialized
  | ok result =>
      obtain ⟨status, body⟩ := result
      rw [written] at serialized
      simp only [except_ok_bind] at serialized
      split at serialized
      · cases serialized
      split at serialized
      · cases serialized
      split at serialized
      · cases serialized
      · injection serialized with same
        injection same with length out
        injection out with bytes
        refine ⟨status, body, rfl, bytes.symm, ?_⟩
        have bound :=
          (Int32.ofNat
            ((serializeEventHeader event.header).length + body.length + 4 +
              4)).toInt_lt
        omega

theorem BodyEncoding.length_pos
    {type : YAEventType} {param : YAParam F} {body : List UInt8}
    (encoding : BodyEncoding type param body) :
    0 < body.length := by
  have array {count : Nat} {bytes : List UInt8}
      (header : ArrayHeader count bytes) : 0 < bytes.length := by
    cases header <;> simp
  have string {text bytes : List UInt8}
      (encoding : StringEncoding text bytes) : 0 < bytes.length := by
    obtain ⟨header, announces, rfl⟩ := encoding
    cases announces <;> simp
  cases encoding with
  | common _ _ _ _ _ _ arrayHeader =>
      have := array arrayHeader
      simp only [List.length_append]
      omega
  | keyboard _ _ _ _ _ arrayHeader =>
      have := array arrayHeader
      simp only [List.length_append]
      omega
  | textInput _ _ encoding => exact string encoding
  | textGet _ _ encoding => exact string encoding
  | authorize _ _ _ _ arrayHeader =>
      have := array arrayHeader
      simp only [List.length_append]
      omega
  | sessionOption _ _ _ arrayHeader =>
      have := array arrayHeader
      simp only [List.length_append]
      omega
  | discover _ _ encoding => exact encoding.length_pos

/-- The whole-frame round trip. -/
theorem yaParseEvent_yaSerializeEvent
    {event target : YAEvent F} (type : YAEventType) (param : YAParam F)
    (suffix : List UInt8)
    (kind : event.header.type = type.code)
    (directed :
      event.header.direction = REQUEST ∨ event.header.direction = RESPONSE)
    (representable : event.header.IdsRepresentable)
    (carried : event.param = some param) (matching : param.Matches type)
    (short : event.frameLength param < 2 ^ 31) :
    ∃ frame,
      frame.length = event.frameLength param ∧
        yaSerializeEvent event =
          .ok { length := frame.length, out := some frame } ∧
        yaParseEvent (evbufferDrain (frame ++ suffix) 8) target
            (packageSize (frame ++ suffix)) =
          .ok {
            status := 0
            buf := suffix
            event := { event with paramLen := param.size } } := by
  have fits : param.bodyLength < 2 ^ 32 := by
    rw [YAEvent.frameLength] at short
    omega
  obtain ⟨body, written, encoding, bodyLength⟩ :=
    serializeBody_encoding kind carried matching fits
  have frameLength :
      (frameBytes (serializeEventHeader event.header) body).length =
        event.frameLength param := by
    rw [length_frameBytes, bodyLength, YAEvent.frameLength]
    omega
  have range : event.header.InRange := by
    refine ⟨?_, ?_⟩
    · rw [kind]
      have := type.code_lt
      omega
    · rcases directed with request | response
      · simp [request, REQUEST]
      · simp [response, RESPONSE]
  have parsed :
      callParser event.header body body.length =
        .ok { status := 0, outParam := some param, outLen := param.size } := by
    have delivered :=
      callParser_encoding [] kind encoding (by omega)
        (Nat.le_refl body.length)
    rwa [List.append_nil] at delivered
  refine ⟨_, frameLength,
    yaSerializeEvent_of_body written (frameLength ▸ short), ?_⟩
  rw [evbufferDrain_frame, packageSize_frame,
    yaParseEvent_frame_body (serializeEventHeader_encoding event.header) range
      representable (frameLength ▸ short) encoding.length_pos parsed rfl]
  simp only [ParserResult.event, ← carried]

/-- The request to type "Hi". -/
def hiRequest : YAEvent Rat where
  header :=
    { type := 0x5, direction := REQUEST, index := 7, uid := 300 }
  param := some (.textInput { text := some [72, 105] })
  paramLen := 8

/-- A text request with further bytes behind its frame. -/
theorem yaParseEvent_yaSerializeEvent_hiRequest :
    ∃ frame,
      frame.length = hiRequest.frameLength (.textInput ⟨some [72, 105]⟩) ∧
        yaSerializeEvent hiRequest =
          .ok { length := frame.length, out := some frame } ∧
        yaParseEvent (evbufferDrain (frame ++ [0, 0, 0]) 8) YAEvent.zero
            (packageSize (frame ++ [0, 0, 0])) =
          .ok { status := 0, buf := [0, 0, 0], event := hiRequest } :=
  yaParseEvent_yaSerializeEvent .textInput
    (.textInput ⟨some [72, 105]⟩) [0, 0, 0] rfl (Or.inl rfl)
    ⟨by decide, by decide⟩ rfl ⟨rfl, [72, 105], rfl, by decide⟩ (by decide)

end MouseHero
