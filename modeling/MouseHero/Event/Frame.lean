import MouseHero.Event.Wire

/-!
# Frames

A frame is what `ya_serialize_event` puts on the wire: the two sizes, the
header and the body.  Read from the front of a buffer it yields its event and
leaves the bytes behind it, whatever they are.
-/

namespace MouseHero

open FaultM MessagePack BigEndian

variable {F : Type} [CFloat F]

/-! ## Sizes -/

@[simp]
theorem length_frameBytes (header body : List UInt8) :
    (frameBytes header body).length = header.length + body.length + 8 := by
  simp only [frameBytes, List.length_append, length_toBytes]
  omega

/-- The sizes a frame announces. -/
def frameSize (header body : List UInt8) : YAPackageSize where
  totalSize := UInt32.ofNat (header.length + body.length + 4)
  headerSize := UInt32.ofNat header.length
  bodySize := UInt32.ofNat body.length

theorem packageSize_frame (header body rest : List UInt8) :
    packageSize (frameBytes header body ++ rest) =
      frameSize header body := by
  have total :
      wordAt (frameBytes header body ++ rest) 0 =
        UInt32.ofNat (header.length + body.length + 4) := by
    have stored :=
      wordAt_stored []
        (toBytes 4 header.length ++ header ++ body ++ rest)
        (header.length + body.length + 4)
    simpa [frameBytes, List.append_assoc] using stored
  have first :
      wordAt (frameBytes header body ++ rest) 4 =
        UInt32.ofNat header.length := by
    have stored :=
      wordAt_stored (toBytes 4 (header.length + body.length + 4))
        (header ++ body ++ rest) header.length
    simpa [frameBytes, List.append_assoc] using stored
  have remaining :
      UInt32.ofNat (header.length + body.length + 4) -
          UInt32.ofNat header.length - 4 =
        UInt32.ofNat body.length := by
    apply UInt32.toNat_inj.mp
    simp only [UInt32.toNat_sub, UInt32.toNat_ofNat', UInt32.reduceToNat]
    omega
  simp only [packageSize, total, first, remaining, frameSize]

theorem evbufferDrain_frame (header body rest : List UInt8) :
    evbufferDrain (frameBytes header body ++ rest) 8 =
      header ++ (body ++ rest) := by
  have prefixLength :
      (toBytes 4 (header.length + body.length + 4) ++
        toBytes 4 header.length).length = 8 := by simp
  simp only [evbufferDrain, frameBytes, List.append_assoc]
  rw [← List.append_assoc, List.drop_left' prefixLength]

theorem contentLen_frameSize (header body : List UInt8)
    (short : body.length < 2 ^ 31) :
    contentLen (frameSize header body) = body.length := by
  simp only [contentLen, frameSize, UInt32.toInt32_ofNat']
  rw [Int32.toInt_ofNat_of_lt short]

/-! ## Reading a frame -/

/-- The event that a frame delivers when its body parser returns `result`. -/
def ParserResult.event (result : ParserResult F) (header : YAEventHeader) :
    YAEvent F :=
  { header, param := result.outParam, paramLen := result.outLen }

/-- What `ya_parse_event` has done when it chooses a parser: the body of the
frame is in front. -/
theorem bodyStage_frame
    {header : YAEventHeader} {bytes body rest : List UInt8}
    (encoding : HeaderEncoding header bytes) (range : header.InRange)
    (representable : header.IdsRepresentable)
    (short : (frameBytes bytes body).length < 2 ^ 31) :
    bodyStage (bytes ++ (body ++ rest)) (frameSize bytes body) =
      if body.length = 0 then .ok (.noBody header rest)
      else .ok (.body header body (body ++ rest)) := by
  rw [length_frameBytes] at short
  have size : (frameSize bytes body).headerSize.toNat = bytes.length := by
    simp only [frameSize, UInt32.toNat_ofNat']
    omega
  have content := contentLen_frameSize bytes body (by omega)
  rw [bodyStage, yaParseEventHeader_encoding encoding range representable size]
  simp only [except_ok_bind, size, content, evbufferDrain_append]
  by_cases empty : body.length = 0
  · have none : body = [] := List.length_eq_zero_iff.mp empty
    simp [none]
  · rw [if_neg (by omega), if_neg empty,
      evbufferPullup_append (by omega)]
    rfl

theorem yaParseEvent_frame_noBody
    {header : YAEventHeader} {bytes rest : List UInt8} {event : YAEvent F}
    (encoding : HeaderEncoding header bytes) (range : header.InRange)
    (representable : header.IdsRepresentable)
    (short : (frameBytes bytes []).length < 2 ^ 31) :
    yaParseEvent (bytes ++ ([] ++ rest)) event (frameSize bytes []) =
      .ok { status := 0, buf := rest, event := { event with header } } := by
  rw [yaParseEvent, bodyStage_frame encoding range representable short]
  simp

/-- A frame with a body yields what its body parser delivers. -/
theorem yaParseEvent_frame_body
    {header : YAEventHeader} {bytes body rest : List UInt8}
    {event : YAEvent F} {result : ParserResult F}
    (encoding : HeaderEncoding header bytes) (range : header.InRange)
    (representable : header.IdsRepresentable)
    (short : (frameBytes bytes body).length < 2 ^ 31)
    (nonempty : 0 < body.length)
    (parsed : callParser header body body.length = .ok result)
    (accepted : result.status = 0) :
    yaParseEvent (bytes ++ (body ++ rest)) event (frameSize bytes body) =
      .ok { status := 0, buf := rest, event := result.event header } := by
  have content : sizeOfInt (contentLen (frameSize bytes body)) = body.length := by
    rw [length_frameBytes] at short
    rw [contentLen_frameSize _ _ (by omega), sizeOfInt_of_nonneg (by omega) (by omega)]
    simp
  rw [yaParseEvent, bodyStage_frame encoding range representable short,
    if_neg (by omega)]
  simp only [except_ok_bind, content, parsed, accepted,
    evbufferDrain_append]
  rfl

/-- A frame whose header is refused loses its sizes only. -/
theorem yaParseEvent_frame_refused
    {header : YAEventHeader} {bytes body rest : List UInt8}
    {event : YAEvent F}
    (encoding : HeaderEncoding header bytes) (range : header.InRange)
    (outside : ¬ header.IdsRepresentable)
    (short : (frameBytes bytes body).length < 2 ^ 31) :
    yaParseEvent (bytes ++ (body ++ rest)) event (frameSize bytes body) =
      .ok { status := -1, buf := bytes ++ (body ++ rest), event } := by
  have size : (frameSize bytes body).headerSize.toNat = bytes.length := by
    rw [length_frameBytes] at short
    simp only [frameSize, UInt32.toNat_ofNat']
    omega
  rw [yaParseEvent, bodyStage,
    yaParseEventHeader_outOfRange encoding range outside size]
  rfl

end MouseHero
