import MouseHero.Event.RoundTrip

/-!
# Malformed bodies

No body parser consults the error of its reader, so that `ya_parse_event`
never refuses a body: it accepts the well-formed ones with their contents and
the malformed ones with zeros in the place of what could not be read.
-/

namespace MouseHero

open MessagePack BigEndian

variable {F : Type} [CFloat F]

/-- A parser that returns has the status 0. -/
theorem callParser_status
    {header : YAEventHeader} {payload : List UInt8} {len : Nat}
    {result : ParserResult F}
    (returned : callParser header payload len = .ok result) :
    result.status = 0 := by
  have delivered {read : ReaderM (YAParam F)}
      (returned : deliver read payload len = .ok result) :
      result.status = 0 := by
    unfold deliver at returned
    split at returned
    · cases returned
      rfl
    · cases returned
  unfold callParser at returned
  cases known : YAEventType.ofCode? header.type with
  | none =>
      simp only [getParser, known, Except.ok.injEq] at returned
      cases returned
      rfl
  | some type =>
      cases type <;> simp only [getParser, known] at returned
      case heartbeat | mouseStop =>
        cases returned
        rfl
      all_goals exact delivered returned

theorem contentLen_eq_of_lt {size : YAPackageSize}
    (small : size.bodySize.toNat < 2 ^ 31) :
    contentLen size = size.bodySize.toNat := by
  rw [contentLen, toInt_toInt32_eq_bmod]
  simp only [Int.bmod]
  omega

theorem contentLen_eq_of_ge {size : YAPackageSize}
    (large : 2 ^ 31 ≤ size.bodySize.toNat) :
    contentLen size = size.bodySize.toNat - 2 ^ 32 := by
  have range := size.bodySize.toNat_lt
  rw [contentLen, toInt_toInt32_eq_bmod]
  simp only [Int.bmod]
  omega

theorem contentLen_eq_zero_iff {size : YAPackageSize} :
    contentLen size = 0 ↔ size.bodySize.toNat = 0 := by
  have range := size.bodySize.toNat_lt
  by_cases small : size.bodySize.toNat < 2 ^ 31
  · rw [contentLen_eq_of_lt small]
    omega
  · rw [contentLen_eq_of_ge (by omega)]
    omega

/-- Whatever the sign of the length, the parser gets the body in front. -/
theorem evbufferPullup_body
    {body : List UInt8} {size : YAPackageSize} (rest : List UInt8)
    (announced : size.bodySize.toNat = body.length)
    (nonempty : 0 < body.length) :
    ∃ front,
      evbufferPullup (body ++ rest) (contentLen size) = some (body ++ front) ∧
        body.length ≤ sizeOfInt (contentLen size) := by
  have range := size.bodySize.toNat_lt
  by_cases small : body.length < 2 ^ 31
  · have content : contentLen size = body.length := by
      rw [contentLen_eq_of_lt (by omega), announced]
    refine ⟨[], ?_, ?_⟩
    · rw [content, List.append_nil, evbufferPullup_append nonempty]
    · rw [content, sizeOfInt_of_nonneg (by omega) (by omega)]
      simp
  · have content : contentLen size = body.length - 2 ^ 32 := by
      rw [contentLen_eq_of_ge (by omega), announced]
    -- a negative length stands for the whole buffer, and as a size_t for
    -- almost the whole address space
    refine ⟨rest, ?_, ?_⟩
    · have negative : contentLen size < 0 := by omega
      simp only [evbufferPullup, negative, if_true, List.length_append]
      rw [if_neg (by omega), List.take_of_length_le (by simp)]
    · rw [content, sizeOfInt]
      omega

/-- The contract of body parsing: a body of the type's shape is accepted with
its contents, any other one refused without parameters. -/
def BodyContract (F : Type) [CFloat F] (type : YAEventType)
    (header : YAEventHeader) (buffer body : List UInt8)
    (size : YAPackageSize) : Prop :=
  (∀ param : YAParam F, BodyEncoding type param body →
    ∃ buf,
      yaParseEvent buffer YAEvent.zero size =
        .ok { status := 0, buf,
              event := { header, param := some param, paramLen := param.size } }) ∧
  ((¬ ∃ param : YAParam F, BodyEncoding type param body) →
    ∃ buf,
      yaParseEvent (F := F) buffer YAEvent.zero size =
        .ok { status := -1, buf, event := YAEvent.zero })

/-- The header of a click request from the first client. -/
def clickHeader : YAEventHeader where
  type := 0x2
  direction := REQUEST
  index := 1
  uid := 1

private theorem clickHeader_encoding :
    HeaderEncoding clickHeader [0x94, 1, 2, 1, 1] :=
  serializeEventHeader_encoding clickHeader

/-- A body that is the single element nil is accepted as a press of the left
button. -/
theorem bodyContract_click_nil :
    ¬ BodyContract Rat .mouseClick clickHeader [0x94, 1, 2, 1, 1, 0xc0] [0xc0]
        { totalSize := 10, headerSize := 5, bodySize := 1 } := by
  rintro ⟨-, refuses⟩
  have malformed :
      ¬ ∃ param : YAParam Rat, BodyEncoding .mouseClick param [0xc0] := by
    rintro ⟨param, encoding⟩
    generalize bodyIs : [(0xc0 : UInt8)] = body at encoding
    cases encoding with
    | common _ request array lparam rparam _ arrayHeader first second =>
        have size := congrArg List.length bodyIs
        have := first.length_pos
        have := second.length_pos
        simp only [List.length_singleton, List.length_append] at size
        omega
  have accepted :
      yaParseEvent (F := Rat) [0x94, 1, 2, 1, 1, 0xc0] YAEvent.zero
          { totalSize := 10, headerSize := 5, bodySize := 1 } =
        .ok {
          status := 0
          buf := []
          event := {
            header := clickHeader
            param := some (.common { lparam := 0, rparam := 0 })
            paramLen := 8 } } := by
    rfl
  obtain ⟨buf, refused⟩ := refuses malformed
  rw [accepted] at refused
  cases refused

/-- The contract is met by exactly the well-formed bodies. -/
theorem bodyContract_iff
    {type : YAEventType} {header : YAEventHeader}
    {bytes body rest : List UInt8} {size : YAPackageSize}
    (encoding : HeaderEncoding header bytes) (range : header.InRange)
    (representable : header.IdsRepresentable) (kind : header.type = type.code)
    (headerAnnounced : size.headerSize.toNat = bytes.length)
    (bodyAnnounced : size.bodySize.toNat = body.length)
    (nonempty : 0 < body.length) :
    BodyContract F type header (bytes ++ (body ++ rest)) body size ↔
      ∃ param : YAParam F, BodyEncoding type param body := by
  obtain ⟨front, pulled, available⟩ :=
    evbufferPullup_body rest bodyAnnounced nonempty
  have content : contentLen size ≠ 0 := by
    intro zero
    have noBytes : sizeOfInt 0 = 0 := rfl
    rw [zero] at available
    omega
  have stage :
      bodyStage (bytes ++ (body ++ rest)) size =
        .ok (.body header (body ++ front) (body ++ rest)) := by
    rw [bodyStage,
      yaParseEventHeader_encoding encoding range representable headerAnnounced]
    simp only [except_ok_bind, headerAnnounced, evbufferDrain_append]
    rw [if_neg content, pulled]
    rfl
  have fits : body.length < 2 ^ 32 := by
    have := size.bodySize.toNat_lt
    omega
  constructor
  · rintro ⟨-, refuses⟩
    by_contra malformed
    obtain ⟨buf, refused⟩ := refuses malformed
    rw [yaParseEvent, stage] at refused
    simp only [except_ok_bind] at refused
    cases parsed : callParser (F := F) header (body ++ front)
        (sizeOfInt (contentLen size)) with
    | error fault => simp [parsed] at refused
    | ok result =>
        have accepted := callParser_status parsed
        simp [parsed, accepted] at refused
  · rintro ⟨param, wellFormed⟩
    refine ⟨?_, fun malformed => absurd ⟨param, wellFormed⟩ malformed⟩
    intro param wellFormed
    have parsed :=
      callParser_encoding front kind wellFormed fits available
    refine ⟨evbufferDrain (body ++ rest) (sizeOfInt (contentLen size)), ?_⟩
    rw [yaParseEvent, stage]
    simp only [except_ok_bind, parsed]
    rfl

/-- A click whose body is an array of two small integers. -/
theorem bodyContract_iff_click :
    BodyContract Rat .mouseClick clickHeader
        ([0x94, 1, 2, 1, 1] ++ ([0x92, 0, 2] ++ [0xff])) [0x92, 0, 2]
        { totalSize := 12, headerSize := 5, bodySize := 3 } ↔
      ∃ param : YAParam Rat, BodyEncoding .mouseClick param [0x92, 0, 2] :=
  bodyContract_iff clickHeader_encoding ⟨by decide, by decide⟩
    ⟨by decide, by decide⟩ rfl rfl rfl (by decide)

end MouseHero
