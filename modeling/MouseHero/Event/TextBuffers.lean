import MouseHero.Event.Codec
import MouseHero.Mpack.Formats

/-!
# The buffers of texts

Both parsers of texts allocate `str_len + 1` bytes, a sum of 32 bits, and
write `str_len` bytes and a NUL.  The length is the one the body declares,
whatever follows it.
-/

namespace MouseHero

open FaultM MessagePack BigEndian

variable {F : Type} [CFloat F]

/-- The value of `str_len` for a body: what `mpack_expect_str` returns. -/
def declaredLength (body : List UInt8) : Nat :=
  match (mpackExpectStr (fresh body)).1 with
  | .ok strLen => strLen
  | .error _ => 0

/-- The size in `malloc(str_len + 1)`. -/
def textAllocation (strLen : Nat) : Nat :=
  (strLen + 1) % 2 ^ 32

/-- The buffer holds every byte of the text, copied or zero, and the NUL at
`str_len`. -/
def TextBufferHolds (body : List UInt8) : Prop :=
  declaredLength body < textAllocation (declaredLength body) ∧
    ∀ index, index ≤ declaredLength body →
      index < textAllocation (declaredLength body)

/-- The encoding of the length for which the sum wraps to zero. -/
def longestHeader : List UInt8 :=
  [0xdb, 0xff, 0xff, 0xff, 0xff]

/-! ## Declared lengths -/

private theorem stringHeader_lt {count : Nat} {front : List UInt8}
    (header : StringHeader count front) : count < 2 ^ 32 := by
  cases header with
  | fixstr count small => omega
  | sized marker width count format bound =>
      simp only [stringFormats, List.mem_cons, Prod.mk.injEq,
        List.not_mem_nil, or_false] at format
      rcases format with ⟨-, rfl⟩ | ⟨-, rfl⟩ | ⟨-, rfl⟩ <;> omega

/-- Only the five bytes of the longest header declare the greatest length. -/
theorem stringHeader_greatest {front : List UInt8}
    (header : StringHeader (2 ^ 32 - 1) front) : front = longestHeader := by
  cases header with
  | fixstr count small => omega
  | sized marker width count format bound =>
      simp only [stringFormats, List.mem_cons, Prod.mk.injEq,
        List.not_mem_nil, or_false] at format
      rcases format with ⟨-, rfl⟩ | ⟨-, rfl⟩ | ⟨rfl, rfl⟩
      · omega
      · omega
      · decide

private theorem longestHeader_header : StringHeader (2 ^ 32 - 1) longestHeader :=
  .sized 0xdb 4 (2 ^ 32 - 1) (by decide) (by decide)

/-- A body declares the length of its header, and zero without one. -/
theorem mpackExpectStr_declared (body : List UInt8) :
    (∃ front rest,
        StringHeader (declaredLength body) front ∧ body = front ++ rest ∧
          mpackExpectStr (fresh body) =
            (.ok (declaredLength body), fresh rest)) ∨
      (declaredLength body = 0 ∧
        ∃ after, after.Failed ∧
          mpackExpectStr (fresh body) = (.ok 0, after)) := by
  rcases mpackExpectStr_parses.total body with
    ⟨count, front, rest, header, rfl⟩ | ⟨count, isBroken⟩
  · have consumed := mpackExpectStr_parses.whole count front rest header
    have declared : declaredLength (front ++ rest) = count := by
      rw [declaredLength, consumed]
    exact Or.inl ⟨front, rest, declared.symm ▸ header, rfl,
      declared.symm ▸ consumed⟩
  · obtain ⟨after, failed, returned⟩ :=
      mpackExpectStr_parses.broken count body isBroken
    obtain ⟨rfl, -⟩ := isBroken
    have declared : declaredLength body = 0 := by
      rw [declaredLength, returned]
    exact Or.inr ⟨declared, after, failed, returned⟩

theorem declaredLength_lt (body : List UInt8) :
    declaredLength body < 2 ^ 32 := by
  rcases mpackExpectStr_declared body with
    ⟨front, rest, header, -⟩ | ⟨declared, -⟩
  · exact stringHeader_lt header
  · omega

private theorem declaredLength_greatest_iff (body : List UInt8) :
    declaredLength body = 2 ^ 32 - 1 ↔ longestHeader <+: body := by
  constructor
  · intro greatest
    rcases mpackExpectStr_declared body with
      ⟨front, rest, header, rfl, -⟩ | ⟨declared, -⟩
    · rw [greatest] at header
      rw [stringHeader_greatest header]
      exact List.prefix_append longestHeader rest
    · omega
  · rintro ⟨rest, rfl⟩
    have consumed :=
      mpackExpectStr_parses.whole _ _ rest longestHeader_header
    rw [declaredLength, consumed]

/-! ## Allocations -/

theorem lt_textAllocation_iff {strLen : Nat} (word : strLen < 2 ^ 32) :
    strLen < textAllocation strLen ↔ strLen ≠ 2 ^ 32 - 1 := by
  unfold textAllocation
  omega

theorem textBufferHolds_iff (body : List UInt8) :
    TextBufferHolds body ↔ ¬ longestHeader <+: body := by
  have allocated := lt_textAllocation_iff (declaredLength_lt body)
  rw [← declaredLength_greatest_iff, ← ne_eq, ← allocated]
  constructor
  · rintro ⟨larger, -⟩
    exact larger
  · intro larger
    exact ⟨larger, fun index inside => Nat.lt_of_le_of_lt inside larger⟩

/-! ## What the parsers write -/

theorem mpackReadBytes_zero (reader : MpackReader) :
    mpackReadBytes 0 reader = (.ok [], reader) := by
  rw [mpackReadBytes, bind_of_ok (getState_apply _)]
  simp only [Nat.not_lt_zero, if_false]
  have nothing : loadBytes 0 0 reader = (.ok [], reader) := by
    simp [loadBytes]
  rw [bind_of_ok nothing]
  rfl

/-- As many bytes as asked for are written, zeros where the data is short. -/
theorem mpackReadBytes_length (count : Nat) (data : List UInt8) :
    ∃ text after,
      mpackReadBytes count (fresh data) = (.ok text, after) ∧
        text.length = count := by
  by_cases short : data.length < count
  · exact ⟨_, _, mpackReadBytes_short short, List.length_replicate⟩
  · have length : (data.take count).length = count := by
      rw [List.length_take]
      omega
    have read :=
      (mpackReadBytes_reads (data.take count)).fresh (data.drop count)
    rw [List.take_append_drop, length] at read
    exact ⟨_, _, read, length⟩

/-- The text of a body has the declared length, if the buffer can hold it. -/
theorem readText_declared (body : List UInt8) :
    (declaredLength body < textAllocation (declaredLength body) ∧
        ∃ text after,
          readText (fresh body) = (.ok (some text), after) ∧
            text.length = declaredLength body) ∨
      (¬ declaredLength body < textAllocation (declaredLength body) ∧
        ∃ after, readText (fresh body) = (.error .outOfBoundsWrite, after)) := by
  have read :
      ∃ middle,
        mpackExpectStr (fresh body) = (.ok (declaredLength body), middle) ∧
          ∃ text after,
            mpackReadBytes (declaredLength body) middle = (.ok text, after) ∧
              text.length = declaredLength body := by
    rcases mpackExpectStr_declared body with
      ⟨front, rest, -, -, consumed⟩ | ⟨declared, middle, -, returned⟩
    · exact ⟨fresh rest, consumed, mpackReadBytes_length _ rest⟩
    · rw [declared]
      exact ⟨middle, returned, [], middle, mpackReadBytes_zero middle, rfl⟩
  obtain ⟨middle, consumed, text, after, copied, length⟩ := read
  rw [readText, bind_of_ok consumed]
  by_cases holds : declaredLength body < textAllocation (declaredLength body)
  · have enough :
        ¬ (declaredLength body + 1) % 2 ^ 32 < declaredLength body + 1 := by
      unfold textAllocation at holds
      omega
    simp only [enough, if_false]
    rw [bind_of_ok copied]
    exact Or.inl ⟨holds, text, after, rfl, length⟩
  · have wraps :
        (declaredLength body + 1) % 2 ^ 32 < declaredLength body + 1 := by
      unfold textAllocation at holds
      omega
    simp only [wraps, if_true]
    exact Or.inr ⟨holds, middle, rfl⟩

/-- The parser delivers a text of the declared length, behind which it has
written the NUL. -/
def DeliversText (parse : ParserFn F) (make : CString → YAParam F)
    (body : List UInt8) : Prop :=
  ∃ text,
    text.length = declaredLength body ∧
      parse body body.length =
        .ok {
          status := 0
          outParam := some (make (some text))
          outLen := (make (some text)).size }

omit [CFloat F] in
theorem deliver_text (make : CString → YAParam F) (body : List UInt8) :
    (declaredLength body < textAllocation (declaredLength body) ∧
        DeliversText (deliver (readText >>= fun text => pure (make text)))
          make body) ∨
      (¬ declaredLength body < textAllocation (declaredLength body) ∧
        deliver (readText >>= fun text => pure (make text)) body body.length =
          .error .outOfBoundsWrite) := by
  have start : mpackReaderInitData body body.length = fresh body := rfl
  rcases readText_declared body with
    ⟨holds, text, after, read, length⟩ | ⟨wraps, after, failed⟩
  · refine Or.inl ⟨holds, text, length, ?_⟩
    rw [deliver, start, bind_of_ok read]
    rfl
  · refine Or.inr ⟨wraps, ?_⟩
    rw [deliver, start, bind_of_fault failed]

omit [CFloat F] in
theorem deliversText_of_not_longest {body : List UInt8}
    (shorter : ¬ longestHeader <+: body) (make : CString → YAParam F) :
    DeliversText (deliver (readText >>= fun text => pure (make text)))
      make body := by
  have holds := ((textBufferHolds_iff body).mpr shorter).1
  rcases deliver_text make body with ⟨-, delivers⟩ | ⟨wraps, -⟩
  · exact delivers
  · exact absurd holds wraps

omit [CFloat F] in
/-- The buffers of both parsers are large enough for the bodies that do not
begin with the longest header, and the parsers then write as many bytes as
declared. -/
theorem textBuffers_hold_iff (body : List UInt8) :
    (TextBufferHolds body ∧
      DeliversText (F := F) parseTextInputRequest
        (fun text => .textInput { text }) body ∧
      DeliversText (F := F) parseTextGetResponse
        (fun text => .inputGet { text }) body) ↔
      ¬ longestHeader <+: body := by
  constructor
  · rintro ⟨holds, -⟩
    exact (textBufferHolds_iff body).mp holds
  · intro shorter
    exact ⟨(textBufferHolds_iff body).mpr shorter,
      deliversText_of_not_longest shorter _,
      deliversText_of_not_longest shorter _⟩

/-- For the longest header nothing is allocated, and the first byte is written
outside. -/
theorem textBuffers_longestHeader :
    textAllocation (declaredLength longestHeader) = 0 ∧
      ¬ TextBufferHolds longestHeader ∧
      parseTextInputRequest (F := Rat) longestHeader 5 =
        .error .outOfBoundsWrite ∧
      parseTextGetResponse (F := Rat) longestHeader 5 =
        .error .outOfBoundsWrite := by
  have holds := textBufferHolds_iff longestHeader
  refine ⟨rfl, ?_, rfl, rfl⟩
  intro isHeld
  exact holds.mp isHeld List.prefix_rfl

end MouseHero
