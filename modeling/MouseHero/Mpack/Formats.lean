import MouseHero.Library.Formats
import MouseHero.Mpack.Reads
import Mathlib.Data.List.TakeWhile

/-!
# Formats of the reader

What the reader delivers for any bytes.  It either consumes an encoding in
front, or gets into an error state, in which every further part is lost.
-/

namespace MouseHero

open FaultM BigEndian MessagePack

/-! ## Decoders -/

/-- A reader at the start of its data. -/
def fresh (data : List UInt8) : MpackReader :=
  mpackReaderInitData data data.length

theorem Reads.fresh {Result : Type} {computation : ReaderM Result}
    {value : Result} {front : List UInt8}
    (reads : Reads computation value front) (rest : List UInt8) :
    computation (fresh (front ++ rest)) = (.ok value, fresh rest) := by
  have consumed := reads rest (front ++ rest).length (by simp)
  rw [List.length_append, Nat.add_sub_cancel_left] at consumed
  rw [MouseHero.fresh, mpackReaderInitData, List.length_append]
  exact consumed

def MpackReader.Failed (reader : MpackReader) : Prop :=
  reader.error ≠ .ok

/-- The computation delivers what the format says, for any data. -/
structure Parses {Value : Type} (computation : ReaderM Value)
    (format : Format UInt8 Value) : Prop where
  whole :
    ∀ value front rest, format.whole value front →
      computation (fresh (front ++ rest)) = (.ok value, fresh rest)
  broken :
    ∀ value data, format.broken value data →
      ∃ after, after.Failed ∧ computation (fresh data) = (.ok value, after)
  total :
    ∀ data,
      (∃ value front rest, format.whole value front ∧ data = front ++ rest) ∨
        ∃ value, format.broken value data
  lost :
    ∀ before : MpackReader, before.Failed →
      ∃ after, after.Failed ∧ computation before = (.ok format.lost, after)

section Rules

variable {Value Next : Type}

theorem parses_nothing (value : Value) :
    Parses (pure value : ReaderM Value) (Format.nothing value) where
  whole := by
    rintro other front rest ⟨rfl, rfl⟩
    rfl
  broken := fun _ _ impossible => impossible.elim
  total := fun data => Or.inl ⟨value, [], data, ⟨rfl, rfl⟩, rfl⟩
  lost := fun before failed => ⟨before, failed, rfl⟩

theorem parses_bind {first : ReaderM Value} {format : Format UInt8 Value}
    {next : Value → ReaderM Next} {formats : Value → Format UInt8 Next}
    (firstParses : Parses first format)
    (nextParses : ∀ value, Parses (next value) (formats value)) :
    Parses (first >>= next) (format.bind formats) where
  whole := by
    rintro final whole rest ⟨value, front, back, isFirst, isNext, rfl⟩
    rw [List.append_assoc,
      bind_of_ok (firstParses.whole value front (back ++ rest) isFirst)]
    exact (nextParses value).whole final back rest isNext
  broken := by
    rintro final data (⟨value, isBroken, rfl⟩ |
      ⟨value, front, back, isFirst, isBroken, rfl⟩)
    · obtain ⟨middle, failed, returned⟩ :=
        firstParses.broken value data isBroken
      rw [bind_of_ok returned]
      exact (nextParses value).lost middle failed
    · rw [bind_of_ok (firstParses.whole value front back isFirst)]
      exact (nextParses value).broken final back isBroken
  total := by
    intro data
    rcases firstParses.total data with
      ⟨value, front, rest, isFirst, rfl⟩ | ⟨value, isBroken⟩
    · rcases (nextParses value).total rest with
        ⟨final, middle, back, isNext, rfl⟩ | ⟨final, isBroken⟩
      · exact Or.inl ⟨final, front ++ middle, back,
          ⟨value, front, middle, isFirst, isNext, rfl⟩, by simp⟩
      · exact Or.inr ⟨final,
          Or.inr ⟨value, front, rest, isFirst, isBroken, rfl⟩⟩
    · exact Or.inr ⟨_, Or.inl ⟨value, isBroken, rfl⟩⟩
  lost := by
    intro before failed
    obtain ⟨middle, stillFailed, returned⟩ := firstParses.lost before failed
    rw [bind_of_ok returned]
    exact (nextParses format.lost).lost middle stillFailed

/-- A single part, that is consumed or leads to an error. -/
theorem parses_part {computation : ReaderM Value}
    {denotes : Value → List UInt8 → Prop} {default : Value}
    (reads : ∀ value front, denotes value front →
      Reads computation value front)
    (outcome : ∀ data,
      (∃ value front rest, denotes value front ∧ data = front ++ rest) ∨
        ∃ after, after.Failed ∧
          computation (fresh data) = (.ok default, after))
    (lost : ∀ before : MpackReader, before.Failed →
      ∃ after, after.Failed ∧ computation before = (.ok default, after)) :
    Parses computation (Format.part denotes default) where
  whole := fun value front rest isWhole =>
    (reads value front isWhole).fresh rest
  broken := by
    rintro value data ⟨rfl, undecodable⟩
    rcases outcome data with ⟨other, front, rest, isWhole, split⟩ | failing
    · exact absurd split (undecodable other front rest isWhole)
    · exact failing
  total := Format.part_total denotes default
  lost := lost

theorem parses_repeated {computation : ReaderM Value}
    {format : Format UInt8 Value} {many : Nat → ReaderM (List Value)}
    (parses : Parses computation format) (none : many 0 = pure [])
    (more : ∀ count, many (count + 1) = do
      let value ← computation
      let values ← many count
      return value :: values)
    (count : Nat) : Parses (many count) (format.repeated count) := by
  induction count with
  | zero =>
      rw [none]
      exact parses_nothing []
  | succ count inductionHypothesis =>
      rw [more]
      exact parses_bind parses fun value =>
        parses_bind inductionHypothesis fun values =>
          parses_nothing (value :: values)

end Rules

/-! ## Errors -/

theorem flagError_failed (reader : MpackReader) {error : MpackError}
    (isError : error ≠ .ok) : (reader.flagError error).Failed := by
  unfold MpackReader.flagError MpackReader.Failed
  split
  · exact isError
  · assumption

theorem mpackReadTag_failed {reader : MpackReader} (failed : reader.Failed) :
    mpackReadTag reader = (.ok .nil, reader) := by
  have isError : reader.error ≠ .ok := failed
  rw [mpackReadTag, bind_of_ok (getState_apply _)]
  simp [isError]

theorem mpackExpectNative_failed {reader : MpackReader}
    (failed : reader.Failed) (width : Nat) :
    mpackExpectNative width reader = (.ok 0, reader) := by
  have isError : reader.error ≠ .ok := failed
  rw [mpackExpectNative, bind_of_ok (getState_apply _)]
  simp [isError]

theorem mpackReaderEnsure_short {count : Nat} {data : List UInt8}
    (short : data.length < count) :
    mpackReaderEnsure count (fresh data) =
      (.ok false, (fresh data).flagError .invalid) := by
  have unavailable : ¬ count ≤ (fresh data).left := Nat.not_le.mpr short
  rw [mpackReaderEnsure, if_neg unavailable]

/-! ## Tags -/

/-- The bytes of a tag. -/
inductive TagDenotes : MpackTag → List UInt8 → Prop
  | immediate (type : UInt8) (tag : MpackTag) :
      tagLayout type = .immediate tag →
      TagDenotes tag [type]
  | sized (marker : UInt8) (word : List UInt8) (make : Nat → MpackTag) :
      tagLayout marker = .sized word.length make →
      TagDenotes (make (ofBytes word)) (marker :: word)

theorem TagDenotes.reads {tag : MpackTag} {front : List UInt8}
    (denotes : TagDenotes tag front) : Reads mpackReadTag tag front := by
  cases denotes with
  | immediate type tag layout => exact mpackReadTag_immediate layout
  | sized marker word make layout =>
      have reads := mpackReadTag_sized marker make layout (ofBytes_lt word)
      rwa [toBytes_ofBytes] at reads

theorem mpackReadTag_of_none {data : List UInt8} {after : MpackReader}
    (parsed : mpackParseTag (fresh data) = (.ok none, after)) :
    mpackReadTag (fresh data) = (.ok .nil, after) := by
  have isFresh : (fresh data).error = .ok := rfl
  rw [mpackReadTag, bind_of_ok (getState_apply _)]
  simp only [isFresh, ne_eq, not_true_eq_false, if_false]
  rw [bind_of_ok parsed]
  rfl

theorem mpackParseTag_nil :
    mpackParseTag (fresh []) =
      (.ok none, (fresh []).flagError .invalid) :=
  rfl

theorem mpackParseTag_short {type : UInt8} {rest : List UInt8} {width : Nat}
    {make : Nat → MpackTag} (layout : tagLayout type = .sized width make)
    (short : rest.length < width) :
    mpackParseTag (fresh (type :: rest)) =
      (.ok none, (fresh (type :: rest)).flagError .invalid) := by
  have loaded := loadBytes_front [type] rest (rest.length + 1) .ok
  have lacking :
      mpackReaderEnsure (width + 1) (fresh (type :: rest)) =
        (.ok false, (fresh (type :: rest)).flagError .invalid) :=
    mpackReaderEnsure_short (by simpa using short)
  rw [List.length_singleton, List.singleton_append] at loaded
  rw [fresh, mpackReaderInitData, List.length_cons] at lacking ⊢
  rw [mpackParseTag, bind_of_ok (mpackReaderEnsure_of_le (by omega))]
  simp only [if_true]
  rw [bind_of_ok loaded]
  simp only [List.headD_cons, layout]
  rw [bind_of_ok lacking]
  rfl

theorem mpackParseTag_unusable {type : UInt8} {rest : List UInt8}
    {error : MpackError} (layout : tagLayout type = .unusable error) :
    mpackParseTag (fresh (type :: rest)) =
      (.ok none, (fresh (type :: rest)).flagError error) := by
  have loaded := loadBytes_front [type] rest (rest.length + 1) .ok
  rw [List.length_singleton, List.singleton_append] at loaded
  rw [fresh, mpackReaderInitData, List.length_cons, mpackParseTag,
    bind_of_ok (mpackReaderEnsure_of_le (by omega))]
  simp only [if_true]
  rw [bind_of_ok loaded]
  simp only [List.headD_cons, layout]
  rfl

private theorem unusable_error {type : UInt8} {error : MpackError}
    (layout : tagLayout type = .unusable error) : error ≠ .ok := by
  rintro rfl
  unfold tagLayout at layout
  grind

theorem mpackReadTag_outcome (data : List UInt8) :
    (∃ tag front rest, TagDenotes tag front ∧ data = front ++ rest) ∨
      ∃ after, after.Failed ∧
        mpackReadTag (fresh data) = (.ok .nil, after) := by
  have invalid : MpackError.invalid ≠ .ok := by decide
  cases data with
  | nil =>
      exact Or.inr ⟨_, flagError_failed _ invalid,
        mpackReadTag_of_none mpackParseTag_nil⟩
  | cons type rest =>
      cases layout : tagLayout type with
      | immediate tag =>
          exact Or.inl ⟨tag, [type], rest, .immediate type tag layout, rfl⟩
      | sized width make =>
          by_cases enough : width ≤ rest.length
          · have length : (rest.take width).length = width := by
              rw [List.length_take]
              omega
            refine Or.inl ⟨_, type :: rest.take width, rest.drop width,
              .sized type (rest.take width) make (by rw [length, layout]), ?_⟩
            rw [List.cons_append, List.take_append_drop]
          · exact Or.inr ⟨_, flagError_failed _ invalid,
              mpackReadTag_of_none
                (mpackParseTag_short layout (Nat.not_le.mp enough))⟩
      | unusable error =>
          exact Or.inr ⟨_, flagError_failed _ (unusable_error layout),
            mpackReadTag_of_none (mpackParseTag_unusable layout)⟩

/-! ## Headers -/

private theorem tagLayout_immediate_map {type : UInt8} {count : Nat}
    (layout : tagLayout type = .immediate (.map count)) :
    count < 16 ∧ type = UInt8.ofNat (0x80 + count) := by
  have range :
      0x80 ≤ type.toNat ∧ type.toNat < 0x90 ∧ count = type.toNat % 0x10 := by
    unfold tagLayout at layout
    grind
  obtain ⟨lower, upper, isCount⟩ := range
  have value : 0x80 + count = type.toNat := by omega
  exact ⟨by omega, by rw [value, UInt8.ofNat_toNat]⟩

private theorem tagLayout_immediate_array {type : UInt8} {count : Nat}
    (layout : tagLayout type = .immediate (.array count)) :
    count < 16 ∧ type = UInt8.ofNat (0x90 + count) := by
  have range :
      0x90 ≤ type.toNat ∧ type.toNat < 0xa0 ∧ count = type.toNat % 0x10 := by
    unfold tagLayout at layout
    grind
  obtain ⟨lower, upper, isCount⟩ := range
  have value : 0x90 + count = type.toNat := by omega
  exact ⟨by omega, by rw [value, UInt8.ofNat_toNat]⟩

theorem tagLayout_sized_cases {type : UInt8} {width : Nat}
    {make : Nat → MpackTag} (layout : tagLayout type = .sized width make) :
    ((type, width) ∈ mapFormats ∧ make = .map) ∨
      ((type, width) ∈ arrayFormats ∧ make = .array) ∨
      ∀ word,
        (∀ count, make word ≠ .map count) ∧
          ∀ count, make word ≠ .array count := by
  have byte : UInt8.ofNat type.toNat = type := UInt8.ofNat_toNat
  unfold tagLayout at layout
  -- the fixed formats are not sized
  iterate 5 (split at layout; cases layout)
  split at layout <;> cases layout <;> rename_i isType <;>
    rw [isType] at byte <;> subst byte
  all_goals first
    | exact Or.inl ⟨by decide, rfl⟩
    | exact Or.inr (Or.inl ⟨by decide, rfl⟩)
    | exact Or.inr (Or.inr fun word => ⟨nofun, nofun⟩)

theorem TagDenotes.map {count : Nat} {front : List UInt8}
    (denotes : TagDenotes (.map count) front) : MapHeader count front := by
  generalize isTag : MpackTag.map count = tag at denotes
  cases denotes with
  | immediate type tag layout =>
      subst isTag
      obtain ⟨small, rfl⟩ := tagLayout_immediate_map layout
      exact .fixmap count small
  | sized marker word make layout =>
      rcases tagLayout_sized_cases layout with
        ⟨format, rfl⟩ | ⟨format, rfl⟩ | other
      · cases isTag
        have header := MapHeader.sized marker _ _ format (ofBytes_lt word)
        rwa [toBytes_ofBytes] at header
      · cases isTag
      · exact absurd isTag.symm ((other _).1 count)

theorem TagDenotes.array {count : Nat} {front : List UInt8}
    (denotes : TagDenotes (.array count) front) : ArrayHeader count front := by
  generalize isTag : MpackTag.array count = tag at denotes
  cases denotes with
  | immediate type tag layout =>
      subst isTag
      obtain ⟨small, rfl⟩ := tagLayout_immediate_array layout
      exact .fixarray count small
  | sized marker word make layout =>
      rcases tagLayout_sized_cases layout with
        ⟨format, rfl⟩ | ⟨format, rfl⟩ | other
      · cases isTag
      · cases isTag
        have header := ArrayHeader.sized marker _ _ format (ofBytes_lt word)
        rwa [toBytes_ofBytes] at header
      · exact absurd isTag.symm ((other _).2 count)

private theorem tagLayout_fixmap {count : Nat} (small : count < 16) :
    tagLayout (UInt8.ofNat (0x80 + count)) = .immediate (.map count) := by
  have byte : (UInt8.ofNat (0x80 + count)).toNat = 0x80 + count := by
    simp only [UInt8.toNat_ofNat']
    omega
  have encoded : (0x80 + count) % 0x10 = count := by omega
  simp only [tagLayout, byte]
  rw [if_neg (by omega), if_pos (by omega), encoded]

theorem mpackReadTag_map {count : Nat} {bytes : List UInt8}
    (header : MapHeader count bytes) :
    Reads mpackReadTag (.map count) bytes := by
  cases header with
  | fixmap count small =>
      exact mpackReadTag_immediate (tagLayout_fixmap small)
  | sized marker width count format bound =>
      have layout : tagLayout marker = .sized width .map := by
        simp only [mapFormats, List.mem_cons, Prod.mk.injEq,
          List.not_mem_nil, or_false] at format
        rcases format with ⟨rfl, rfl⟩ | ⟨rfl, rfl⟩ <;> rfl
      exact mpackReadTag_sized _ _ layout bound

theorem mpackExpectMap_header {count : Nat} {bytes : List UInt8}
    (header : MapHeader count bytes) : Reads mpackExpectMap count bytes := by
  intro rest left available
  have consumed := mpackReadTag_map header rest left available
  rw [mpackExpectMap, bind_of_ok consumed]
  rfl

theorem expectFailure_failed {Result : Type} (value : Result)
    (reader : MpackReader) :
    ∃ after, after.Failed ∧ expectFailure value reader = (.ok value, after) :=
  ⟨_, flagError_failed reader (by decide), expectFailure_apply value reader⟩

theorem mpackExpectMap_parses :
    Parses mpackExpectMap (Format.part MapHeader 0) := by
  apply parses_part
  · exact fun count front => mpackExpectMap_header
  · intro data
    rcases mpackReadTag_outcome data with
      ⟨tag, front, rest, denotes, rfl⟩ | ⟨after, failed, returned⟩
    · cases tag with
      | map count => exact Or.inl ⟨count, front, rest, denotes.map, rfl⟩
      | _ =>
          right
          rw [mpackExpectMap, bind_of_ok (denotes.reads.fresh rest)]
          exact expectFailure_failed 0 _
    · right
      rw [mpackExpectMap, bind_of_ok returned]
      exact expectFailure_failed 0 after
  · intro before failed
    rw [mpackExpectMap, bind_of_ok (mpackReadTag_failed failed)]
    exact expectFailure_failed 0 before

/-! ## Texts -/

theorem mpackExpectNative_short {width : Nat} {data : List UInt8}
    (short : data.length < width) :
    mpackExpectNative width (fresh data) =
      (.ok 0, (fresh data).flagError .invalid) := by
  have isFresh : (fresh data).error = .ok := rfl
  rw [mpackExpectNative, bind_of_ok (getState_apply _)]
  simp only [isFresh, ne_eq, not_true_eq_false, if_false]
  rw [bind_of_ok (mpackReaderEnsure_short short)]
  rfl

theorem mpackExpectNative_outcome (width : Nat) (data : List UInt8) :
    (∃ word rest, word.length = width ∧ data = word ++ rest) ∨
      ∃ after, after.Failed ∧
        mpackExpectNative width (fresh data) = (.ok 0, after) := by
  by_cases enough : width ≤ data.length
  · refine Or.inl ⟨data.take width, data.drop width, ?_, ?_⟩
    · rw [List.length_take]
      omega
    · rw [List.take_append_drop]
  · exact Or.inr ⟨_, flagError_failed _ (by decide),
      mpackExpectNative_short (Nat.not_le.mp enough)⟩

private theorem stringHeader_outcome {marker : UInt8} {width : Nat}
    (format : (marker, width) ∈ stringFormats) (data : List UInt8) :
    (∃ count front rest,
        StringHeader count (marker :: front) ∧ data = front ++ rest) ∨
      ∃ after, after.Failed ∧
        mpackExpectNative width (fresh data) = (.ok 0, after) := by
  rcases mpackExpectNative_outcome width data with
    ⟨word, rest, length, rfl⟩ | failing
  · left
    have header :=
      StringHeader.sized marker width _ format (length ▸ ofBytes_lt word)
    rw [← length, toBytes_ofBytes] at header
    exact ⟨_, word, rest, header, rfl⟩
  · exact Or.inr failing

theorem mpackExpectStr_parses :
    Parses mpackExpectStr (Format.part StringHeader 0) := by
  apply parses_part
  · exact fun count front => mpackExpectStr_header
  · intro data
    rcases mpackExpectNative_outcome 1 data with
      ⟨word, rest, length, rfl⟩ | ⟨after, failed, returned⟩
    · obtain ⟨type, rfl⟩ := List.length_eq_one_iff.mp length
      have byte : ofBytes [type] = type.toNat := by simp [ofBytes]
      have value : UInt8.ofNat type.toNat = type := UInt8.ofNat_toNat
      have consumed := (mpackExpectNative_reads [type]).fresh rest
      rw [List.length_singleton, byte] at consumed
      rw [mpackExpectStr, bind_of_ok consumed]
      have sized {marker : UInt8} {width : Nat} (same : marker = type)
          (format : (marker, width) ∈ stringFormats) :
          (∃ count front back,
              StringHeader count front ∧ [type] ++ rest = front ++ back) ∨
            ∃ after, after.Failed ∧
              mpackExpectNative width (fresh rest) = (.ok 0, after) := by
        rcases stringHeader_outcome format rest with
          ⟨count, front, back, header, rfl⟩ | failing
        · exact Or.inl ⟨count, marker :: front, back, header, by simp [same]⟩
        · exact Or.inr failing
      by_cases fixstr : type.toNat / 0x20 = 5
      · have header := StringHeader.fixstr (type.toNat % 0x20) (by omega)
        have whole : 0xa0 + type.toNat % 0x20 = type.toNat := by omega
        rw [whole, value] at header
        exact Or.inl ⟨_, [type], rest, header, rfl⟩
      · rw [if_neg fixstr]
        split
        · rename_i isType
          exact sized (by rw [← value, isType]; rfl)
            (show ((0xd9 : UInt8), 1) ∈ stringFormats by decide)
        split
        · rename_i isType
          exact sized (by rw [← value, isType]; rfl)
            (show ((0xda : UInt8), 2) ∈ stringFormats by decide)
        split
        · rename_i isType
          exact sized (by rw [← value, isType]; rfl)
            (show ((0xdb : UInt8), 4) ∈ stringFormats by decide)
        · exact Or.inr (expectFailure_failed 0 _)
    · right
      rw [mpackExpectStr, bind_of_ok returned]
      exact expectFailure_failed 0 after
  · intro before failed
    rw [mpackExpectStr, bind_of_ok (mpackExpectNative_failed failed 1)]
    exact expectFailure_failed 0 before

/-! ## C strings -/

private theorem isContinuation_ne_zero {byte : UInt8}
    (continuation : isContinuation byte = true) : byte ≠ 0 := by
  rintro rfl
  exact absurd continuation (by decide)

theorem zero_notMem_of_utf8 {str : List UInt8}
    (valid : mpackUtf8CheckNoNull str = true) : 0 ∉ str := by
  have notNull {lead : UInt8}
      (notNul : ¬ (¬ false = true ∧ lead = 0)) : 0 ≠ lead :=
    fun isNul => notNul ⟨by decide, isNul.symm⟩
  have notContinuation {byte : UInt8}
      (continuation : isContinuation byte = true) : 0 ≠ byte :=
    (isContinuation_ne_zero continuation).symm
  unfold mpackUtf8CheckNoNull at valid
  fun_induction mpackUtf8CheckImpl false str with
  | case1 => exact List.not_mem_nil
  | case3 lead rest notNul ascii inductionHypothesis =>
      exact List.not_mem_cons_of_ne_of_not_mem (notNull notNul)
        (inductionHypothesis valid)
  | case4 lead notNul notAscii two cont rest z inductionHypothesis =>
      simp only [Bool.and_eq_true] at valid
      obtain ⟨⟨isCont, -⟩, later⟩ := valid
      simp [notNull notNul, notContinuation isCont,
        inductionHypothesis later]
  | case6 lead notNul notAscii notTwo three cont1 cont2 rest z
      inductionHypothesis =>
      simp only [Bool.and_eq_true] at valid
      obtain ⟨⟨⟨⟨isCont1, isCont2⟩, -⟩, -⟩, later⟩ := valid
      simp [notNull notNul, notContinuation isCont1, notContinuation isCont2,
        inductionHypothesis later]
  | case8 lead notNul notAscii notTwo notThree four cont1 cont2 cont3 rest z
      inductionHypothesis =>
      simp only [Bool.and_eq_true] at valid
      obtain ⟨⟨⟨⟨⟨isCont1, isCont2⟩, isCont3⟩, -⟩, -⟩, later⟩ := valid
      simp [notNull notNul, notContinuation isCont1, notContinuation isCont2,
        notContinuation isCont3, inductionHypothesis later]
  | _ => cases valid

/-- The bytes of a string that fits into a buffer. -/
def CstrBytes (bufferSize byteCount : Nat) (text front : List UInt8) : Prop :=
  text = front ∧ front.length = byteCount ∧ byteCount < bufferSize ∧
    mpackUtf8CheckNoNull front = true

theorem mpackReadCstrUnchecked_failed {reader : MpackReader}
    (failed : reader.Failed) (bufferSize byteCount : Nat) :
    mpackReadCstrUnchecked bufferSize byteCount reader = (.ok [], reader) := by
  have isError : reader.error ≠ .ok := failed
  rw [mpackReadCstrUnchecked, bind_of_ok (getState_apply _)]
  simp [isError]

theorem mpackReadUtf8Cstr_of_failed {bufferSize byteCount : Nat}
    {before after : MpackReader} {buf : List UInt8} (failed : after.Failed)
    (noText : buf.takeWhile (· ≠ 0) = [])
    (returned :
      mpackReadCstrUnchecked bufferSize byteCount before = (.ok buf, after)) :
    mpackReadUtf8Cstr bufferSize byteCount before = (.ok [], after) := by
  have isError : after.error ≠ .ok := failed
  rw [mpackReadUtf8Cstr, bind_of_ok returned, bind_of_ok (getState_apply _)]
  simp only [isError, false_and, if_false, noText]
  rfl

theorem mpackReadCstrUnchecked_tooBig {bufferSize byteCount : Nat}
    (tooBig : bufferSize - 1 < byteCount) (data : List UInt8) :
    mpackReadCstrUnchecked bufferSize byteCount (fresh data) =
      (.ok [], (fresh data).flagError .tooBig) := by
  have isFresh : (fresh data).error = .ok := rfl
  rw [mpackReadCstrUnchecked, bind_of_ok (getState_apply _)]
  simp only [isFresh, ne_eq, not_true_eq_false, if_false, tooBig, if_true]
  rfl

theorem mpackReadCstrUnchecked_fits {bufferSize byteCount : Nat}
    (fits : ¬ bufferSize - 1 < byteCount) (data : List UInt8) :
    mpackReadCstrUnchecked bufferSize byteCount (fresh data) =
      mpackReadBytes byteCount (fresh data) := by
  have isFresh : (fresh data).error = .ok := rfl
  rw [mpackReadCstrUnchecked, bind_of_ok (getState_apply _)]
  simp only [isFresh, ne_eq, not_true_eq_false, if_false, fits]

theorem mpackReadBytes_short {count : Nat} {data : List UInt8}
    (short : data.length < count) :
    mpackReadBytes count (fresh data) =
      (.ok (List.replicate count 0), (fresh data).flagError .invalid) := by
  have isFresh : (fresh data).error = .ok := rfl
  have lacking : (fresh data).left < count := short
  rw [mpackReadBytes, bind_of_ok (getState_apply _)]
  simp only [lacking, isFresh, if_true]
  rfl

/-- The string in the buffer, whether it is valid or not. -/
theorem mpackReadUtf8Cstr_bytes {bufferSize : Nat} (front : List UInt8)
    (fits : front.length < bufferSize) (rest : List UInt8) :
    mpackReadUtf8Cstr bufferSize front.length (fresh (front ++ rest)) =
      if mpackUtf8CheckNoNull front then (.ok front, fresh rest)
      else (.ok [], (fresh rest).flagError .type) := by
  have read :
      mpackReadCstrUnchecked bufferSize front.length (fresh (front ++ rest)) =
        (.ok front, fresh rest) := by
    rw [mpackReadCstrUnchecked_fits (by omega)]
    exact (mpackReadBytes_reads front).fresh rest
  have isFresh : (fresh rest).error = .ok := rfl
  rw [mpackReadUtf8Cstr, bind_of_ok read, bind_of_ok (getState_apply _)]
  cases valid : mpackUtf8CheckNoNull front with
  | false =>
      simp only [isFresh]
      rfl
  | true =>
      have noNul := zero_notMem_of_utf8 valid
      have text : front.takeWhile (· ≠ 0) = front := by
        rw [List.takeWhile_eq_self_iff]
        intro byte member
        simpa using fun isNul : byte = 0 => noNul (isNul ▸ member)
      simp only [isFresh, not_true_eq_false, and_false, if_false, if_true,
        text]
      rfl

theorem mpackReadUtf8Cstr_parses {bufferSize : Nat} (positive : 0 < bufferSize)
    (byteCount : Nat) :
    Parses (mpackReadUtf8Cstr bufferSize byteCount)
      (Format.part (CstrBytes bufferSize byteCount) []) where
  whole := by
    rintro text front rest ⟨rfl, rfl, fits, valid⟩
    rw [mpackReadUtf8Cstr_bytes _ fits, if_pos valid]
  broken := by
    rintro value data ⟨rfl, undecodable⟩
    by_cases fits : bufferSize - 1 < byteCount
    · have failed : ((fresh data).flagError .tooBig).Failed :=
        flagError_failed _ (by decide)
      exact ⟨_, failed, mpackReadUtf8Cstr_of_failed failed rfl
        (mpackReadCstrUnchecked_tooBig fits data)⟩
    by_cases enough : byteCount ≤ data.length
    · have length : (data.take byteCount).length = byteCount := by
        rw [List.length_take]
        omega
      have short : (data.take byteCount).length < bufferSize := by omega
      have returned := mpackReadUtf8Cstr_bytes (data.take byteCount) short
        (data.drop byteCount)
      rw [List.take_append_drop, length] at returned
      rw [returned]
      split
      · rename_i valid
        exact absurd (List.take_append_drop byteCount data).symm
          (undecodable _ _ _ ⟨rfl, length, by omega, valid⟩)
      · exact ⟨_, flagError_failed _ (by decide), rfl⟩
    · have noText : (List.replicate byteCount (0 : UInt8)).takeWhile (· ≠ 0) =
          [] := by
        cases byteCount <;> simp [List.replicate_succ]
      have failed : ((fresh data).flagError .invalid).Failed :=
        flagError_failed _ (by decide)
      refine ⟨_, failed, mpackReadUtf8Cstr_of_failed failed noText ?_⟩
      rw [mpackReadCstrUnchecked_fits fits,
        mpackReadBytes_short (Nat.not_le.mp enough)]
  total := Format.part_total _ []
  lost := by
    intro before failed
    exact ⟨before, failed, mpackReadUtf8Cstr_of_failed failed rfl
      (mpackReadCstrUnchecked_failed failed bufferSize byteCount)⟩

/-- A string for a buffer. -/
def cstrFormat (bufferSize : Nat) : Format UInt8 (List UInt8) :=
  (Format.part StringHeader 0).bind fun byteCount =>
    Format.part (CstrBytes bufferSize byteCount) []

theorem mpackExpectUtf8Cstr_parses {bufferSize : Nat}
    (positive : 0 < bufferSize) :
    Parses (mpackExpectUtf8Cstr bufferSize) (cstrFormat bufferSize) :=
  parses_bind mpackExpectStr_parses fun byteCount =>
    mpackReadUtf8Cstr_parses positive byteCount

/-- A string that is read is one that the buffer can hold. -/
theorem cstrFormat_whole {bufferSize : Nat} {text front : List UInt8}
    (whole : (cstrFormat bufferSize).whole text front) :
    StringEncoding text front ∧ text.length < bufferSize ∧
      mpackUtf8CheckNoNull text = true := by
  obtain ⟨count, header, bytes, isHeader, ⟨rfl, rfl, fits, valid⟩, rfl⟩ :=
    whole
  exact ⟨⟨header, isHeader, rfl⟩, fits, valid⟩

theorem cstrFormat_ensures {bufferSize : Nat} (positive : 0 < bufferSize) :
    (cstrFormat bufferSize).Ensures fun text =>
      0 ∉ text ∧ text.length < bufferSize where
  whole := by
    intro text front whole
    obtain ⟨-, fits, valid⟩ := cstrFormat_whole whole
    exact ⟨zero_notMem_of_utf8 valid, fits⟩
  broken := by
    rintro text data (⟨count, -, rfl⟩ | ⟨count, header, rest, -, ⟨rfl, -⟩, -⟩)
    · exact ⟨List.not_mem_nil, positive⟩
    · exact ⟨List.not_mem_nil, positive⟩
  lost := ⟨List.not_mem_nil, positive⟩

end MouseHero
