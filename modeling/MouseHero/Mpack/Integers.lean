import MouseHero.Mpack.Formats

/-!
# Integers and arrays for any bytes

What the reader delivers where it expects a signed word or an array: the
encoding in front, or an error.
-/

namespace MouseHero

open FaultM BigEndian MessagePack

/-! ## Tags of integers -/

/-- An immediate tag that carries an integer is a fixint. -/
theorem tagLayout_immediate_integer {type : UInt8} {tag : MpackTag}
    {value : Int} (layout : tagLayout type = .immediate tag)
    (carries : tag.integer? = some value) : IntEncoding value [type] := by
  have byte : UInt8.ofNat type.toNat = type := UInt8.ofNat_toNat
  have bound := type.toNat_lt
  have range :
      (type.toNat < 0x80 ∧ tag = .uint type.toNat) ∨
        (0xe0 ≤ type.toNat ∧ tag = .int (type.toNat - 256)) := by
    unfold tagLayout at layout
    grind [MpackTag.integer?]
  rcases range with ⟨small, rfl⟩ | ⟨large, rfl⟩
  · cases carries
    have encoding := IntEncoding.positiveFixint type.toNat small
    rwa [byte] at encoding
  · cases carries
    have encoding :=
      IntEncoding.negativeFixint (256 - type.toNat) (by omega) (by omega)
    have isByte : 256 - (256 - type.toNat) = type.toNat := by omega
    have isValue : (-((256 - type.toNat : Nat) : Int)) = type.toNat - 256 := by
      omega
    rwa [isByte, byte, isValue] at encoding

private theorem tagLayout_sized_integer {type : UInt8} {width : Nat}
    {make : Nat → MpackTag} (layout : tagLayout type = .sized width make) :
    ((type, width) ∈ unsignedFormats ∧ make = .uint) ∨
      ((type, width) ∈ signedFormats ∧
        make = fun word => .int (signedWord width word)) ∨
      ∀ word, (make word).integer? = none := by
  have byte : UInt8.ofNat type.toNat = type := UInt8.ofNat_toNat
  unfold tagLayout at layout
  -- the fixed formats are not sized
  iterate 5 (split at layout; cases layout)
  split at layout <;> cases layout <;> rename_i isType <;>
    rw [isType] at byte <;> subst byte
  all_goals first
    | exact Or.inl ⟨by decide, rfl⟩
    | exact Or.inr (Or.inl ⟨by decide, rfl⟩)
    | exact Or.inr (Or.inr fun _ => rfl)

private theorem signedWord_residue {width word : Nat} (bound : word < 256 ^ width) :
    (signedWord width word % (256 ^ width : Nat)).toNat = word ∧
      -(256 ^ width : Nat) ≤ 2 * signedWord width word ∧
      2 * signedWord width word < (256 ^ width : Nat) := by
  unfold signedWord
  generalize 256 ^ width = modulus at *
  split
  · rw [Int.emod_eq_of_lt (by omega) (by omega)]
    omega
  · have residue : ((word : Int) - modulus) % modulus = word := by
      rw [Int.sub_emod_right, Int.emod_eq_of_lt (by omega) (by omega)]
    rw [residue]
    omega

/-- The bytes of a tag that carries an integer encode it. -/
theorem TagDenotes.integer {tag : MpackTag} {front : List UInt8} {value : Int}
    (denotes : TagDenotes tag front) (carries : tag.integer? = some value) :
    IntEncoding value front := by
  cases denotes with
  | immediate type tag layout => exact tagLayout_immediate_integer layout carries
  | sized marker word make layout =>
      have bound := ofBytes_lt word
      rcases tagLayout_sized_integer layout with
        ⟨format, rfl⟩ | ⟨format, rfl⟩ | other
      · cases carries
        have encoding := IntEncoding.unsigned marker _ _ format bound
        rwa [toBytes_ofBytes] at encoding
      · cases carries
        obtain ⟨residue, lower, upper⟩ := signedWord_residue bound
        have encoding := IntEncoding.signed marker _ _ format lower upper
        rwa [residue, toBytes_ofBytes] at encoding
      · rw [other] at carries
        cases carries

/-! ## Expectations -/

/-- A test that raises an error when it fails, in front of further parts. -/
theorem parses_check {Value : Type} {passes : Prop} [Decidable passes]
    {error : MpackError} (isError : error ≠ .ok) {next : ReaderM Value}
    {format : Format UInt8 Value} (nextParses : Parses next format) :
    Parses
      (if ¬ passes then do
        mpackReaderFlagError error
        next
      else next)
      ((Format.check passes).bind fun _ => format) := by
  have test :
      Parses (if ¬ passes then mpackReaderFlagError error else pure ⟨⟩)
        (Format.check passes) := by
    refine ⟨?_, ?_, ?_, ?_⟩
    · rintro _ front rest ⟨holds, rfl⟩
      rw [if_neg (not_not.mpr holds)]
      rfl
    · intro _ data fails
      have notPasses : ¬ passes := fails
      rw [if_pos notPasses]
      exact ⟨_, flagError_failed (fresh data) isError, rfl⟩
    · intro data
      by_cases holds : passes
      · exact Or.inl ⟨⟨⟩, [], data, ⟨holds, rfl⟩, rfl⟩
      · exact Or.inr ⟨⟨⟩, holds⟩
    · intro before failed
      split
      · exact ⟨_, flagError_failed before isError, rfl⟩
      · exact ⟨before, failed, rfl⟩
  have sequenced := parses_bind test fun _ => nextParses
  split at sequenced
  · rename_i fails
    rwa [if_pos fails]
  · rename_i holds
    rw [if_neg holds]
    exact sequenced

/-- The encodings of a signed word. -/
def I32Encoding (value : Int32) (bytes : List UInt8) : Prop :=
  IntEncoding value.toInt bytes

private theorem toInt_ofInt_of_range {value : Int} (lower : -2 ^ 31 ≤ value)
    (upper : value < 2 ^ 31) : (Int32.ofInt value).toInt = value :=
  Int32.toInt_ofInt_of_le lower upper

theorem mpackExpectI32_parses :
    Parses mpackExpectI32 (Format.part I32Encoding 0) := by
  apply parses_part
  · intro value front encoding
    have reads :=
      mpackExpectI32_encoding encoding value.le_toInt value.toInt_lt
    rwa [Int32.ofInt_toInt] at reads
  · intro data
    rcases mpackReadTag_outcome data with
      ⟨tag, front, rest, denotes, rfl⟩ | ⟨after, failed, returned⟩
    · rw [mpackExpectI32, bind_of_ok (denotes.reads.fresh rest)]
      cases tag with
      | uint value =>
          by_cases small : value < 2 ^ 31
          · have same := toInt_ofInt_of_range
              (show -2 ^ 31 ≤ (value : Int) by omega) (by omega)
            refine Or.inl ⟨Int32.ofInt value, front, rest, ?_, rfl⟩
            rw [I32Encoding, same]
            exact denotes.integer rfl
          · right
            simp only [if_neg small]
            exact expectFailure_failed 0 _
      | int value =>
          by_cases inside : -2 ^ 31 ≤ value ∧ value < 2 ^ 31
          · have same := toInt_ofInt_of_range inside.1 inside.2
            refine Or.inl ⟨Int32.ofInt value, front, rest, ?_, rfl⟩
            rw [I32Encoding, same]
            exact denotes.integer rfl
          · right
            simp only [if_neg inside]
            exact expectFailure_failed 0 _
      | _ => exact Or.inr (expectFailure_failed 0 _)
    · right
      rw [mpackExpectI32, bind_of_ok returned]
      exact expectFailure_failed 0 after
  · intro before failed
    exact ⟨before, failed, mpackExpectI32_error failed⟩

theorem mpackExpectArray_parses :
    Parses mpackExpectArray (Format.part ArrayHeader 0) := by
  apply parses_part
  · exact fun count front => mpackExpectArray_header
  · intro data
    rcases mpackReadTag_outcome data with
      ⟨tag, front, rest, denotes, rfl⟩ | ⟨after, failed, returned⟩
    · cases tag with
      | array count => exact Or.inl ⟨count, front, rest, denotes.array, rfl⟩
      | _ =>
          right
          rw [mpackExpectArray, bind_of_ok (denotes.reads.fresh rest)]
          exact expectFailure_failed 0 _
    · right
      rw [mpackExpectArray, bind_of_ok returned]
      exact expectFailure_failed 0 after
  · intro before failed
    rw [mpackExpectArray, bind_of_ok (mpackReadTag_failed failed)]
    exact expectFailure_failed 0 before

end MouseHero
