import MouseHero.Library.Scanning

/-!
# UTF-8 and tests of single bytes

A text is encoded character by character.  A test that gives the same answer for
all bytes of a character scans the bytes as it scans the characters.
-/

namespace MouseHero

open Scanning

/-- The UTF-8 encoding of a text. -/
def utf8 (chars : List Char) : List UInt8 :=
  chars.flatMap String.utf8EncodeChar

section Encoding

variable {chars rest : List Char} {char : Char}

@[simp]
theorem utf8_nil : utf8 [] = [] :=
  rfl

@[simp]
theorem utf8_cons (char : Char) (chars : List Char) :
    utf8 (char :: chars) = String.utf8EncodeChar char ++ utf8 chars :=
  List.flatMap_cons

@[simp]
theorem utf8_append (chars rest : List Char) :
    utf8 (chars ++ rest) = utf8 chars ++ utf8 rest :=
  List.flatMap_append

theorem utf8_inside (part : rest <:+: chars) : utf8 rest <:+: utf8 chars := by
  obtain ⟨front, back, rfl⟩ := part
  exact ⟨utf8 front, utf8 back, by simp⟩

theorem utf8EncodeChar_ascii (ascii : char.toNat < 128) :
    String.utf8EncodeChar char = [UInt8.ofNat char.toNat] := by
  have small : char.val.toNat ≤ 127 := Nat.le_of_lt_succ ascii
  simp only [String.utf8EncodeChar, if_pos small]
  rfl

/-- The other characters have no byte that is a character of its own. -/
theorem utf8EncodeChar_high (high : 128 ≤ char.toNat) :
    ∀ byte ∈ String.utf8EncodeChar char, 128 ≤ byte.toNat := by
  have large : ¬ char.val.toNat ≤ 127 := Nat.not_le.mpr high
  have marked (value marker : Nat) (fits : value < 64 ∨ value < 32 ∨ value < 16)
      (isMarker : marker = 128 ∨ marker = 192 ∧ value < 32 ∨
        marker = 224 ∧ value < 16 ∨ marker = 240 ∧ value < 8) :
      128 ≤ (UInt8.ofNat (value + marker)).toNat := by
    rw [UInt8.toNat_ofNat']
    omega
  intro byte member
  simp only [String.utf8EncodeChar, if_neg large] at member
  split at member
  · simp only [List.mem_cons, List.not_mem_nil, or_false] at member
    rcases member with rfl | rfl
    all_goals exact marked _ _ (by omega) (by omega)
  · split at member
    · simp only [List.mem_cons, List.not_mem_nil, or_false] at member
      rcases member with rfl | rfl | rfl
      all_goals exact marked _ _ (by omega) (by omega)
    · simp only [List.mem_cons, List.not_mem_nil, or_false] at member
      rcases member with rfl | rfl | rfl | rfl
      all_goals exact marked _ _ (by omega) (by omega)

/-- No encoding of a character is the beginning of another one. -/
theorem utf8EncodeChar_append_inj {other : Char} {bytes more : List UInt8}
    (same : String.utf8EncodeChar char ++ bytes =
      String.utf8EncodeChar other ++ more) :
    char = other := by
  have first := @ByteArray.utf8DecodeChar?_utf8EncodeChar_append
    bytes.toByteArray char
  have second := @ByteArray.utf8DecodeChar?_utf8EncodeChar_append
    more.toByteArray other
  rw [← List.toByteArray_append, same, List.toByteArray_append, second] at first
  exact (Option.some.inj first).symm

theorem utf8_injective : Function.Injective utf8 := by
  intro chars
  induction chars with
  | nil =>
      intro rest same
      cases rest with
      | nil => rfl
      | cons other rest =>
          rw [utf8_nil, utf8_cons] at same
          have empty := (List.append_eq_nil_iff.mp same.symm).1
          exact absurd empty String.utf8EncodeChar_ne_nil
  | cons char chars inductionHypothesis =>
      intro rest same
      cases rest with
      | nil =>
          rw [utf8_nil, utf8_cons] at same
          have empty := (List.append_eq_nil_iff.mp same).1
          exact absurd empty String.utf8EncodeChar_ne_nil
      | cons other rest =>
          rw [utf8_cons, utf8_cons] at same
          have sameChar := utf8EncodeChar_append_inj same
          rw [sameChar] at same ⊢
          rw [inductionHypothesis (List.append_cancel_left same)]

end Encoding

/-! ## Tests -/

/-- All bytes of a character answer as the character does. -/
def SameTest (byteTest : UInt8 → Bool) (charTest : Char → Bool) : Prop :=
  ∀ char, ∀ byte ∈ String.utf8EncodeChar char, byteTest byte = charTest char

section Tests

variable {byteTest : UInt8 → Bool} {charTest : Char → Bool}

/-- A test that is decided by the characters of one byte. -/
theorem sameTest_of_ascii (answer : Bool)
    (low : ∀ char : Char, char.toNat < 128 →
      byteTest (UInt8.ofNat char.toNat) = charTest char)
    (highByte : ∀ byte : UInt8, 128 ≤ byte.toNat → byteTest byte = answer)
    (highChar : ∀ char : Char, 128 ≤ char.toNat → charTest char = answer) :
    SameTest byteTest charTest := by
  intro char byte member
  by_cases ascii : char.toNat < 128
  · rw [utf8EncodeChar_ascii ascii, List.mem_singleton] at member
    rw [member, low char ascii]
  · have high : 128 ≤ char.toNat := Nat.le_of_not_lt ascii
    rw [highByte byte (utf8EncodeChar_high high byte member),
      highChar char high]

theorem SameTest.dropWhile (same : SameTest byteTest charTest)
    (chars : List Char) :
    (utf8 chars).dropWhile byteTest = utf8 (chars.dropWhile charTest) := by
  induction chars with
  | nil => rfl
  | cons char chars inductionHypothesis =>
      rw [utf8_cons]
      cases answer : charTest char with
      | true =>
          rw [List.dropWhile_append_of_pos fun byte member => by
              rw [same char byte member, answer],
            inductionHypothesis, List.dropWhile_cons_of_pos answer]
      | false =>
          rw [List.dropWhile_cons_of_neg (by simp [answer]), utf8_cons]
          obtain ⟨byte, bytes, isEncoding⟩ :=
            List.exists_cons_of_ne_nil (@String.utf8EncodeChar_ne_nil char)
          have stops : byteTest byte = false := by
            rw [same char byte (by simp [isEncoding]), answer]
          rw [isEncoding, List.cons_append,
            List.dropWhile_cons_of_neg (by simp [stops])]

theorem SameTest.rdropWhile (same : SameTest byteTest charTest)
    (chars : List Char) :
    (utf8 chars).rdropWhile byteTest = utf8 (chars.rdropWhile charTest) := by
  induction chars using List.reverseRecOn with
  | nil => rfl
  | append_singleton chars char inductionHypothesis =>
      rw [utf8_append, utf8_cons, utf8_nil, List.append_nil]
      cases answer : charTest char with
      | true =>
          rw [List.rdropWhile_concat_pos _ _ _ answer, ← inductionHypothesis]
          have blanks : ∀ byte ∈ String.utf8EncodeChar char,
              byteTest byte = true := fun byte member => by
            rw [same char byte member, answer]
          generalize String.utf8EncodeChar char = bytes at blanks
          induction bytes using List.reverseRecOn with
          | nil => rw [List.append_nil]
          | append_singleton bytes byte shorter =>
              rw [← List.append_assoc,
                List.rdropWhile_concat_pos _ _ _ (blanks byte (by simp))]
              exact shorter fun other member => blanks other (by simp [member])
      | false =>
          rw [List.rdropWhile_concat_neg _ _ _ (by simp [answer]), utf8_append,
            utf8_cons, utf8_nil, List.append_nil]
          obtain ⟨bytes, byte, isEncoding⟩ :=
            List.eq_nil_or_concat (String.utf8EncodeChar char) |>.resolve_left
              String.utf8EncodeChar_ne_nil
          have stops : byteTest byte = false := by
            rw [same char byte (by simp [isEncoding]), answer]
          rw [isEncoding, List.concat_eq_append, ← List.append_assoc,
            List.rdropWhile_concat_neg _ _ _ (by simp [stops])]

theorem SameTest.trim (same : SameTest byteTest charTest) (chars : List Char) :
    trim byteTest (utf8 chars) = utf8 (trim charTest chars) := by
  rw [Scanning.trim, same.dropWhile, same.rdropWhile]
  rfl

end Tests

/-! ## Characters of one byte -/

/-- The byte of a character below 128. -/
def asciiByte (char : Char) : UInt8 :=
  .ofNat char.toNat

section Ascii

variable {char other : Char} {chars : List Char}

theorem asciiByte_inj (low : char.toNat < 128) (otherLow : other.toNat < 128) :
    asciiByte char = asciiByte other ↔ char = other := by
  refine ⟨fun same => ?_, fun same => by rw [same]⟩
  have values := congrArg UInt8.toNat same
  rw [asciiByte, asciiByte, UInt8.toNat_ofNat', UInt8.toNat_ofNat'] at values
  exact Char.toNat_inj.mp (by omega)

/-- No byte of another character is the byte of this one. -/
theorem asciiByte_mem_iff (ascii : char.toNat < 128) :
    asciiByte char ∈ String.utf8EncodeChar other ↔ char = other := by
  by_cases low : other.toNat < 128
  · rw [utf8EncodeChar_ascii low, List.mem_singleton]
    exact asciiByte_inj ascii low
  · have high : 128 ≤ other.toNat := Nat.le_of_not_lt low
    constructor
    · intro member
      have large := utf8EncodeChar_high high _ member
      rw [asciiByte, UInt8.toNat_ofNat'] at large
      omega
    · rintro rfl
      exact absurd ascii low

theorem asciiByte_mem_utf8_iff (ascii : char.toNat < 128) :
    asciiByte char ∈ utf8 chars ↔ char ∈ chars := by
  rw [utf8, List.mem_flatMap]
  constructor
  · rintro ⟨other, member, inside⟩
    rwa [(asciiByte_mem_iff ascii).mp inside]
  · intro member
    exact ⟨char, member, (asciiByte_mem_iff ascii).mpr rfl⟩

theorem utf8_ascii_cons (ascii : char.toNat < 128) (chars : List Char) :
    utf8 (char :: chars) = asciiByte char :: utf8 chars := by
  rw [utf8_cons, utf8EncodeChar_ascii ascii]
  rfl

/-- A text begins with a character of one byte if its bytes begin with it. -/
theorem head_utf8_iff (ascii : char.toNat < 128) :
    (utf8 chars).head? = some (asciiByte char) ↔ chars.head? = some char := by
  cases chars with
  | nil => simp
  | cons first rest =>
      obtain ⟨byte, bytes, isEncoding⟩ :=
        List.exists_cons_of_ne_nil (@String.utf8EncodeChar_ne_nil first)
      rw [utf8_cons, isEncoding, List.cons_append, List.head?_cons,
        List.head?_cons, Option.some_inj, Option.some_inj]
      constructor
      · rintro rfl
        have inside : asciiByte char ∈ String.utf8EncodeChar first := by
          rw [isEncoding]
          exact List.mem_cons_self
        exact ((asciiByte_mem_iff ascii).mp inside).symm
      · rintro rfl
        rw [utf8EncodeChar_ascii ascii] at isEncoding
        exact (List.head_eq_of_cons_eq isEncoding).symm

theorem sameTest_ne (ascii : char.toNat < 128) :
    SameTest (· ≠ asciiByte char) (· ≠ char) := by
  intro other byte member
  by_cases same : other = char
  · rw [same, utf8EncodeChar_ascii ascii, List.mem_singleton] at member
    simp [same, member, asciiByte]
  · have different : byte ≠ asciiByte char := by
      rintro rfl
      exact same ((asciiByte_mem_iff ascii).mp member).symm
    simp [same, different]

end Ascii

end MouseHero
