import MouseHero.Config.Rewriting
import MouseHero.Gui.ConfigService
import MouseHero.Library.Utf8

/-!
# What the two readers say of a line

The desktop application and the server read `server.conf` with parsers of their
own: one reads characters, the other their bytes.
-/

namespace MouseHero

open Scanning Sections

/-! ## Blanks -/

/-- The blanks of the server. -/
def isAsciiBlank (char : Char) : Bool :=
  char.toNat = 32 || (9 ≤ char.toNat && char.toNat ≤ 13)

def asciiTrim (str : List Char) : List Char :=
  trim isAsciiBlank str

private theorem isspace_eq (byte : UInt8) :
    isspace byte =
      (byte.toNat = 32 || (9 ≤ byte.toNat && byte.toNat ≤ 13) : Bool) := by
  have isSpace : byte = 32 ↔ byte.toNat = 32 := UInt8.toNat_inj.symm
  simp only [isspace, isSpace, UInt8.le_iff_toNat_le]
  rfl

theorem sameTest_isspace : SameTest isspace isAsciiBlank := by
  apply sameTest_of_ascii false
  · intro char low
    have value : (UInt8.ofNat char.toNat).toNat = char.toNat := by
      rw [UInt8.toNat_ofNat']
      omega
    rw [isspace_eq, value]
    rfl
  · intro byte high
    simp [isspace_eq]
    omega
  · intro char high
    simp [isAsciiBlank]
    omega

theorem trimWhitespace_utf8 (chars : List Char) :
    trimWhitespace (utf8 chars) = utf8 (asciiTrim chars) :=
  sameTest_isspace.trim chars

private theorem isDartBlank_of_isAsciiBlank {char : Char}
    (isBlank : isAsciiBlank char = true) : isDartBlank char = true := by
  simp only [isAsciiBlank, isDartBlank, Bool.or_eq_true, Bool.and_eq_true,
    decide_eq_true_eq] at isBlank ⊢
  rcases isBlank with isSpace | inRange
  · simp [isSpace]
  · exact Or.inl (Or.inl inRange)

theorem dartTrim_asciiTrim (line : List Char) :
    dartTrim (asciiTrim line) = dartTrim line :=
  trim_trim (fun _ => isDartBlank_of_isAsciiBlank) line

section Heads

variable {line : List Char} {first : Char}

theorem head_dartTrim (isHead : (asciiTrim line).head? = some first)
    (notBlank : isDartBlank first = false) :
    (dartTrim line).head? = some first := by
  obtain ⟨rest, isRest⟩ := List.head?_eq_some_iff.mp isHead
  rw [← dartTrim_asciiTrim, isRest, dartTrim, head?_trim,
    List.dropWhile_cons_of_neg (by simp [notBlank])]
  rfl

theorem dartTrim_front (isHead : (asciiTrim line).head? = some first)
    (notBlank : isDartBlank first = false) : dartTrim line <+: asciiTrim line := by
  obtain ⟨rest, isRest⟩ := List.head?_eq_some_iff.mp isHead
  rw [← dartTrim_asciiTrim, isRest, dartTrim, trim,
    List.dropWhile_cons_of_neg (by simp [notBlank])]
  exact List.rdropWhile_prefix isDartBlank (first :: rest)

end Heads

/-! ## Lines -/

section Lines

variable {line name key value : List Char}

theorem lineText_utf8 (nul : '\x00' ∉ line) :
    lineText (utf8 line) = utf8 (asciiTrim line) := by
  have noNul : 0 ∉ utf8 line := fun member =>
    nul ((asciiByte_mem_utf8_iff (by decide)).mp member)
  rw [lineText, cString_of_no_nul noNul, trimWhitespace_utf8]

theorem head_lineText_iff (nul : '\x00' ∉ line) (char : Char)
    (ascii : char.toNat < 128) :
    (lineText (utf8 line)).head? = some (asciiByte char) ↔
      (asciiTrim line).head? = some char := by
  rw [lineText_utf8 nul]
  exact head_utf8_iff ascii

theorem mem_lineText_iff (nul : '\x00' ∉ line) (char : Char)
    (ascii : char.toNat < 128) (notBlank : isAsciiBlank char = false) :
    asciiByte char ∈ lineText (utf8 line) ↔ char ∈ line := by
  rw [lineText_utf8 nul, asciiByte_mem_utf8_iff ascii]
  exact mem_trim_iff notBlank

theorem readLine_eq_ignored_iff {bytes : List UInt8} :
    readLine bytes = .ignored ↔
      (lineText bytes).head? = some SEMICOLON ∨
        (lineText bytes).head? = some HASH ∨
        ((lineText bytes).head? = some OPENING ∧ CLOSING ∉ lineText bytes) ∨
        ((lineText bytes).head? ≠ some OPENING ∧ EQUALS ∉ lineText bytes) := by
  unfold readLine
  rw [← lineText]
  generalize lineText bytes = text
  cases text with
  | nil => simp
  | cons first rest =>
      simp only [List.head?_cons, Option.some_inj, ne_eq]
      by_cases comment : first = SEMICOLON ∨ first = HASH
      · rw [if_pos comment]
        exact iff_of_true rfl (or_assoc.mp (Or.inl comment))
      rw [if_neg comment]
      rw [not_or] at comment
      by_cases header : first = OPENING
      · by_cases closing : CLOSING ∈ first :: rest
        · rw [if_pos header, if_pos closing]
          refine iff_of_false (by simp) ?_
          rintro (isComment | isComment | ⟨-, unclosed⟩ | ⟨noHeader, -⟩)
          · exact comment.1 isComment
          · exact comment.2 isComment
          · exact unclosed closing
          · exact noHeader header
        · rw [if_pos header, if_neg closing]
          exact iff_of_true rfl (Or.inr (Or.inr (Or.inl ⟨header, closing⟩)))
      · by_cases equals : EQUALS ∈ first :: rest
        · rw [if_neg header, if_pos equals]
          simp [comment, header, equals]
        · rw [if_neg header, if_neg equals]
          simp [header, equals]

theorem opening_of_readLine {bytes : List UInt8}
    {sectionName : CharArray MAX_SECTION_LENGTH}
    (reads : readLine bytes = .sectionHeader sectionName) :
    (lineText bytes).head? = some OPENING := by
  unfold readLine at reads
  rw [← lineText] at reads
  generalize lineText bytes = text at *
  cases text with
  | nil => cases reads
  | cons first rest =>
      simp only at reads
      split at reads
      · cases reads
      split at reads
      · rename_i isOpening
        rw [isOpening]
        rfl
      · split at reads <;> cases reads

theorem readLine_opening {bytes name rest : List UInt8}
    (isHeader : lineText bytes = OPENING :: (name ++ CLOSING :: rest))
    (closing : CLOSING ∉ name) :
    readLine bytes = .sectionHeader (trimSection (safeStrncpy name)) := by
  have inside : upTo CLOSING (name ++ CLOSING :: rest) = name :=
    upTo_append_cons closing rest
  unfold readLine
  rw [← lineText, isHeader]
  dsimp only
  rw [if_neg (by decide), if_pos rfl, if_pos (by simp), inside]

theorem guiLine_eq_ignored_iff :
    guiLine line = .ignored ↔
      (dartTrim line).head? = some '#' ∨
        (¬ ((dartTrim line).head? = some '[' ∧
            (dartTrim line).getLast? = some ']') ∧
          '=' ∉ dartTrim line) := by
  unfold guiLine
  generalize dartTrim line = text
  cases text with
  | nil => simp
  | cons first rest =>
      simp only [List.head?_cons, Option.some_inj]
      by_cases comment : first = '#'
      · simp [comment]
      by_cases header : first = '[' ∧ (first :: rest).getLast? = some ']'
      · rw [if_neg comment, if_pos header]
        refine iff_of_false (by simp) ?_
        rintro (isHash | ⟨noHeader, -⟩)
        · exact comment isHash
        · exact noHeader header
      by_cases present : '=' ∈ first :: rest
      · rw [if_neg comment, if_neg header, if_pos present]
        simp [comment, present]
      · rw [if_neg comment, if_neg header, if_neg present]
        simp [header, present]

theorem guiLine_header (isHeader : dartTrim line = '[' :: (name ++ [']'])) :
    guiLine line = .group name := by
  have isLast : ('[' :: (name ++ [']'])).getLast? = some ']' := by
    rw [← List.cons_append, List.getLast?_concat]
  unfold guiLine
  rw [isHeader]
  dsimp only
  rw [if_neg (by decide), if_pos ⟨rfl, isLast⟩, List.dropLast_concat]

theorem header_of_guiLine (reads : guiLine line = .group name) :
    dartTrim line = '[' :: (name ++ [']']) := by
  unfold guiLine at reads
  generalize dartTrim line = text at *
  cases text with
  | nil => cases reads
  | cons first rest =>
      simp only at reads
      split at reads
      · cases reads
      split at reads
      · rename_i header
        obtain ⟨isOpening, isLast⟩ := header
        cases reads
        rcases List.eq_nil_or_concat rest with empty | ⟨front, last, isRest⟩
        · rw [isOpening, empty] at isLast
          cases isLast
        · rw [isRest, List.concat_eq_append, ← List.cons_append,
            List.getLast?_concat] at isLast
          rw [isRest, isOpening, Option.some.inj isLast, List.concat_eq_append,
            List.dropLast_concat]
      · split at reads <;> cases reads

theorem guiLine_setting (present : '=' ∈ dartTrim line)
    (comment : (dartTrim line).head? ≠ some '#')
    (header : (dartTrim line).head? ≠ some '[') :
    guiLine line =
      .setting (dartTrim ((dartTrim line).takeWhile (· ≠ '=')))
        (dartTrim ((dartTrim line).dropWhile (· ≠ '=')).tail) := by
  unfold guiLine
  generalize dartTrim line = text at *
  cases text with
  | nil => cases present
  | cons first rest =>
      have notComment : first ≠ '#' := fun same => comment (congrArg some same)
      have notHeader : first ≠ '[' := fun same => header (congrArg some same)
      simp only
      rw [if_neg notComment, if_neg fun both => notHeader both.1, if_pos present]

theorem setting_of_guiLine (reads : guiLine line = .setting key value) :
    key = dartTrim ((dartTrim line).takeWhile (· ≠ '=')) ∧
      value = dartTrim ((dartTrim line).dropWhile (· ≠ '=')).tail := by
  unfold guiLine at reads
  generalize dartTrim line = text at *
  cases text with
  | nil => cases reads
  | cons first rest =>
      simp only at reads
      split at reads
      · cases reads
      split at reads
      · cases reads
      split at reads
      · cases reads
        exact ⟨rfl, rfl⟩
      · cases reads

/-- The two sides of the first `=`. -/
theorem dartTrim_setting (equals : '=' ∉ key) :
    dartTrim ((dartTrim (key ++ '=' :: value)).takeWhile (· ≠ '=')) =
        dartTrim key ∧
      dartTrim ((dartTrim (key ++ '=' :: value)).dropWhile (· ≠ '=')).tail =
        dartTrim value := by
  have whole : dartTrim (key ++ '=' :: value) =
      key.dropWhile isDartBlank ++ '=' :: value.rdropWhile isDartBlank :=
    trim_append_cons (by decide) key value
  have different : ∀ char ∈ key.dropWhile isDartBlank,
      decide (char ≠ '=') = true := by
    intro char member
    have other : char ≠ '=' := by
      rintro rfl
      exact equals ((List.dropWhile_suffix _).subset member)
    exact decide_eq_true other
  rw [whole, List.takeWhile_append_of_pos different,
    List.dropWhile_append_of_pos different]
  constructor
  · simpa [dartTrim] using trim_dropWhile key
  · simpa [dartTrim] using trim_rdropWhile value

/-- What a line with a `=` starts with. -/
theorem head_setting {blank : Char → Bool} (notBlank : blank '=' = false)
    {first : Char} (different : first ≠ '=') :
    (trim blank (key ++ '=' :: value)).head? = some first ↔
      (trim blank key).head? = some first := by
  rw [trim_append_cons notBlank, head?_trim]
  cases key.dropWhile blank with
  | nil => simp [different.symm]
  | cons char rest => simp

end Lines

end MouseHero
