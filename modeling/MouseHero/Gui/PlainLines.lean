import MouseHero.Gui.LineReadings

/-!
# Lines that both readers read alike

Both say the same of a line if and only if it is a comment, words without a
`=`, a plain header or a plain setting.
-/

namespace MouseHero

open Scanning Sections

/-! ## Plain lines -/

/-- A value that both parsers keep as it is. -/
structure PlainChars (value : List Char) : Prop where
  blanks : dartTrim value = asciiTrim value
  semicolon : ';' ∉ value
  hash : '#' ∉ value
  unquoted : ∀ rest, asciiTrim value = '"' :: rest → '"' ∉ rest

/-- A key with a first character that says nothing else. -/
structure StartsKey (key : List Char) : Prop where
  semicolon : (asciiTrim key).head? ≠ some ';'
  hash : (asciiTrim key).head? ≠ some '#'
  opening : (asciiTrim key).head? ≠ some '['

/-- A line that both parsers read alike: a comment, words without a `=`, the
header of a section, or a setting. -/
inductive PlainText : List Char → Prop
  | comment {line : List Char} :
      (asciiTrim line).head? = some '#' →
      PlainText line
  | words {line : List Char} :
      '=' ∉ line →
      ((asciiTrim line).head? = some '[' → ']' ∉ line) →
      ((dartTrim line).head? = some '[' →
        (dartTrim line).getLast? ≠ some ']') →
      PlainText line
  | header {line name : List Char} :
      (asciiTrim line).head? = some '[' →
      dartTrim line = '[' :: (name ++ [']']) →
      ']' ∉ name →
      Trimmed isAsciiBlank name →
      (utf8 name).length < MAX_SECTION_LENGTH →
      PlainText line
  | setting {key value : List Char} :
      '=' ∉ key →
      StartsKey key →
      (utf8 (asciiTrim key)).take (MAX_KEY_LENGTH - 1) =
        utf8 (dartTrim key) →
      PlainChars value →
      PlainText (key ++ '=' :: value)

/-- What both parsers say of a line. -/
def SameReading : GuiLine → ConfigLine → Prop
  | .ignored, .ignored => True
  | .group name, .sectionHeader sectionName => sectionName.text = utf8 name
  | .setting key value, .setting otherKey otherValue =>
      (safeStrncpy otherKey : CharArray MAX_KEY_LENGTH).text = utf8 key ∧
        (safeStrncpy otherValue : CharArray MAX_VALUE_LENGTH).text = utf8 value
  | _, _ => False

namespace SameReading

variable {gui : GuiLine} {sectionName : CharArray MAX_SECTION_LENGTH}
variable {serverKey serverValue : List UInt8}

theorem ignored (same : SameReading gui .ignored) : gui = .ignored := by
  cases gui with
  | ignored => rfl
  | group name => exact same.elim
  | setting key value => exact same.elim

theorem header (same : SameReading gui (.sectionHeader sectionName)) :
    ∃ name, gui = .group name ∧ sectionName.text = utf8 name := by
  cases gui with
  | ignored => exact same.elim
  | group name => exact ⟨name, rfl, same⟩
  | setting key value => exact same.elim

theorem setting (same : SameReading gui (.setting serverKey serverValue)) :
    ∃ key value, gui = .setting key value ∧
      (safeStrncpy serverKey : CharArray MAX_KEY_LENGTH).text = utf8 key ∧
      (safeStrncpy serverValue : CharArray MAX_VALUE_LENGTH).text =
        utf8 value := by
  cases gui with
  | ignored => exact same.elim
  | group name => exact same.elim
  | setting key value => exact ⟨key, value, rfl, same⟩

end SameReading

/-! ## Settings -/

section Settings

variable {key value : List Char}

private theorem removeInlineComment_utf8 (semicolon : ';' ∉ value) (hash : '#' ∉ value) :
    removeInlineComment (trimWhitespace (utf8 value)) =
      utf8 (asciiTrim value) := by
  have noSemicolon : SEMICOLON ∉ utf8 (asciiTrim value) := fun member =>
    semicolon (mem_of_mem_trim ((asciiByte_mem_utf8_iff (by decide)).mp member))
  have noHash : HASH ∉ utf8 (asciiTrim value) := fun member =>
    hash (mem_of_mem_trim ((asciiByte_mem_utf8_iff (by decide)).mp member))
  have trimmed : asciiTrim (asciiTrim value) = asciiTrim value :=
    trim_eq_self_iff.mpr (trimmed_trim value)
  rw [trimWhitespace_utf8, removeInlineComment, upTo_eq_self_iff.mpr noSemicolon,
    upTo_eq_self_iff.mpr noHash, trimWhitespace_utf8, trimmed]

private theorem notMem_of_cleanValue {bytes : List UInt8}
    (same : cleanValue bytes = utf8 (dartTrim value)) :
    ';' ∉ value ∧ '#' ∉ value := by
  have asQuoted : removeInlineComment (trimWhitespace bytes) =
      quotedValue (EQUALS :: bytes) := by
    simp [quotedValue, behind]
  have inside : ∀ byte ∈ utf8 (dartTrim value),
      byte ∈ quotedValue (EQUALS :: bytes) := by
    intro byte member
    rw [← same, cleanValue, asQuoted] at member
    exact (unquote_inside _).subset member
  constructor
  · intro member
    have kept : ';' ∈ dartTrim value := (mem_trim_iff (by decide)).mpr member
    exact quotedValue_semicolon _
      (inside _ ((asciiByte_mem_utf8_iff (by decide)).mpr kept))
  · intro member
    have kept : '#' ∈ dartTrim value := (mem_trim_iff (by decide)).mpr member
    exact quotedValue_hash _
      (inside _ ((asciiByte_mem_utf8_iff (by decide)).mpr kept))

private theorem quoted_utf8_iff {text : List Char} :
    Quoted (utf8 text) ↔ ∃ rest, text = '"' :: rest ∧ '"' ∈ rest := by
  constructor
  · rintro ⟨bytes, isQuoted, closed⟩
    have starts : text.head? = some '"' :=
      (head_utf8_iff (by decide)).mp (congrArg List.head? isQuoted)
    obtain ⟨rest, rfl⟩ := List.head?_eq_some_iff.mp starts
    rw [utf8_ascii_cons (by decide)] at isQuoted
    have sameRest : utf8 rest = bytes := List.tail_eq_of_cons_eq isQuoted
    rw [← sameRest] at closed
    exact ⟨rest, rfl, (asciiByte_mem_utf8_iff (by decide)).mp closed⟩
  · rintro ⟨rest, rfl, closed⟩
    refine ⟨utf8 rest, utf8_ascii_cons (by decide) rest, ?_⟩
    exact (asciiByte_mem_utf8_iff (by decide)).mpr closed

/-- The text between quotes is shorter than what the other parser keeps. -/
theorem unquote_utf8_ne {rest : List Char} (isQuoted : asciiTrim value = '"' :: rest)
    (closed : '"' ∈ rest) :
    unquote (utf8 (asciiTrim value)) ≠ utf8 (dartTrim value) := by
  intro same
  have cut : (utf8 rest).rdropWhile (· ≠ QUOTE) =
      utf8 (rest.rdropWhile (· ≠ '"')) :=
    (@sameTest_ne '"' (by decide)).rdropWhile rest
  have closedBytes : QUOTE ∈ utf8 rest :=
    (asciiByte_mem_utf8_iff (by decide)).mpr closed
  have isUnquoted : unquote (utf8 (asciiTrim value)) =
      (utf8 (rest.rdropWhile (· ≠ '"'))).dropLast := by
    rw [isQuoted, utf8_ascii_cons (by decide), ← cut]
    exact unquote_of_quoted closedBytes
  have isPrefix : rest.rdropWhile (· ≠ '"') <+: rest :=
    List.rdropWhile_prefix _ rest
  have lastIs : ∀ char ∈ (rest.rdropWhile (· ≠ '"')).getLast?,
      decide (char ≠ '"') = false := last_rdropWhile
  have nonempty : rest.rdropWhile (· ≠ '"') ≠ [] := by
    intro empty
    have differs := List.rdropWhile_eq_nil_iff.mp empty '"' closed
    simp at differs
  obtain ⟨middle, last, isKept⟩ :=
    (List.eq_nil_or_concat (rest.rdropWhile (· ≠ '"'))).resolve_left nonempty
  have isQuote : last = '"' := by
    rw [isKept, List.concat_eq_append, List.getLast?_concat] at lastIs
    simpa using lastIs last rfl
  rw [isKept, List.concat_eq_append, isQuote] at isUnquoted isPrefix
  -- The quotes and what they enclose are a part of the trimmed value.
  have part : '"' :: (middle ++ ['"']) <:+: value := by
    have front : '"' :: (middle ++ ['"']) <+: asciiTrim value := by
      rw [isQuoted]
      exact (List.prefix_cons_inj _).mpr isPrefix
    exact front.isInfix.trans trim_inside
  have inside : '"' :: (middle ++ ['"']) <:+: dartTrim value :=
    inside_trim (by decide) (by decide) part
  have longer := (utf8_inside inside).length_le
  rw [utf8_ascii_cons (by decide), List.length_cons] at longer
  have lengths := congrArg List.length (isUnquoted.symm.trans same)
  rw [List.length_dropLast] at lengths
  omega

/-- Both parsers keep the same value if and only if it is plain. -/
theorem cleanValue_utf8_iff :
    cleanValue (utf8 value) = utf8 (dartTrim value) ↔ PlainChars value := by
  constructor
  · intro same
    obtain ⟨semicolon, hash⟩ := notMem_of_cleanValue same
    rw [cleanValue, removeInlineComment_utf8 semicolon hash] at same
    have notQuoted : ¬ Quoted (utf8 (asciiTrim value)) := by
      intro quoted
      obtain ⟨rest, isQuoted, closed⟩ := quoted_utf8_iff.mp quoted
      exact unquote_utf8_ne isQuoted closed same
    rw [unquote_of_not_quoted notQuoted] at same
    exact {
      blanks := (utf8_injective same).symm
      semicolon := semicolon
      hash := hash
      unquoted := fun rest isQuoted closed =>
        notQuoted (quoted_utf8_iff.mpr ⟨rest, isQuoted, closed⟩) }
  · intro plain
    have notQuoted : ¬ Quoted (utf8 (asciiTrim value)) := by
      intro quoted
      obtain ⟨rest, isQuoted, closed⟩ := quoted_utf8_iff.mp quoted
      exact plain.unquoted rest isQuoted closed
    rw [cleanValue, removeInlineComment_utf8 plain.semicolon plain.hash,
      unquote_of_not_quoted notQuoted, plain.blanks]

private theorem startsSetting_iff {text : List UInt8} :
    startsSetting text ↔
      text.head? ≠ some SEMICOLON ∧ text.head? ≠ some HASH ∧
        text.head? ≠ some OPENING := by
  cases text <;> simp [startsSetting]

/-- What the server looks at to tell a setting from other lines. -/
theorem startsSetting_utf8_iff (nul : '\x00' ∉ key ++ '=' :: value) :
    startsSetting (lineText (utf8 (key ++ '=' :: value))) ↔ StartsKey key := by
  have heads (char : Char) (ascii : char.toNat < 128) (different : char ≠ '=') :
      (lineText (utf8 (key ++ '=' :: value))).head? = some (asciiByte char) ↔
        (asciiTrim key).head? = some char :=
    (head_lineText_iff nul char ascii).trans (head_setting (by decide) different)
  have semicolon := heads ';' (by decide) (by decide)
  have hash := heads '#' (by decide) (by decide)
  have opening := heads '[' (by decide) (by decide)
  rw [startsSetting_iff]
  constructor
  · rintro ⟨noSemicolon, noHash, noOpening⟩
    exact ⟨mt semicolon.mpr noSemicolon, mt hash.mpr noHash,
      mt opening.mpr noOpening⟩
  · intro starts
    exact ⟨mt semicolon.mp starts.semicolon, mt hash.mp starts.hash,
      mt opening.mp starts.opening⟩

private theorem readLine_utf8_setting (nul : '\x00' ∉ key ++ '=' :: value)
    (equals : '=' ∉ key) (starts : StartsKey key) :
    readLine (utf8 (key ++ '=' :: value)) =
      .setting (utf8 (asciiTrim key)) (cleanValue (utf8 value)) := by
  have bytes : lineText (utf8 (key ++ '=' :: value)) =
      utf8 (key.dropWhile isAsciiBlank) ++
        EQUALS :: utf8 (value.rdropWhile isAsciiBlank) := by
    rw [lineText_utf8 nul, asciiTrim, trim_append_cons (by decide), utf8_append,
      utf8_ascii_cons (by decide)]
    rfl
  have noEquals : EQUALS ∉ utf8 (key.dropWhile isAsciiBlank) := by
    intro member
    have inKey : '=' ∈ key.dropWhile isAsciiBlank :=
      (asciiByte_mem_utf8_iff (by decide)).mp member
    exact equals ((List.dropWhile_suffix _).subset inKey)
  have isText : SettingText (lineText (utf8 (key ++ '=' :: value))) := by
    refine ⟨?_, (startsSetting_utf8_iff nul).mpr starts⟩
    rw [bytes]
    simp
  have keyPart : asciiTrim (key.dropWhile isAsciiBlank) = asciiTrim key :=
    trim_dropWhile key
  have valuePart : quotedValue (lineText (utf8 (key ++ '=' :: value))) =
      removeInlineComment (trimWhitespace (utf8 value)) := by
    have ends : trimWhitespace ((utf8 value).rdropWhile isspace) =
        trimWhitespace (utf8 value) :=
      trim_rdropWhile (utf8 value)
    rw [quotedValue, bytes, behind_append_cons noEquals,
      ← sameTest_isspace.rdropWhile, ends]
  rw [readLine_of_settingText isText, valuePart, bytes, upTo_append_cons noEquals,
    trimWhitespace_utf8, keyPart, cleanValue]

private theorem head_of_storedKey
    (stored : (utf8 (asciiTrim key)).take (MAX_KEY_LENGTH - 1) =
      utf8 (dartTrim key))
    {first : Char} (ascii : first.toNat < 128)
    (isHead : (dartTrim key).head? = some first) :
    (asciiTrim key).head? = some first := by
  have bytes := (head_utf8_iff ascii).mpr isHead
  rw [← stored, List.head?_take, if_neg (by decide)] at bytes
  exact (head_utf8_iff ascii).mp bytes

private theorem storedKey {bytes : List UInt8} (nul : 0 ∉ bytes) :
    (safeStrncpy bytes : CharArray MAX_KEY_LENGTH).text =
      bytes.take (MAX_KEY_LENGTH - 1) :=
  congrArg (List.take (MAX_KEY_LENGTH - 1)) (cString_of_no_nul nul)

theorem nul_notMem_utf8 {line part : List Char} (nul : '\x00' ∉ line)
    (inside : part <:+: line) : 0 ∉ utf8 part := by
  intro member
  have isNul : '\x00' ∈ part := (asciiByte_mem_utf8_iff (by decide)).mp member
  exact nul (inside.subset isNul)

theorem sameReading_setting_iff (nul : '\x00' ∉ key ++ '=' :: value)
    (short : (utf8 (key ++ '=' :: value)).length ≤ 255) (equals : '=' ∉ key)
    (starts : StartsKey key) :
    SameReading (guiLine (key ++ '=' :: value))
        (readLine (utf8 (key ++ '=' :: value))) ↔
      (utf8 (asciiTrim key)).take (MAX_KEY_LENGTH - 1) =
          utf8 (dartTrim key) ∧
        PlainChars value := by
  have keyInside : asciiTrim key <:+: key ++ '=' :: value :=
    trim_inside.trans (List.prefix_append key _).isInfix
  have valueInside : value <:+: key ++ '=' :: value :=
    ⟨key ++ ['='], [], by simp⟩
  have keyStored := storedKey (nul_notMem_utf8 nul keyInside)
  have cleanInside := cleanValue_inside (utf8 value)
  have cleanNul : 0 ∉ cleanValue (utf8 value) := fun member =>
    nul_notMem_utf8 nul valueInside (cleanInside.subset member)
  have cleanShort : (cleanValue (utf8 value)).length < MAX_VALUE_LENGTH := by
    have whole := (cleanInside.trans (utf8_inside valueInside)).length_le
    exact Nat.lt_succ_of_le (whole.trans short)
  have valueStored :
      (safeStrncpy (cleanValue (utf8 value)) : CharArray MAX_VALUE_LENGTH).text =
        cleanValue (utf8 value) :=
    safeStrncpy_text cleanNul cleanShort
  obtain ⟨keyPart, valuePart⟩ := @dartTrim_setting key value equals
  rw [readLine_utf8_setting nul equals starts, ← cleanValue_utf8_iff]
  constructor
  · intro same
    obtain ⟨name, text, reads, sameKey, sameValue⟩ := same.setting
    obtain ⟨isName, isText⟩ := setting_of_guiLine reads
    rw [keyStored, isName, keyPart] at sameKey
    rw [valueStored, isText, valuePart] at sameValue
    exact ⟨sameKey, sameValue⟩
  · rintro ⟨sameKey, sameValue⟩
    have heads : ∀ first : Char, first.toNat < 128 → first ≠ '=' →
        (dartTrim (key ++ '=' :: value)).head? = some first →
          (asciiTrim key).head? = some first := by
      intro first ascii different isHead
      exact head_of_storedKey sameKey ascii
        ((head_setting (by decide) different).mp isHead)
    have present : '=' ∈ dartTrim (key ++ '=' :: value) :=
      (mem_trim_iff (by decide)).mpr (by simp)
    have comment : (dartTrim (key ++ '=' :: value)).head? ≠ some '#' :=
      fun isHead => starts.hash (heads '#' (by decide) (by decide) isHead)
    have header : (dartTrim (key ++ '=' :: value)).head? ≠ some '[' :=
      fun isHead => starts.opening (heads '[' (by decide) (by decide) isHead)
    rw [guiLine_setting present comment header, keyPart, valuePart, SameReading,
      keyStored, valueStored]
    exact ⟨sameKey, sameValue⟩

end Settings

/-! ## All lines -/

section Readings

variable {line name : List Char}

theorem readLine_utf8_eq_ignored_iff (nul : '\x00' ∉ line) :
    readLine (utf8 line) = .ignored ↔
      (asciiTrim line).head? = some ';' ∨
        (asciiTrim line).head? = some '#' ∨
        ((asciiTrim line).head? = some '[' ∧ ']' ∉ line) ∨
        ((asciiTrim line).head? ≠ some '[' ∧ '=' ∉ line) := by
  rw [readLine_eq_ignored_iff]
  have semicolon := head_lineText_iff nul ';' (by decide)
  have hash := head_lineText_iff nul '#' (by decide)
  have opening := head_lineText_iff nul '[' (by decide)
  have closing := mem_lineText_iff nul ']' (by decide) (by decide)
  have equals := mem_lineText_iff nul '=' (by decide) (by decide)
  exact or_congr semicolon (or_congr hash (or_congr
    (and_congr opening (not_congr closing))
    (and_congr (not_congr opening) (not_congr equals))))

/-- Both parsers skip the comments and the words without a `=`. -/
theorem plainText_of_ignored (nul : '\x00' ∉ line)
    (gui : guiLine line = .ignored) (server : readLine (utf8 line) = .ignored) :
    PlainText line := by
  rw [guiLine_eq_ignored_iff] at gui
  rw [readLine_utf8_eq_ignored_iff nul] at server
  by_cases comment : (asciiTrim line).head? = some '#'
  · exact .comment comment
  have guiEquals : '=' ∈ dartTrim line ↔ '=' ∈ line := mem_trim_iff (by decide)
  rcases gui with isHash | ⟨header, equals⟩
  · -- Only the desktop application sees a comment.
    have notOther : ∀ first, isDartBlank first = false → first ≠ '#' →
        (asciiTrim line).head? ≠ some first := by
      intro first notBlank different isHead
      have same := (head_dartTrim isHead notBlank).symm.trans isHash
      exact different (Option.some.inj same)
    have noEquals : '=' ∉ line := by
      rcases server with semicolon | isComment | ⟨opening, -⟩ | ⟨-, equals⟩
      · exact absurd semicolon (notOther ';' (by decide) (by decide))
      · exact absurd isComment comment
      · exact absurd opening (notOther '[' (by decide) (by decide))
      · exact equals
    refine .words noEquals ?_ ?_
    · intro opening
      exact absurd opening (notOther '[' (by decide) (by decide))
    · intro opening
      rw [isHash] at opening
      cases opening
  · refine .words (fun member => equals (guiEquals.mpr member)) ?_
      (fun opening closing => header ⟨opening, closing⟩)
    intro opening
    rcases server with semicolon | isComment | ⟨-, unclosed⟩ | ⟨noOpening, -⟩
    · rw [opening] at semicolon
      cases semicolon
    · exact absurd isComment comment
    · exact unclosed
    · exact absurd opening noOpening

private theorem ignored_of_comment (nul : '\x00' ∉ line)
    (comment : (asciiTrim line).head? = some '#') :
    guiLine line = .ignored ∧ readLine (utf8 line) = .ignored :=
  ⟨guiLine_eq_ignored_iff.mpr (Or.inl (head_dartTrim comment (by decide))),
    (readLine_utf8_eq_ignored_iff nul).mpr (Or.inr (Or.inl comment))⟩

private theorem ignored_of_words (nul : '\x00' ∉ line) (equals : '=' ∉ line)
    (serverHeader : (asciiTrim line).head? = some '[' → ']' ∉ line)
    (guiHeader : (dartTrim line).head? = some '[' →
      (dartTrim line).getLast? ≠ some ']') :
    guiLine line = .ignored ∧ readLine (utf8 line) = .ignored := by
  constructor
  · rw [guiLine_eq_ignored_iff]
    refine Or.inr ⟨fun both => guiHeader both.1 both.2, ?_⟩
    exact fun member => equals (mem_of_mem_trim member)
  · rw [readLine_utf8_eq_ignored_iff nul]
    by_cases opening : (asciiTrim line).head? = some '['
    · exact Or.inr (Or.inr (Or.inl ⟨opening, serverHeader opening⟩))
    · exact Or.inr (Or.inr (Or.inr ⟨opening, equals⟩))

private theorem sameReading_header (nul : '\x00' ∉ line)
    (opening : (asciiTrim line).head? = some '[')
    (isHeader : dartTrim line = '[' :: (name ++ [']'])) (closing : ']' ∉ name)
    (trimmed : Trimmed isAsciiBlank name)
    (fits : (utf8 name).length < MAX_SECTION_LENGTH) :
    SameReading (guiLine line) (readLine (utf8 line)) := by
  obtain ⟨after, whole⟩ := dartTrim_front opening (by decide)
  rw [isHeader] at whole
  have bytes : lineText (utf8 line) =
      OPENING :: (utf8 name ++ CLOSING :: utf8 after) := by
    rw [lineText_utf8 nul, ← whole, List.cons_append, List.append_assoc,
      List.singleton_append, utf8_ascii_cons (by decide), utf8_append,
      utf8_ascii_cons (by decide)]
    rfl
  have noClosing : CLOSING ∉ utf8 name := fun member =>
    closing ((asciiByte_mem_utf8_iff (by decide)).mp member)
  have inside : name <:+: line := by
    have part : name <:+: dartTrim line := by
      rw [isHeader]
      exact ⟨['['], [']'], by simp⟩
    exact part.trans trim_inside
  have stored : (safeStrncpy (utf8 name) : CharArray MAX_SECTION_LENGTH).text =
      utf8 name :=
    safeStrncpy_text (nul_notMem_utf8 nul inside) fits
  rw [guiLine_header isHeader, readLine_opening bytes noClosing, SameReading,
    trimSection]
  simp only [stored, trimWhitespace_utf8]
  exact congrArg utf8 (trim_eq_self_iff.mpr trimmed)

private theorem plainText_of_header (nul : '\x00' ∉ line)
    {sectionName : CharArray MAX_SECTION_LENGTH}
    (gui : guiLine line = .group name)
    (server : readLine (utf8 line) = .sectionHeader sectionName)
    (same : sectionName.text = utf8 name) : PlainText line := by
  have facts := readLine_header server
  have fits := sectionName.fits
  have opening : (asciiTrim line).head? = some '[' :=
    (head_lineText_iff nul '[' (by decide)).mp (opening_of_readLine server)
  rw [same] at facts fits
  have trimmed : asciiTrim name = name := by
    have bytes := trim_eq_self_iff.mpr facts.trimmed
    rw [← trimWhitespace, trimWhitespace_utf8] at bytes
    exact utf8_injective bytes
  refine .header opening (header_of_guiLine gui) ?_
    (trim_eq_self_iff.mp trimmed) fits
  intro member
  exact facts.closing ((asciiByte_mem_utf8_iff (by decide)).mpr member)

/-- Both parsers say the same of a line if and only if it is plain. -/
theorem sameReading_iff (nul : '\x00' ∉ line) (short : (utf8 line).length ≤ 255) :
    SameReading (guiLine line) (readLine (utf8 line)) ↔ PlainText line := by
  constructor
  · intro same
    cases server : readLine (utf8 line) with
    | ignored =>
        rw [server] at same
        exact plainText_of_ignored nul same.ignored server
    | sectionHeader sectionName =>
        rw [server] at same
        obtain ⟨name, gui, sameName⟩ := same.header
        exact plainText_of_header nul gui server sameName
    | setting serverKey serverValue =>
        have facts := settingText_of_readLine server
        have present : '=' ∈ line :=
          (mem_lineText_iff nul '=' (by decide) (by decide)).mp facts.equals
        obtain ⟨key, value, rfl, equals⟩ := List.eq_append_cons_of_mem present
        have starts : StartsKey key :=
          (startsSetting_utf8_iff nul).mp facts.starts
        obtain ⟨sameKey, plain⟩ :=
          (sameReading_setting_iff nul short equals starts).mp same
        exact .setting equals starts sameKey plain
  · intro plain
    cases plain with
    | comment comment =>
        obtain ⟨gui, server⟩ := ignored_of_comment nul comment
        rw [gui, server]
        trivial
    | words equals serverHeader guiHeader =>
        obtain ⟨gui, server⟩ := ignored_of_words nul equals serverHeader guiHeader
        rw [gui, server]
        trivial
    | header opening isHeader closing trimmed fits =>
        exact sameReading_header nul opening isHeader closing trimmed fits
    | setting equals starts sameKey plainValue =>
        exact (sameReading_setting_iff nul short equals starts).mpr
          ⟨sameKey, plainValue⟩

end Readings

end MouseHero
