import MouseHero.Config.File

/-!
# Lines of the configuration file

What a line can say, and which lines `fgets` returns.  A setting and the name
of a section have passed the cuts of the parser, whatever the line is.
-/

namespace MouseHero

open Scanning

/-! ## Cuts -/

section Cuts

variable {separator byte : UInt8} {str text : List UInt8}

theorem mem_of_mem_upTo (member : byte ∈ upTo separator str) : byte ∈ str :=
  (List.takeWhile_prefix _).subset member

theorem notMem_upTo : separator ∉ upTo separator str := by
  intro member
  have different := List.mem_takeWhile_imp member
  simp at different

theorem upTo_eq_self_iff : upTo separator str = str ↔ separator ∉ str := by
  rw [upTo, List.takeWhile_eq_self_iff]
  constructor
  · intro all member
    simpa using all separator member
  · intro absent byte member
    have different : byte ≠ separator := by
      rintro rfl
      exact absent member
    simpa using different

theorem upTo_append_cons (absent : separator ∉ text) (rest : List UInt8) :
    upTo separator (text ++ separator :: rest) = text := by
  rw [upTo, List.takeWhile_append_of_pos]
  · simp
  · intro byte member
    have different : byte ≠ separator := by
      rintro rfl
      exact absent member
    simpa using different

theorem behind_append_cons (absent : separator ∉ text) (rest : List UInt8) :
    behind separator (text ++ separator :: rest) = rest := by
  rw [behind, List.dropWhile_append_of_pos]
  · simp
  · intro byte member
    have different : byte ≠ separator := by
      rintro rfl
      exact absent member
    simpa using different

/-- A text that has the separator falls into the two parts. -/
theorem upTo_append_behind (present : separator ∈ str) :
    upTo separator str ++ separator :: behind separator str = str := by
  induction str with
  | nil => cases present
  | cons first rest inductionHypothesis =>
      by_cases isFirst : first = separator
      · simp [upTo, behind, isFirst]
      · have later : separator ∈ rest := by
          rcases List.mem_cons.mp present with same | later
          · exact absurd same.symm isFirst
          · exact later
        have front : upTo separator (first :: rest) = first :: upTo separator rest := by
          simp [upTo, isFirst]
        have back : behind separator (first :: rest) = behind separator rest := by
          simp [behind, isFirst]
        rw [front, back, List.cons_append, inductionHypothesis later]

end Cuts

/-! ## Quotes -/

/-- A quote in front, and another one behind it. -/
def Quoted (str : List UInt8) : Prop :=
  ∃ rest, str = QUOTE :: rest ∧ QUOTE ∈ rest

theorem unquote_of_quoted {rest : List UInt8} (closed : QUOTE ∈ rest) :
    unquote (QUOTE :: rest) =
      (rest.rdropWhile (· ≠ QUOTE)).dropLast := by
  simp [unquote, closed]

theorem unquote_of_not_quoted {str : List UInt8} (plain : ¬ Quoted str) :
    unquote str = str := by
  cases str with
  | nil => rfl
  | cons first rest =>
      have unclosed : ¬ (first = QUOTE ∧ QUOTE ∈ rest) := by
        rintro ⟨rfl, closed⟩
        exact plain ⟨rest, rfl, closed⟩
      rw [unquote, if_neg unclosed]

theorem unquote_inside (str : List UInt8) : unquote str <:+: str := by
  by_cases quoted : Quoted str
  · obtain ⟨rest, rfl, closed⟩ := quoted
    rw [unquote_of_quoted closed]
    have inside : (rest.rdropWhile (· ≠ QUOTE)).dropLast <:+: rest :=
      (List.dropLast_prefix _).isInfix.trans rdropWhile_inside
    exact inside.trans (List.suffix_cons QUOTE rest).isInfix
  · simp only [unquote_of_not_quoted quoted, List.infix_rfl]

private theorem unquote_eq_self_iff {str : List UInt8} :
    unquote str = str ↔ ¬ Quoted str := by
  refine ⟨?_, unquote_of_not_quoted⟩
  rintro same ⟨rest, rfl, closed⟩
  rw [unquote_of_quoted closed] at same
  have lengths := congrArg List.length same
  have inside : (rest.rdropWhile (· ≠ QUOTE)).length ≤ rest.length :=
    rdropWhile_inside.length_le
  rw [List.length_dropLast, List.length_cons] at lengths
  omega

/-! ## Values -/

/-- What is stored of the text behind the first `=`. -/
def cleanValue (str : List UInt8) : List UInt8 :=
  unquote (removeInlineComment (trimWhitespace str))

theorem removeInlineComment_inside (str : List UInt8) :
    removeInlineComment str <:+: str :=
  trim_inside.trans <|
    (List.takeWhile_prefix _).isInfix.trans (List.takeWhile_prefix _).isInfix

theorem cleanValue_inside (str : List UInt8) : cleanValue str <:+: str :=
  (unquote_inside _).trans ((removeInlineComment_inside _).trans trim_inside)

/-- A value without blanks at its ends, comments and enclosing quotes. -/
structure PlainValue (value : List UInt8) : Prop where
  trimmed : Trimmed isspace value
  semicolon : SEMICOLON ∉ value
  hash : HASH ∉ value
  unquoted : ¬ Quoted value

theorem cleanValue_eq_self_iff {value : List UInt8} :
    cleanValue value = value ↔ PlainValue value := by
  constructor
  · intro same
    have inner : removeInlineComment (trimWhitespace value) = value := by
      have whole := (unquote_inside
        (removeInlineComment (trimWhitespace value))).length_le
      have part :=
        (removeInlineComment_inside (trimWhitespace value)).trans trim_inside
      apply part.eq_of_length
      have lengths := congrArg List.length same
      rw [cleanValue] at lengths
      have shorter := part.length_le
      omega
    have trimmedFirst : trimWhitespace value = value := by
      apply trim_inside.eq_of_length
      have lengths := congrArg List.length inner
      have first := (removeInlineComment_inside (trimWhitespace value)).length_le
      have second : (trim isspace value).length ≤ value.length :=
        length_trim_le value
      rw [trimWhitespace] at *
      omega
    rw [trimmedFirst] at inner
    have uncut : upTo HASH (upTo SEMICOLON value) = value := by
      have part : upTo HASH (upTo SEMICOLON value) <+: value :=
        (List.takeWhile_prefix _).trans (List.takeWhile_prefix _)
      apply part.eq_of_length
      have lengths := congrArg List.length inner
      have trimmed :
          (trim isspace (upTo HASH (upTo SEMICOLON value))).length ≤
            (upTo HASH (upTo SEMICOLON value)).length :=
        length_trim_le _
      have shorter := part.length_le
      rw [removeInlineComment, trimWhitespace] at lengths
      omega
    have noHash : HASH ∉ value := by
      intro member
      rw [← uncut] at member
      exact notMem_upTo member
    have noSemicolon : SEMICOLON ∉ value := by
      intro member
      rw [← uncut] at member
      exact notMem_upTo (mem_of_mem_upTo member)
    refine ⟨trim_eq_self_iff.mp trimmedFirst, noSemicolon, noHash, ?_⟩
    rw [cleanValue, trimmedFirst, inner] at same
    exact unquote_eq_self_iff.mp same
  · intro plain
    have trimmed : trimWhitespace value = value :=
      trim_eq_self_iff.mpr plain.trimmed
    rw [cleanValue, trimmed, removeInlineComment,
      upTo_eq_self_iff.mpr plain.semicolon, upTo_eq_self_iff.mpr plain.hash,
      trimmed, unquote_of_not_quoted plain.unquoted]

/-! ## What a line says -/

/-- The characters that a setting does not start with. -/
def startsSetting (str : List UInt8) : Prop :=
  ∀ first ∈ str.head?,
    first ≠ SEMICOLON ∧ first ≠ HASH ∧ first ≠ OPENING

/-- What is known of a setting that has been read from a text. -/
structure SettingFacts (text key value : List UInt8) : Prop where
  trimmed : Trimmed isspace key
  equals : EQUALS ∉ key
  starts : startsSetting key
  keyInside : key <:+: text
  valueInside : value <:+: text
  length : key.length + value.length + 1 ≤ text.length

theorem cString_inside (str : List UInt8) : cString str <:+: str :=
  (List.takeWhile_prefix _).isInfix

theorem readLine_setting {text key value : List UInt8}
    (reads : readLine text = .setting key value) :
    SettingFacts text key value := by
  unfold readLine at reads
  have inside : trimWhitespace (cString text) <:+: text :=
    trim_inside.trans (cString_inside text)
  have shorter := inside.length_le
  have trimmed : Trimmed isspace (trimWhitespace (cString text)) :=
    trimmed_trim _
  generalize trimWhitespace (cString text) = start at *
  cases start with
  | nil => cases reads
  | cons first rest =>
      simp only at reads
      split at reads
      · cases reads
      rename_i notComment
      split at reads
      · split at reads <;> cases reads
      rename_i notHeader
      split at reads
      · rename_i present
        cases reads
        have whole := upTo_append_behind present
        have keyInside :
            trimWhitespace (upTo EQUALS (first :: rest)) <:+: first :: rest :=
          trim_inside.trans (List.takeWhile_prefix _).isInfix
        have behindInside : behind EQUALS (first :: rest) <:+: first :: rest := by
          refine ⟨upTo EQUALS (first :: rest) ++ [EQUALS], [], ?_⟩
          rw [List.append_nil, List.append_assoc]
          exact whole
        have valueInside := cleanValue_inside (behind EQUALS (first :: rest))
        refine {
          trimmed := trimmed_trim _
          equals := fun member => notMem_upTo (mem_of_mem_trim member)
          starts := ?_
          keyInside := keyInside.trans inside
          valueInside := (valueInside.trans behindInside).trans inside
          length := ?_ }
        · intro head isHead
          by_cases isEquals : first = EQUALS
          · have empty : upTo EQUALS (first :: rest) = [] := by
              simp [upTo, isEquals]
            rw [empty] at isHead
            cases isHead
          · have front :
                upTo EQUALS (first :: rest) = first :: upTo EQUALS rest := by
              simp [upTo, isEquals]
            rw [front] at isHead
            rw [head_trim (trimmed.head first rfl) head isHead]
            rw [not_or] at notComment
            exact ⟨notComment.1, notComment.2, notHeader⟩
        · have lengths := congrArg List.length whole
          rw [List.length_append, List.length_cons] at lengths
          have keyShorter :
              (trim isspace (upTo EQUALS (first :: rest))).length ≤
                (upTo EQUALS (first :: rest)).length :=
            length_trim_le _
          have valueShorter := valueInside.length_le
          rw [trimWhitespace]
          rw [cleanValue] at valueShorter
          omega
      · cases reads

/-- What is known of the name of a section that has been read. -/
structure HeaderFacts (text name : List UInt8) : Prop where
  trimmed : Trimmed isspace name
  closing : CLOSING ∉ name
  inside : ∀ byte ∈ name, byte ∈ text

theorem readLine_header {text : List UInt8}
    {name : CharArray MAX_SECTION_LENGTH}
    (reads : readLine text = .sectionHeader name) :
    HeaderFacts text name.text := by
  unfold readLine at reads
  have inside : trimWhitespace (cString text) <:+: text :=
    trim_inside.trans (cString_inside text)
  generalize trimWhitespace (cString text) = start at *
  cases start with
  | nil => cases reads
  | cons first rest =>
      simp only at reads
      split at reads
      · cases reads
      split at reads
      · split at reads
        · cases reads
          have copied (byte : UInt8)
              (member : byte ∈ trimWhitespace
                (safeStrncpy (upTo CLOSING rest) :
                  CharArray MAX_SECTION_LENGTH).text) :
              byte ∈ upTo CLOSING rest :=
            (cString_inside _).subset
              (List.mem_of_mem_take (mem_of_mem_trim member))
          refine ⟨trimmed_trim _, ?_, ?_⟩
          · intro member
            exact notMem_upTo (copied CLOSING member)
          · intro byte member
            apply inside.subset
            exact List.mem_cons_of_mem _ (mem_of_mem_upTo (copied byte member))
        · cases reads
      · split at reads <;> cases reads

theorem readLine_append_blank {blank : UInt8} (isBlank : isspace blank = true)
    (text : List UInt8) : readLine (text ++ [blank]) = readLine text := by
  have notNul : 0 ∉ [blank] := by
    intro member
    rw [← List.mem_singleton.mp member] at isBlank
    cases isBlank
  have sameStart :
      trimWhitespace (cString (text ++ [blank])) =
        trimWhitespace (cString text) := by
    by_cases noNul : 0 ∈ text
    · have cut : cString (text ++ [blank]) = cString text := by
        have parts := upTo_append_behind noNul
        have absent : 0 ∉ upTo 0 text := notMem_upTo
        rw [← parts, List.append_assoc, List.cons_append]
        exact (upTo_append_cons absent _).trans
          (upTo_append_cons absent _).symm
      rw [cut]
    · have whole : 0 ∉ text ++ [blank] := by
        rw [List.mem_append, not_or]
        exact ⟨noNul, notNul⟩
      rw [cString_of_no_nul noNul, cString_of_no_nul whole]
      exact trim_append_singleton isBlank
  simp only [readLine, sameStart]

theorem readLine_append_newline (text : List UInt8) :
    readLine (text ++ [NEWLINE]) = readLine text :=
  readLine_append_blank (by decide) text

theorem readLine_newline : readLine [NEWLINE] = .ignored := by
  rfl

/-! ## What `fgets` returns -/

/-- A line that has been read from a text: the text itself, or with the end of
the line. -/
def LineOf (room : Nat) (line : List UInt8) : Prop :=
  ∃ text, NEWLINE ∉ text ∧ text.length ≤ room ∧
    (line = text ∨ line = text ++ [NEWLINE])

theorem fgetsLines_lineOf (room : Nat) (file : List UInt8)
    {line : List UInt8} (noNewline : NEWLINE ∉ line)
    (short : line.length < room) :
    ∀ other ∈ fgetsLines room line file, LineOf room other := by
  induction file generalizing line with
  | nil =>
      intro other member
      rw [fgetsLines] at member
      split at member
      · cases member
      · rw [List.mem_singleton.mp member]
        exact ⟨line, noNewline, short.le, Or.inl rfl⟩
  | cons byte rest inductionHypothesis =>
      intro other member
      rw [fgetsLines] at member
      have length : (line ++ [byte]).length = line.length + 1 := by simp
      by_cases isNewline : byte = NEWLINE
      · rw [if_pos (Or.inl isNewline)] at member
        rcases List.mem_cons.mp member with rfl | later
        · rw [isNewline]
          exact ⟨line, noNewline, short.le, Or.inr rfl⟩
        · exact inductionHypothesis (fun absent => by cases absent)
            (by rw [List.length_nil]; omega) other later
      · have still : NEWLINE ∉ line ++ [byte] := by
          rw [List.mem_append, not_or, List.mem_singleton]
          exact ⟨noNewline, Ne.symm isNewline⟩
        split at member
        · rcases List.mem_cons.mp member with rfl | later
          · exact ⟨_, still, by omega, Or.inl rfl⟩
          · exact inductionHypothesis (fun absent => by cases absent)
              (by rw [List.length_nil]; omega) other later
        · rename_i goesOn
          rw [not_or] at goesOn
          exact inductionHypothesis still (by omega) other member

/-- The lines that a text and the end of its line are read as. -/
def brokenLine (room : Nat) (text : List UInt8) : List (List UInt8) :=
  if text.length < room then [text ++ [NEWLINE]] else [text, [NEWLINE]]

theorem fgetsLines_append {room : Nat} {text line : List UInt8}
    (noNewline : NEWLINE ∉ text) (short : (line ++ text).length ≤ room)
    (begun : line.length < room) (rest : List UInt8) :
    fgetsLines room line (text ++ NEWLINE :: rest) =
      brokenLine room (line ++ text) ++ fgetsLines room [] rest := by
  induction text generalizing line with
  | nil =>
      have below : (line ++ []).length < room := by simpa using begun
      rw [List.nil_append, fgetsLines, if_pos (Or.inl rfl), brokenLine,
        if_pos below, List.append_nil]
      rfl
  | cons byte text inductionHypothesis =>
      rw [List.mem_cons, not_or] at noNewline
      have different : byte ≠ NEWLINE := Ne.symm noNewline.1
      have grouped : line ++ byte :: text = (line ++ [byte]) ++ text := by simp
      have longer : (line ++ [byte]).length = line.length + 1 := by simp
      rw [grouped] at short ⊢
      rw [List.cons_append, fgetsLines]
      by_cases full : room ≤ (line ++ [byte]).length
      · -- The buffer is full, and only the end of the line is left.
        have noMore : text = [] := by
          have lengths := short
          rw [List.length_append] at lengths
          exact List.eq_nil_of_length_eq_zero (by omega)
        have tight : ¬ ((line ++ [byte]) ++ []).length < room := by
          rw [List.append_nil]
          omega
        have next : fgetsLines room [] (NEWLINE :: rest) =
            [NEWLINE] :: fgetsLines room [] rest := by
          rw [fgetsLines, if_pos (Or.inl rfl), List.nil_append]
        rw [if_pos (Or.inr full), noMore, brokenLine, if_neg tight,
          List.nil_append, next, List.append_nil]
        rfl
      · have goesOn : ¬ (byte = NEWLINE ∨ room ≤ (line ++ [byte]).length) := by
          rw [not_or]
          exact ⟨different, full⟩
        rw [if_neg goesOn]
        exact inductionHypothesis noNewline.2 short (by omega)

/-- What is left of a file without a line feed is one line. -/
theorem fgetsLines_last {text : List UInt8} {begun : List UInt8} {room : Nat}
    (newline : NEWLINE ∉ text) (short : (begun ++ text).length ≤ room)
    (isBegun : begun.length < room) :
    fgetsLines room begun text =
      if begun ++ text = [] then [] else [begun ++ text] := by
  induction text generalizing begun with
  | nil => rw [fgetsLines, List.append_nil]
  | cons byte text inductionHypothesis =>
      rw [List.mem_cons, not_or] at newline
      have grouped : begun ++ byte :: text = begun ++ [byte] ++ text := by simp
      have longer : (begun ++ [byte]).length = begun.length + 1 := by simp
      rw [grouped] at short ⊢
      have someText : begun ++ [byte] ++ text ≠ [] := by simp
      rw [if_neg someText, fgetsLines]
      by_cases full : room ≤ (begun ++ [byte]).length
      · have noMore : text = [] := by
          rw [List.length_append] at short
          exact List.eq_nil_of_length_eq_zero (by omega)
        rw [if_pos (Or.inr full), noMore, fgetsLines, if_pos rfl, List.append_nil]
      · have goesOn : ¬ (byte = NEWLINE ∨ room ≤ (begun ++ [byte]).length) :=
          not_or.mpr ⟨Ne.symm newline.1, full⟩
        rw [if_neg goesOn, inductionHypothesis newline.2 short (by omega),
          if_neg someText]

end MouseHero
