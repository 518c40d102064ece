import MouseHero.Config.PhysicalLines

/-!
# Quoted values

The parser removes comments before it removes quotes, so that the quotes
protect the blanks at the ends of a value and its brackets, but neither a `;`
nor a `#`.
-/

namespace MouseHero

open Scanning AssociationList

/-! ## Files with a quoted value -/

/-- A name that the parser reads as it is written. -/
structure OrdinaryName (name : List UInt8) : Prop where
  trimmed : Trimmed isspace name
  noNul : 0 ∉ name
  noNewline : NEWLINE ∉ name

/-- The line `[name]`. -/
def headerLine (name : List UInt8) : List UInt8 :=
  OPENING :: (name ++ [CLOSING])

/-- The line `key="value"`. -/
def quotedLine (key value : List UInt8) : List UInt8 :=
  key ++ EQUALS :: QUOTE :: (value ++ [QUOTE])

/-- A file with a quoted value in a section.  Its key has not been set in the
section before. -/
structure QuotedSetting where
  front : List UInt8
  sectionName : List UInt8
  between : List UInt8
  key : List UInt8
  value : List UInt8
  rest : List UInt8
  frontComplete : Complete front
  sectionOrdinary : OrdinaryName sectionName
  sectionClosing : CLOSING ∉ sectionName
  betweenComplete : Complete between
  betweenHeaders : ∀ line ∈ fgetsLines 255 [] between, ∀ name,
    ¬ HeaderText (lineText line) name
  keyOrdinary : OrdinaryName key
  keyEquals : EQUALS ∉ key
  keyStarts : startsSetting key
  valueNul : 0 ∉ value
  valueNewline : NEWLINE ∉ value
  valueQuote : QUOTE ∉ value
  fits : (quotedLine key value).length < MAX_LINE_LENGTH
  restEnds : rest = [] ∨ ∃ more, rest = NEWLINE :: more
  unset :
    yaConfigGet
      (loadedFrom (front ++ (headerLine sectionName ++ NEWLINE :: between)))
      (some sectionName) (some key) = none

namespace QuotedSetting

variable (setting : QuotedSetting)

/-- What stands in front of the line. -/
def before : List UInt8 :=
  setting.front ++
    (headerLine setting.sectionName ++ NEWLINE :: setting.between)

def file : List UInt8 :=
  setting.before ++ (quotedLine setting.key setting.value ++ setting.rest)

/-- What `ya_config_get` returns for the setting. -/
def read : CString :=
  yaConfigGet (loadedFrom setting.file) (some setting.sectionName)
    (some setting.key)

/-- No character of the value starts a comment, and the names fit into their
arrays. -/
structure Protected : Prop where
  semicolon : SEMICOLON ∉ setting.value
  hash : HASH ∉ setting.value
  key : setting.key.length < MAX_KEY_LENGTH
  sectionName : setting.sectionName.length < MAX_SECTION_LENGTH

end QuotedSetting

/-! ## Cuts inside quotes -/

private theorem upTo_append_of_mem {separator : UInt8} {str : List UInt8}
    (present : separator ∈ str) (rest : List UInt8) :
    upTo separator (str ++ rest) = upTo separator str := by
  have parts := upTo_append_behind present
  have absent : separator ∉ upTo separator str := notMem_upTo
  have grouped :
      str ++ rest =
        upTo separator str ++ separator :: (behind separator str ++ rest) := by
    conv_lhs => rw [← parts]
    simp
  rw [grouped, upTo_append_cons absent]

/-- A comment in a quoted value takes the closing quote with it. -/
theorem quote_notMem_cut {value : List UInt8} (noQuote : QUOTE ∉ value)
    (comment : SEMICOLON ∈ value ∨ HASH ∈ value) :
    QUOTE ∉ upTo HASH (upTo SEMICOLON (value ++ [QUOTE])) := by
  intro member
  by_cases semicolon : SEMICOLON ∈ value
  · rw [upTo_append_of_mem semicolon] at member
    exact noQuote (mem_of_mem_upTo (mem_of_mem_upTo member))
  · have hash : HASH ∈ value := comment.resolve_left semicolon
    have absent : SEMICOLON ∉ value ++ [QUOTE] := by
      rw [List.mem_append, not_or]
      exact ⟨semicolon, by decide⟩
    rw [upTo_eq_self_iff.mpr absent, upTo_append_of_mem hash] at member
    exact noQuote (mem_of_mem_upTo member)

theorem trimmed_quoted (value : List UInt8) :
    Trimmed isspace (QUOTE :: (value ++ [QUOTE])) := by
  constructor
  · rintro first ⟨rfl⟩
    decide
  · intro last isLast
    rw [← List.cons_append, List.getLast?_concat] at isLast
    cases isLast
    decide

/-- What is left of a quoted value without comment marks is the value. -/
theorem cleanValue_quoted {value : List UInt8}
    (semicolon : SEMICOLON ∉ value) (hash : HASH ∉ value) :
    cleanValue (QUOTE :: (value ++ [QUOTE])) = value := by
  have trimmed : trimWhitespace (QUOTE :: (value ++ [QUOTE])) =
      QUOTE :: (value ++ [QUOTE]) :=
    trim_eq_self_iff.mpr (trimmed_quoted value)
  have noMark {mark : UInt8} (absent : mark ∉ value) (other : mark ≠ QUOTE) :
      mark ∉ QUOTE :: (value ++ [QUOTE]) := by
    rw [List.mem_cons, List.mem_append, List.mem_singleton, not_or, not_or]
    exact ⟨other, absent, other⟩
  have closed : QUOTE ∈ value ++ [QUOTE] := by simp
  rw [cleanValue, trimmed, removeInlineComment,
    upTo_eq_self_iff.mpr (noMark semicolon (by decide)),
    upTo_eq_self_iff.mpr (noMark hash (by decide)), trimmed,
    unquote_of_quoted closed, List.rdropWhile_concat_neg _ _ _ (by simp),
    List.dropLast_concat]

/-- A comment mark leaves the opening quote in what is stored. -/
theorem quote_mem_cleanValue {value : List UInt8} (noQuote : QUOTE ∉ value)
    (comment : SEMICOLON ∈ value ∨ HASH ∈ value) :
    QUOTE ∈ cleanValue (QUOTE :: (value ++ [QUOTE])) := by
  have trimmed : trimWhitespace (QUOTE :: (value ++ [QUOTE])) =
      QUOTE :: (value ++ [QUOTE]) :=
    trim_eq_self_iff.mpr (trimmed_quoted value)
  have front :
      upTo HASH (upTo SEMICOLON (QUOTE :: (value ++ [QUOTE]))) =
        QUOTE :: upTo HASH (upTo SEMICOLON (value ++ [QUOTE])) := by
    simp [upTo, QUOTE, HASH, SEMICOLON]
  have unclosed := quote_notMem_cut noQuote comment
  generalize upTo HASH (upTo SEMICOLON (value ++ [QUOTE])) = cut at *
  have kept : trim isspace (QUOTE :: cut) = QUOTE :: cut.rdropWhile isspace :=
    trim_append_cons (by decide) [] cut
  have plain : ¬ Quoted (QUOTE :: cut.rdropWhile isspace) := by
    rintro ⟨rest, same, closed⟩
    cases same
    exact unclosed (rdropWhile_inside.subset closed)
  rw [cleanValue, trimmed, removeInlineComment, front, trimWhitespace, kept,
    unquote_of_not_quoted plain]
  exact List.mem_cons_self

/-! ## Reading the lines -/

theorem lineText_of_trimmed {line : List UInt8} (noNul : 0 ∉ line)
    (trimmed : Trimmed isspace line) : lineText line = line := by
  rw [lineText, cString_of_no_nul noNul]
  exact trim_eq_self_iff.mpr trimmed

theorem headerText_headerLine {name : List UInt8} (ordinary : OrdinaryName name)
    (closing : CLOSING ∉ name) (fits : name.length < MAX_SECTION_LENGTH) :
    HeaderText (lineText (headerLine name)) (safeStrncpy name) := by
  have noNul : 0 ∉ headerLine name := by
    rw [headerLine, List.mem_cons, List.mem_append, List.mem_singleton, not_or,
      not_or]
    exact ⟨by decide, ordinary.noNul, by decide⟩
  have trimmed : Trimmed isspace (headerLine name) := by
    constructor
    · rintro first ⟨rfl⟩
      decide
    · intro last isLast
      rw [headerLine, ← List.cons_append, List.getLast?_concat] at isLast
      cases isLast
      decide
  have closed : CLOSING ∈ OPENING :: (name ++ [CLOSING]) := by simp
  have header := HeaderText.header (name ++ [CLOSING]) closed
  rw [upTo_append_cons closing] at header
  have same : trimSection (safeStrncpy name) = safeStrncpy name := by
    apply CharArray.ext_text
    have text :
        (safeStrncpy name : CharArray MAX_SECTION_LENGTH).text = name :=
      safeStrncpy_text ordinary.noNul fits
    have kept : trimWhitespace name = name :=
      trim_eq_self_iff.mpr ordinary.trimmed
    rw [text]
    exact (congrArg trimWhitespace text).trans kept
  rw [same] at header
  rw [lineText_of_trimmed noNul trimmed]
  exact header

theorem sectionAfter_of_noHeader {lines : List (List UInt8)}
    (noHeader : ∀ line ∈ lines, ∀ name, ¬ HeaderText (lineText line) name)
    (currentSection : CharArray MAX_SECTION_LENGTH) :
    sectionAfter currentSection lines = currentSection := by
  induction lines with
  | nil => rfl
  | cons line lines inductionHypothesis =>
      have later := inductionHypothesis fun other member =>
        noHeader other (List.mem_cons_of_mem _ member)
      rw [sectionAfter]
      cases reads : readLine line with
      | ignored => exact later
      | setting key value => exact later
      | sectionHeader name =>
          exact absurd (readLine_header_iff.mp reads)
            (noHeader line List.mem_cons_self name)

/-- The line is read as a setting with the cleaned value. -/
theorem readLine_quotedLine {key value : List UInt8}
    (ordinary : OrdinaryName key) (equals : EQUALS ∉ key)
    (starts : startsSetting key) (noNul : 0 ∉ value) :
    readLine (quotedLine key value) =
      .setting key (cleanValue (QUOTE :: (value ++ [QUOTE]))) := by
  have lineNul : 0 ∉ quotedLine key value := by
    simp only [quotedLine, List.mem_append, List.mem_cons, List.not_mem_nil,
      not_or]
    exact ⟨ordinary.noNul, by decide, by decide, noNul, by decide, not_false⟩
  have trimmed : Trimmed isspace (quotedLine key value) := by
    constructor
    · intro first isFirst
      cases key with
      | nil =>
          cases isFirst
          decide
      | cons head tail =>
          cases isFirst
          exact ordinary.trimmed.head first rfl
    · intro last isLast
      have grouped :
          quotedLine key value =
            (key ++ EQUALS :: QUOTE :: value) ++ [QUOTE] := by
        simp [quotedLine]
      rw [grouped, List.getLast?_concat] at isLast
      cases isLast
      decide
  have text := lineText_of_trimmed lineNul trimmed
  have keyPart : upTo EQUALS (quotedLine key value) = key :=
    upTo_append_cons equals _
  have valuePart :
      behind EQUALS (quotedLine key value) = QUOTE :: (value ++ [QUOTE]) :=
    behind_append_cons equals _
  have isSetting : SettingText (lineText (quotedLine key value)) := by
    rw [text]
    refine ⟨by simp [quotedLine], ?_⟩
    intro first isFirst
    cases key with
    | nil =>
        cases isFirst
        decide
    | cons head tail =>
        cases isFirst
        exact starts first rfl
  rw [readLine_of_settingText isSetting, text, quotedValue, keyPart, valuePart,
    trimWhitespace, trim_eq_self_iff.mpr ordinary.trimmed]
  rfl

namespace QuotedSetting

variable (setting : QuotedSetting)

theorem line_noNewline :
    NEWLINE ∉ quotedLine setting.key setting.value := by
  simp only [quotedLine, List.mem_append, List.mem_cons, List.not_mem_nil,
    not_or]
  exact ⟨setting.keyOrdinary.noNewline, by decide, by decide,
    setting.valueNewline, by decide, not_false⟩

theorem before_complete : Complete setting.before := by
  right
  rcases setting.betweenComplete with nothing | ⟨text, isText⟩
  · exact ⟨setting.front ++ headerLine setting.sectionName, by
      simp [before, nothing]⟩
  · exact ⟨setting.front ++
      (headerLine setting.sectionName ++ NEWLINE :: text), by
      simp [before, isText]⟩

theorem sectionAt_before
    (fits : setting.sectionName.length < MAX_SECTION_LENGTH) :
    sectionAt setting.before = safeStrncpy setting.sectionName := by
  have noNewline : NEWLINE ∉ headerLine setting.sectionName := by
    simp only [headerLine, List.mem_append, List.mem_cons, List.not_mem_nil,
      not_or]
    exact ⟨by decide, setting.sectionOrdinary.noNewline, by decide, not_false⟩
  have bound : setting.sectionName.length < 64 := fits
  have short : (headerLine setting.sectionName).length < 255 := by
    rw [headerLine, List.length_cons, List.length_append, List.length_singleton]
    omega
  have reads :=
    readLine_header_iff.mpr
      (headerText_headerLine setting.sectionOrdinary setting.sectionClosing fits)
  have split :
      fgetsLines 255 []
          (headerLine setting.sectionName ++ NEWLINE :: setting.between) =
        brokenLine 255 ([] ++ headerLine setting.sectionName) ++
          fgetsLines 255 [] setting.between :=
    fgetsLines_append noNewline (by simpa using short.le) (by decide) _
  rw [List.nil_append, brokenLine, if_pos short, List.singleton_append] at split
  rw [before, sectionAt_append setting.frontComplete, split, sectionAfter,
    readLine_append_newline, reads]
  exact sectionAfter_of_noHeader setting.betweenHeaders _

theorem exists_others (currentSection : CharArray MAX_SECTION_LENGTH) :
    ∃ others,
      entriesOf currentSection
          (fgetsLines 255 []
            (quotedLine setting.key setting.value ++ setting.rest)) =
        entriesOf currentSection
          (quotedLine setting.key setting.value :: others) := by
  have short : (quotedLine setting.key setting.value).length ≤ 255 :=
    Nat.le_of_lt_succ setting.fits
  have shortLine :
      ([] ++ quotedLine setting.key setting.value).length ≤ 255 := by
    rwa [List.nil_append]
  rcases setting.restEnds with nothing | ⟨more, isMore⟩
  · have nonempty : [] ++ quotedLine setting.key setting.value ≠ [] := by
      simp [quotedLine]
    refine ⟨[], ?_⟩
    rw [nothing, List.append_nil,
      fgetsLines_last setting.line_noNewline shortLine (by decide),
      if_neg nonempty]
    rfl
  · refine ⟨fgetsLines 255 [] more, ?_⟩
    rw [isMore, fgetsLines_append setting.line_noNewline shortLine (by decide),
      List.nil_append, entriesOf_brokenLine]

/-- The name of the setting. -/
def name : SettingName where
  sectionName := setting.sectionName
  key := setting.key

/-- What the line adds to the settings. -/
def pair : SettingName × List UInt8 :=
  ({ sectionName := (sectionAt setting.before).text
     key := (safeStrncpy setting.key : CharArray MAX_KEY_LENGTH).text },
    cleanValue (QUOTE :: (setting.value ++ [QUOTE])))

theorem stored_value :
    (safeStrncpy (cleanValue (QUOTE :: (setting.value ++ [QUOTE]))) :
        CharArray MAX_VALUE_LENGTH).text =
      cleanValue (QUOTE :: (setting.value ++ [QUOTE])) := by
  have inside := cleanValue_inside (QUOTE :: (setting.value ++ [QUOTE]))
  have shorter := inside.length_le
  have fits := setting.fits
  simp only [quotedLine, MAX_LINE_LENGTH, List.length_append, List.length_cons,
    List.length_nil] at fits shorter
  have small :
      (cleanValue (QUOTE :: (setting.value ++ [QUOTE]))).length < 256 := by
    omega
  refine safeStrncpy_text (fun nul => ?_) small
  have member := inside.subset nul
  rw [List.mem_cons, List.mem_append, List.mem_singleton] at member
  rcases member with isQuote | inValue | isQuote
  · exact absurd isQuote (by decide)
  · exact setting.valueNul inValue
  · exact absurd isQuote (by decide)

theorem read_eq_lookup :
    ∃ others,
      setting.read = (setting.pair :: others).lookup setting.name := by
  obtain ⟨others, same⟩ := setting.exists_others (sectionAt setting.before)
  have reads :=
    readLine_quotedLine setting.keyOrdinary setting.keyEquals setting.keyStarts
      setting.valueNul
  rw [entriesOf, reads] at same
  refine ⟨(entriesOf (sectionAt setting.before) others).map
    YaConfigEntry.pair, ?_⟩
  have sectionText := cString_of_no_nul setting.sectionOrdinary.noNul
  have keyText := cString_of_no_nul setting.keyOrdinary.noNul
  have unset := setting.unset
  rw [yaConfigGet_eq_lookup, sectionText, keyText] at unset
  have entry :
      YaConfigEntry.pair {
          sectionName := sectionAt setting.before
          key := safeStrncpy setting.key
          value :=
            safeStrncpy (cleanValue (QUOTE :: (setting.value ++ [QUOTE]))) } =
        setting.pair := by
    rw [YaConfigEntry.pair, setting.stored_value]
    rfl
  have pairs :
      (loadedFrom setting.file).pairs =
        (loadedFrom setting.before).pairs ++
          setting.pair ::
            (entriesOf (sectionAt setting.before) others).map
              YaConfigEntry.pair := by
    rw [YaConfig.pairs, file, loadedFrom_append setting.before_complete, same,
      List.map_append, List.map_cons, entry]
    rfl
  rw [read, yaConfigGet_eq_lookup, sectionText, keyText, pairs,
    List.lookup_append]
  exact (congrArg (Option.or · _) unset).trans Option.none_or

theorem fits_of_read (found : setting.read = some setting.value) :
    setting.key.length < MAX_KEY_LENGTH ∧
      setting.sectionName.length < MAX_SECTION_LENGTH := by
  rw [read, yaConfigGet_eq_lookup,
    cString_of_no_nul setting.sectionOrdinary.noNul,
    cString_of_no_nul setting.keyOrdinary.noNul] at found
  obtain ⟨entry, -, isPair⟩ := List.mem_map.mp (mem_of_lookup_eq_some found)
  obtain ⟨sameName, -⟩ := Prod.mk.inj isPair
  obtain ⟨sameSection, sameKey⟩ := SettingName.mk.inj sameName
  have keyFits := entry.key.fits
  have sectionFits := entry.sectionName.fits
  rw [sameKey] at keyFits
  rw [sameSection] at sectionFits
  exact ⟨keyFits, sectionFits⟩

theorem pair_name (key : setting.key.length < MAX_KEY_LENGTH)
    (sectionName : setting.sectionName.length < MAX_SECTION_LENGTH) :
    setting.pair.1 = setting.name := by
  have keyText :
      (safeStrncpy setting.key : CharArray MAX_KEY_LENGTH).text = setting.key :=
    safeStrncpy_text setting.keyOrdinary.noNul key
  have sectionText :
      (safeStrncpy setting.sectionName : CharArray MAX_SECTION_LENGTH).text =
        setting.sectionName :=
    safeStrncpy_text setting.sectionOrdinary.noNul sectionName
  rw [pair, setting.sectionAt_before sectionName, keyText, sectionText]
  rfl

theorem read_of_fits (key : setting.key.length < MAX_KEY_LENGTH)
    (sectionName : setting.sectionName.length < MAX_SECTION_LENGTH) :
    setting.read =
      some (cleanValue (QUOTE :: (setting.value ++ [QUOTE]))) := by
  obtain ⟨others, isLookup⟩ := setting.read_eq_lookup
  rw [isLookup, lookup_cons_eq,
    if_pos (setting.pair_name key sectionName).symm]
  rfl

/-- The value is read literally exactly where no character of it starts a
comment and the names fit. -/
theorem read_literally_iff :
    setting.read = some setting.value ↔ setting.Protected := by
  constructor
  · intro found
    obtain ⟨key, sectionName⟩ := setting.fits_of_read found
    rw [setting.read_of_fits key sectionName, Option.some.injEq] at found
    have noComment : ¬ (SEMICOLON ∈ setting.value ∨ HASH ∈ setting.value) := by
      intro comment
      have left := quote_mem_cleanValue setting.valueQuote comment
      rw [found] at left
      exact setting.valueQuote left
    rw [not_or] at noComment
    exact ⟨noComment.1, noComment.2, key, sectionName⟩
  · rintro ⟨semicolon, hash, key, sectionName⟩
    rw [setting.read_of_fits key sectionName,
      cleanValue_quoted semicolon hash]

end QuotedSetting

/-- The file `[s]` with the line `k="a;b"`. -/
def semicolonLine : QuotedSetting where
  front := []
  sectionName := [115]
  between := []
  key := [107]
  value := [97, 59, 98]
  rest := [NEWLINE]
  frontComplete := Or.inl rfl
  sectionOrdinary := ⟨trimmed_singleton (by decide), by decide, by decide⟩
  sectionClosing := by decide
  betweenComplete := Or.inl rfl
  betweenHeaders := fun line member => absurd member List.not_mem_nil
  keyOrdinary := ⟨trimmed_singleton (by decide), by decide, by decide⟩
  keyEquals := by decide
  keyStarts := by
    rintro first ⟨rfl⟩
    decide
  valueNul := by decide
  valueNewline := by decide
  valueQuote := by decide
  fits := by decide
  restEnds := Or.inr ⟨[], rfl⟩
  unset := by decide

/-- The value between the quotes is cut at the semicolon, and keeps the
opening quote. -/
theorem semicolonLine_read :
    semicolonLine.read = some [34, 97] ∧
      semicolonLine.read ≠ some semicolonLine.value := by
  have read : semicolonLine.read = some [34, 97] := by decide
  exact ⟨read, by rw [read]; decide⟩

end MouseHero
