import MouseHero.Config.Lines
import MouseHero.Config.Refinement

/-!
# Saving and reading again

A saved configuration is read as it was if and only if no entry has a
character in a place where the parser treats it specially, and every entry fits
into a line.
-/

namespace MouseHero

open Scanning AssociationList

/-! ## Entries that are read -/

/-- The entries that lines are read as, in a section. -/
def entriesOf (currentSection : CharArray MAX_SECTION_LENGTH) :
    List (List UInt8) → List YaConfigEntry
  | [] => []
  | line :: lines =>
      match readLine line with
      | .ignored => entriesOf currentSection lines
      | .sectionHeader name => entriesOf name lines
      | .setting key value =>
          { sectionName := currentSection
            key := safeStrncpy key
            value := safeStrncpy value } :: entriesOf currentSection lines

private theorem parseLines_entries (lines : List (List UInt8))
    (currentSection : CharArray MAX_SECTION_LENGTH) (config : YaConfig) :
    (parseLines (fun _ => true) currentSection config lines).1.entries =
      config.entries ++ entriesOf currentSection lines := by
  induction lines generalizing currentSection config with
  | nil => simp [parseLines, entriesOf]
  | cons line lines inductionHypothesis =>
      rw [parseLines, entriesOf]
      cases readLine line with
      | ignored => exact inductionHypothesis currentSection config
      | sectionHeader name => exact inductionHypothesis name config
      | setting key value =>
          simp only [YaConfig.reserve, if_true]
          split
          · rename_i larger reserved
            split at reserved <;> cases reserved
          · rename_i larger reserved
            have sameEntries : larger.entries = config.entries := by
              split at reserved <;> cases reserved <;> rfl
            rw [inductionHypothesis, YaConfig.append, sameEntries,
              List.append_assoc]
            rfl

/-- What is known of an entry of any file. -/
structure ReadableEntry (entry : YaConfigEntry) : Prop where
  sectionTrimmed : Trimmed isspace entry.sectionName.text
  sectionClosing : CLOSING ∉ entry.sectionName.text
  sectionNewline : NEWLINE ∉ entry.sectionName.text
  keyEquals : EQUALS ∉ entry.key.text
  keyStarts : startsSetting entry.key.text
  keyNewline : NEWLINE ∉ entry.key.text
  valueNewline : NEWLINE ∉ entry.value.text
  length : entry.key.text.length + entry.value.text.length + 1 ≤ 255

private theorem safeStrncpy_front {size : Nat} [NeZero size] (src : List UInt8) :
    (safeStrncpy src : CharArray size).text <+: src :=
  (List.take_prefix _ _).trans (List.takeWhile_prefix _)

private theorem startsSetting_of_front {front whole : List UInt8}
    (isPrefix : front <+: whole) (starts : startsSetting whole) :
    startsSetting front := by
  intro first isFirst
  apply starts
  obtain ⟨rest, rfl⟩ := isPrefix
  rw [List.head?_append, Option.mem_def.mp isFirst]
  rfl

/-- The section that is current has been read, or is still empty. -/
structure ReadableSection (name : List UInt8) : Prop where
  trimmed : Trimmed isspace name
  closing : CLOSING ∉ name
  newline : NEWLINE ∉ name

private theorem entriesOf_readable {lines : List (List UInt8)}
    (read : ∀ line ∈ lines, LineOf 255 line)
    {currentSection : CharArray MAX_SECTION_LENGTH}
    (readable : ReadableSection currentSection.text) :
    ∀ entry ∈ entriesOf currentSection lines, ReadableEntry entry := by
  induction lines generalizing currentSection with
  | nil => exact fun entry member => absurd member List.not_mem_nil
  | cons line lines inductionHypothesis =>
      obtain ⟨text, noNewline, short, isLine⟩ := read line List.mem_cons_self
      have later : ∀ line ∈ lines, LineOf 255 line := fun line member =>
        read line (List.mem_cons_of_mem _ member)
      have sameReading : readLine line = readLine text := by
        rcases isLine with rfl | rfl
        · rfl
        · exact readLine_append_newline text
      intro entry member
      rw [entriesOf, sameReading] at member
      cases reading : readLine text with
      | ignored =>
          rw [reading] at member
          exact inductionHypothesis later readable entry member
      | sectionHeader name =>
          rw [reading] at member
          have facts := readLine_header reading
          refine inductionHypothesis later ⟨facts.trimmed, facts.closing, ?_⟩
            entry member
          exact fun newline => noNewline (facts.inside NEWLINE newline)
      | setting key value =>
          rw [reading] at member
          rcases List.mem_cons.mp member with rfl | further
          · have facts := readLine_setting reading
            have keyCut : (safeStrncpy key : CharArray MAX_KEY_LENGTH).text <+:
                key := safeStrncpy_front key
            have valueCut :
                (safeStrncpy value : CharArray MAX_VALUE_LENGTH).text <+:
                  value := safeStrncpy_front value
            have keyShorter := keyCut.length_le
            have valueShorter := valueCut.length_le
            have fits := facts.length
            exact {
              sectionTrimmed := readable.trimmed
              sectionClosing := readable.closing
              sectionNewline := readable.newline
              keyEquals := fun member => facts.equals (keyCut.subset member)
              keyStarts := startsSetting_of_front keyCut facts.starts
              keyNewline := fun member =>
                noNewline (facts.keyInside.subset (keyCut.subset member))
              valueNewline := fun member =>
                noNewline (facts.valueInside.subset (valueCut.subset member))
              length := by
                simp only
                omega }
          · exact inductionHypothesis later readable entry further

/-- The configuration that is read from a file. -/
def loadedFrom (file : List UInt8) : YaConfig :=
  (yaConfigParse (fun _ => true) (some file) yaConfigInit).1

theorem loadedFrom_entries (file : List UInt8) :
    (loadedFrom file).entries =
      entriesOf (safeStrncpy []) (fgetsLines 255 [] file) := by
  rw [loadedFrom, yaConfigParse, parseLines_entries]
  rfl

private theorem readableSection_nil :
    ReadableSection (safeStrncpy [] : CharArray MAX_SECTION_LENGTH).text where
  trimmed := trimmed_nil
  closing := List.not_mem_nil
  newline := List.not_mem_nil

theorem loadedFrom_readable (file : List UInt8) :
    ∀ entry ∈ (loadedFrom file).entries, ReadableEntry entry := by
  rw [loadedFrom_entries]
  apply entriesOf_readable _ readableSection_nil
  exact fgetsLines_lineOf 255 file List.not_mem_nil (by decide)

/-! ## Lines that are written -/

/-- The line of an entry. -/
def YaConfigEntry.line (entry : YaConfigEntry) : List UInt8 :=
  entry.key.text ++ EQUALS :: entry.value.text

/-- The header of its section. -/
def YaConfigEntry.header (entry : YaConfigEntry) : List UInt8 :=
  OPENING :: (entry.sectionName.text ++ [CLOSING])

/-- The lines that are written in front of an entry. -/
def headerLines (lastSection : CharArray MAX_SECTION_LENGTH) (first : Bool)
    (entry : YaConfigEntry) : List (List UInt8) :=
  if lastSection.text ≠ entry.sectionName.text then
    (if first then [] else [[]]) ++ [entry.header]
  else []

/-- The lines of a file that is saved. -/
def savedLines (lastSection : CharArray MAX_SECTION_LENGTH) (first : Bool) :
    List YaConfigEntry → List (List UInt8)
  | [] => []
  | entry :: rest =>
      headerLines lastSection first entry ++
        entry.line :: savedLines entry.sectionName false rest

def terminated (lines : List (List UInt8)) : List UInt8 :=
  lines.flatMap fun text => text ++ [NEWLINE]

theorem safeStrncpy_self {size : Nat} [NeZero size] (array : CharArray size) :
    safeStrncpy array.text = array :=
  CharArray.ext_text (safeStrncpy_text array.noNul array.fits)

private theorem saveEntries_eq (lastSection : CharArray MAX_SECTION_LENGTH)
    (first : Bool) (entries : List YaConfigEntry) :
    saveEntries lastSection first entries =
      terminated (savedLines lastSection first entries) := by
  induction entries generalizing lastSection first with
  | nil => rfl
  | cons entry rest inductionHypothesis =>
      have nextSection :
          (if lastSection.text ≠ entry.sectionName.text then
              safeStrncpy entry.sectionName.text
            else lastSection) = entry.sectionName := by
        split
        · exact safeStrncpy_self entry.sectionName
        · rename_i same
          exact CharArray.ext_text (not_not.mp same)
      rw [saveEntries, nextSection, inductionHypothesis]
      by_cases same : lastSection.text ≠ entry.sectionName.text <;>
        cases first <;>
          simp [savedLines, headerLines, terminated, YaConfigEntry.line,
            YaConfigEntry.header, same]

/-- A line that is read back as one line. -/
def Intact (text : List UInt8) : Prop :=
  NEWLINE ∉ text ∧ text.length ≤ 255

private theorem fgetsLines_terminated {lines : List (List UInt8)}
    (intact : ∀ text ∈ lines, Intact text) :
    fgetsLines 255 [] (terminated lines) =
      lines.flatMap (brokenLine 255) := by
  induction lines with
  | nil => rfl
  | cons text lines inductionHypothesis =>
      obtain ⟨noNewline, short⟩ := intact text List.mem_cons_self
      have later := inductionHypothesis fun text member =>
        intact text (List.mem_cons_of_mem _ member)
      have grouped :
          terminated (text :: lines) = text ++ NEWLINE :: terminated lines := by
        simp [terminated]
      rw [grouped, fgetsLines_append noNewline short (by decide), later]
      rfl

theorem entriesOf_cons_congr {rest other : List (List UInt8)}
    (same : ∀ name, entriesOf name rest = entriesOf name other)
    (line : List UInt8) (currentSection : CharArray MAX_SECTION_LENGTH) :
    entriesOf currentSection (line :: rest) =
      entriesOf currentSection (line :: other) := by
  rw [entriesOf, entriesOf]
  cases readLine line <;> simp only [same]

theorem entriesOf_brokenLine (text : List UInt8) (rest : List (List UInt8))
    (currentSection : CharArray MAX_SECTION_LENGTH) :
    entriesOf currentSection (brokenLine 255 text ++ rest) =
      entriesOf currentSection (text :: rest) := by
  rw [brokenLine]
  split
  · rw [List.singleton_append, entriesOf, readLine_append_newline, entriesOf]
  · have skipped (name : CharArray MAX_SECTION_LENGTH) :
        entriesOf name ([NEWLINE] :: rest) = entriesOf name rest := by
      rw [entriesOf, readLine_newline]
    rw [List.cons_append, List.singleton_append]
    exact entriesOf_cons_congr skipped text currentSection

private theorem entriesOf_brokenLines (lines : List (List UInt8))
    (currentSection : CharArray MAX_SECTION_LENGTH) :
    entriesOf currentSection (lines.flatMap (brokenLine 255)) =
      entriesOf currentSection lines := by
  induction lines generalizing currentSection with
  | nil => rfl
  | cons text lines inductionHypothesis =>
      rw [List.flatMap_cons, entriesOf_brokenLine]
      exact entriesOf_cons_congr inductionHypothesis text currentSection

/-- A fresh configuration that is read from the saved file. -/
def reloaded (config : YaConfig) : YaConfig :=
  (yaConfigParse (fun _ => true) (yaConfigSave config true).1 yaConfigInit).1

private theorem reloaded_eq (config : YaConfig) :
    reloaded config =
      loadedFrom (saveEntries (safeStrncpy []) true config.entries) :=
  rfl

private theorem headerLines_intact {lastSection : CharArray MAX_SECTION_LENGTH}
    {first : Bool} {entry : YaConfigEntry}
    (newline : NEWLINE ∉ entry.sectionName.text) :
    ∀ text ∈ headerLines lastSection first entry, Intact text := by
  have header : Intact entry.header := by
    constructor
    · rw [YaConfigEntry.header, List.mem_cons, List.mem_append,
        List.mem_singleton, not_or, not_or]
      exact ⟨by decide, newline, by decide⟩
    · have fits : entry.sectionName.text.length < 64 := entry.sectionName.fits
      rw [YaConfigEntry.header, List.length_cons, List.length_append,
        List.length_singleton]
      omega
  have blank : Intact [] := ⟨List.not_mem_nil, by decide⟩
  intro text member
  rw [headerLines] at member
  split at member
  · rcases List.mem_append.mp member with isBlank | isHeader
    · cases first with
      | true => cases isBlank
      | false => rwa [List.mem_singleton.mp isBlank]
    · rwa [List.mem_singleton.mp isHeader]
  · cases member

private theorem savedLines_intact {entries : List YaConfigEntry}
    (readable : ∀ entry ∈ entries, ReadableEntry entry)
    (lastSection : CharArray MAX_SECTION_LENGTH) (first : Bool) :
    ∀ text ∈ savedLines lastSection first entries, Intact text := by
  induction entries generalizing lastSection first with
  | nil => exact fun text member => absurd member List.not_mem_nil
  | cons entry rest inductionHypothesis =>
      have facts := readable entry List.mem_cons_self
      intro text member
      rw [savedLines] at member
      rcases List.mem_append.mp member with inFront | behind
      · exact headerLines_intact facts.sectionNewline text inFront
      rcases List.mem_cons.mp behind with rfl | later
      · constructor
        · rw [YaConfigEntry.line, List.mem_append, List.mem_cons, not_or,
            not_or]
          exact ⟨facts.keyNewline, by decide, facts.valueNewline⟩
        · have length := facts.length
          rw [YaConfigEntry.line, List.length_append, List.length_cons]
          omega
      · exact inductionHypothesis
          (fun entry member => readable entry (List.mem_cons_of_mem _ member))
          entry.sectionName false text later

theorem reloaded_entries {config : YaConfig}
    (readable : ∀ entry ∈ config.entries, ReadableEntry entry) :
    (reloaded config).entries =
      entriesOf (safeStrncpy [])
        (savedLines (safeStrncpy []) true config.entries) := by
  rw [reloaded_eq, loadedFrom_entries, saveEntries_eq,
    fgetsLines_terminated (savedLines_intact readable _ _),
    entriesOf_brokenLines]

/-! ## Reading what has been written -/

section Setting

variable {text front back key value : List UInt8}

/-- The first `=` splits the line. -/
theorem readLine_of_start (start :
      trimWhitespace (cString text) = front ++ EQUALS :: back)
    (equals : EQUALS ∉ front) :
    (startsSetting front →
      readLine text =
        .setting (trimWhitespace front) (cleanValue back)) ∧
    (readLine text = .setting key value → key = trimWhitespace front) := by
  have keyPart : upTo EQUALS (front ++ EQUALS :: back) = front :=
    upTo_append_cons equals back
  have valuePart : behind EQUALS (front ++ EQUALS :: back) = back :=
    behind_append_cons equals back
  have present : EQUALS ∈ front ++ EQUALS :: back := by simp
  have heads : ∀ first rest, front ++ EQUALS :: back = first :: rest →
      startsSetting front →
        ¬ (first = SEMICOLON ∨ first = HASH) ∧ first ≠ OPENING := by
    intro first rest split starts
    cases front with
    | nil =>
        cases split
        exact ⟨by decide, by decide⟩
    | cons head tail =>
        obtain ⟨semicolon, hash, opening⟩ := starts head rfl
        cases split
        exact ⟨not_or.mpr ⟨semicolon, hash⟩, opening⟩
  unfold readLine
  rw [start]
  generalize front ++ EQUALS :: back = line at *
  cases line with
  | nil => cases present
  | cons first rest =>
      simp only [keyPart, valuePart, present, if_true]
      constructor
      · intro starts
        obtain ⟨notComment, notHeader⟩ := heads first rest rfl starts
        rw [if_neg notComment, if_neg notHeader]
        rfl
      · intro reads
        split at reads
        · cases reads
        split at reads
        · split at reads <;> cases reads
        · cases reads
          rfl

end Setting

theorem line_start (entry : YaConfigEntry) :
    trimWhitespace (cString entry.line) =
      entry.key.text.dropWhile isspace ++
        EQUALS :: entry.value.text.rdropWhile isspace := by
  have noNul : 0 ∉ entry.line := by
    rw [YaConfigEntry.line, List.mem_append, List.mem_cons, not_or, not_or]
    exact ⟨entry.key.noNul, by decide, entry.value.noNul⟩
  rw [cString_of_no_nul noNul]
  exact trim_append_cons (by decide) _ _

theorem readLine_header_line {entry : YaConfigEntry}
    (readable : ReadableEntry entry) :
    readLine entry.header = .sectionHeader entry.sectionName := by
  have noNul : 0 ∉ entry.header := by
    rw [YaConfigEntry.header, List.mem_cons, List.mem_append,
      List.mem_singleton, not_or, not_or]
    exact ⟨by decide, entry.sectionName.noNul, by decide⟩
  have trimmed : Trimmed isspace entry.header := by
    constructor
    · intro first isFirst
      cases isFirst
      decide
    · intro last isLast
      have grouped : entry.header =
          (OPENING :: entry.sectionName.text) ++ [CLOSING] := rfl
      rw [grouped, List.getLast?_concat] at isLast
      cases isLast
      decide
  have start :
      trimWhitespace (cString entry.header) =
        OPENING :: (entry.sectionName.text ++ [CLOSING]) := by
    rw [cString_of_no_nul noNul]
    exact trim_eq_self_iff.mpr trimmed
  have closed : CLOSING ∈ OPENING :: (entry.sectionName.text ++ [CLOSING]) := by
    simp
  have inside :
      upTo CLOSING (entry.sectionName.text ++ [CLOSING]) =
        entry.sectionName.text :=
    upTo_append_cons readable.sectionClosing []
  have name :
      trimSection (safeStrncpy entry.sectionName.text) = entry.sectionName := by
    apply CharArray.ext_text
    rw [safeStrncpy_self]
    exact trim_eq_self_iff.mpr readable.sectionTrimmed
  unfold readLine
  rw [start]
  dsimp only
  rw [if_neg (by decide), if_pos rfl, if_pos closed, inside, name]

private theorem entriesOf_headerLines {entry : YaConfigEntry}
    (readable : ReadableEntry entry)
    (lastSection : CharArray MAX_SECTION_LENGTH) (first : Bool)
    (lines : List (List UInt8)) :
    entriesOf lastSection (headerLines lastSection first entry ++ lines) =
      entriesOf entry.sectionName lines := by
  have reads (current : CharArray MAX_SECTION_LENGTH) :
      entriesOf current (entry.header :: lines) =
        entriesOf entry.sectionName lines := by
    rw [entriesOf, readLine_header_line readable]
  rw [headerLines]
  split
  · cases first with
    | true => exact reads lastSection
    | false => exact reads lastSection
  · rename_i same
    have sameSection : lastSection = entry.sectionName :=
      CharArray.ext_text (not_not.mp same)
    rw [sameSection, List.nil_append]

/-- The entry that is read for an entry: comments and quotes are gone. -/
def YaConfigEntry.cleaned (entry : YaConfigEntry) : YaConfigEntry :=
  { entry with value := safeStrncpy (cleanValue entry.value.text) }

theorem YaConfigEntry.cleaned_value (entry : YaConfigEntry) :
    entry.cleaned.value.text = cleanValue entry.value.text := by
  have inside := cleanValue_inside entry.value.text
  have shorter := inside.length_le
  have fits := entry.value.fits
  exact safeStrncpy_text (fun nul => entry.value.noNul (inside.subset nul))
    (by omega)

private theorem readLine_line {entry : YaConfigEntry} (readable : ReadableEntry entry)
    (trimmed : Trimmed isspace entry.key.text) :
    readLine entry.line =
      .setting entry.key.text (cleanValue entry.value.text) := by
  have start := line_start entry
  rw [dropWhile_eq_self trimmed.head] at start
  have reads := (@readLine_of_start _ _ _ [] [] start
    readable.keyEquals).1 readable.keyStarts
  have keyPart : trimWhitespace entry.key.text = entry.key.text :=
    trim_eq_self_iff.mpr trimmed
  have valuePart :
      cleanValue (entry.value.text.rdropWhile isspace) =
        cleanValue entry.value.text := by
    rw [cleanValue, trimWhitespace, trim_rdropWhile]
    rfl
  rw [reads, keyPart, valuePart]

/-- All entries are read back, with their values cleaned. -/
theorem entriesOf_savedLines {entries : List YaConfigEntry}
    (readable : ∀ entry ∈ entries, ReadableEntry entry)
    (trimmed : ∀ entry ∈ entries, Trimmed isspace entry.key.text)
    (lastSection : CharArray MAX_SECTION_LENGTH) (first : Bool) :
    entriesOf lastSection (savedLines lastSection first entries) =
      entries.map YaConfigEntry.cleaned := by
  induction entries generalizing lastSection first with
  | nil => rfl
  | cons entry rest inductionHypothesis =>
      have readableEntry := readable entry List.mem_cons_self
      have later := inductionHypothesis
        (fun entry member => readable entry (List.mem_cons_of_mem _ member))
        (fun entry member => trimmed entry (List.mem_cons_of_mem _ member))
        entry.sectionName false
      rw [savedLines, entriesOf_headerLines readableEntry, entriesOf,
        readLine_line readableEntry (trimmed entry List.mem_cons_self)]
      simp only [later, List.map_cons]
      rw [YaConfigEntry.cleaned, safeStrncpy_self]

/-- Entries that can be read and have plain values are read back as they are. -/
theorem reloaded_unchanged {config : YaConfig}
    (readable : ∀ entry ∈ config.entries, ReadableEntry entry)
    (trimmed : ∀ entry ∈ config.entries, Trimmed isspace entry.key.text)
    (plain : ∀ entry ∈ config.entries, PlainValue entry.value.text) :
    (reloaded config).entries = config.entries := by
  rw [reloaded_entries readable, entriesOf_savedLines readable trimmed]
  have unchanged : ∀ entry ∈ config.entries, entry.cleaned = entry := by
    intro entry member
    rw [YaConfigEntry.cleaned,
      cleanValue_eq_self_iff.mpr (plain entry member), safeStrncpy_self]
  exact (List.map_congr_left unchanged).trans (List.map_id _)

theorem savedLines_key {entries : List YaConfigEntry}
    (readable : ∀ entry ∈ entries, ReadableEntry entry)
    {lastSection : CharArray MAX_SECTION_LENGTH} {first : Bool}
    {text key value : List UInt8}
    (member : text ∈ savedLines lastSection first entries)
    (reads : readLine text = .setting key value) :
    (safeStrncpy key : CharArray MAX_KEY_LENGTH).text = key := by
  induction entries generalizing lastSection first with
  | nil => cases member
  | cons entry rest inductionHypothesis =>
      have readableEntry := readable entry List.mem_cons_self
      rw [savedLines] at member
      rcases List.mem_append.mp member with inFront | behind
      · rw [headerLines] at inFront
        split at inFront
        · rcases List.mem_append.mp inFront with isBlank | isHeader
          · cases first with
            | true => cases isBlank
            | false =>
                rw [List.mem_singleton.mp isBlank] at reads
                cases reads
          · rw [List.mem_singleton.mp isHeader,
              readLine_header_line readableEntry] at reads
            cases reads
        · cases inFront
      rcases List.mem_cons.mp behind with rfl | later
      · have equals : EQUALS ∉ entry.key.text.dropWhile isspace :=
          fun member => readableEntry.keyEquals
            ((List.dropWhile_suffix isspace).subset member)
        have isKey := (readLine_of_start (line_start entry) equals).2 reads
        have inside : key <:+: entry.key.text := by
          rw [isKey]
          exact trim_inside.trans (List.dropWhile_suffix isspace).isInfix
        have shorter := inside.length_le
        have fits := entry.key.fits
        exact safeStrncpy_text
          (fun member => entry.key.noNul (inside.subset member)) (by omega)
      · exact inductionHypothesis
          (fun entry member => readable entry (List.mem_cons_of_mem _ member))
          later

theorem entriesOf_trimmedKeys {lines : List (List UInt8)}
    (uncut : ∀ text ∈ lines, ∀ key value, readLine text = .setting key value →
      (safeStrncpy key : CharArray MAX_KEY_LENGTH).text = key)
    (currentSection : CharArray MAX_SECTION_LENGTH) :
    ∀ entry ∈ entriesOf currentSection lines,
      Trimmed isspace entry.key.text := by
  induction lines generalizing currentSection with
  | nil => exact fun entry member => absurd member List.not_mem_nil
  | cons line lines inductionHypothesis =>
      have later := inductionHypothesis fun text member =>
        uncut text (List.mem_cons_of_mem _ member)
      intro entry member
      rw [entriesOf] at member
      cases reading : readLine line with
      | ignored =>
          rw [reading] at member
          exact later currentSection entry member
      | sectionHeader name =>
          rw [reading] at member
          exact later name entry member
      | setting key value =>
          rw [reading] at member
          rcases List.mem_cons.mp member with rfl | further
          · simp only
            rw [uncut line List.mem_cons_self key value reading]
            exact (readLine_setting reading).trimmed
          · exact later currentSection entry further

/-! ## A restart -/

/-- No character of the entry is special where it stands, and the entry fits
into a line. -/
structure SurvivesRestart (entry : YaConfigEntry) : Prop
    extends ReadableEntry entry where
  keyTrimmed : Trimmed isspace entry.key.text
  value : PlainValue entry.value.text

/-- What is asked for is found as before. -/
def SameSettings (first second : YaConfig) : Prop :=
  ∀ sectionName key,
    yaConfigGet first (some sectionName) (some key) =
      yaConfigGet second (some sectionName) (some key)

section Restart

variable {config other : YaConfig} {entry : YaConfigEntry}

/-- The names of the settings are distinct. -/
def YaConfig.Distinct (config : YaConfig) : Prop :=
  (config.pairs.map Prod.fst).Nodup

theorem lookup_of_mem (distinct : config.Distinct)
    (member : entry ∈ config.entries) :
    config.pairs.lookup entry.pair.1 = some entry.value.text :=
  lookup_eq_some_of_mem distinct (List.mem_map_of_mem member)

theorem SameSettings.lookup (same : SameSettings other config)
    (entry : YaConfigEntry) :
    other.pairs.lookup entry.pair.1 = config.pairs.lookup entry.pair.1 := by
  have found := same entry.sectionName.text entry.key.text
  rw [yaConfigGet_eq_lookup, yaConfigGet_eq_lookup,
    cString_of_no_nul entry.sectionName.noNul,
    cString_of_no_nul entry.key.noNul] at found
  exact found

theorem SameSettings.mem (same : SameSettings other config)
    (distinct : config.Distinct) (member : entry ∈ config.entries) :
    entry ∈ other.entries := by
  have found := lookup_of_mem distinct member
  rw [← same.lookup entry] at found
  obtain ⟨twin, twinMember, isPair⟩ :=
    List.mem_map.mp (mem_of_lookup_eq_some found)
  have isEntry : twin = entry := YaConfigEntry.ext_pair isPair
  rw [← isEntry]
  exact twinMember

theorem sameSettings_of_entries (same : other.entries = config.entries) :
    SameSettings other config := by
  intro sectionName key
  simp only [yaConfigGet, same]

theorem ConfigRun.distinct {history : List SetCall}
    (run : ConfigRun yaConfigInit history config) : config.Distinct := by
  have list := (run.list_room (Nat.le_refl 0)).1
  have noNames : (yaConfigInit.pairs.map Prod.fst).Nodup := List.nodup_nil
  rw [YaConfig.Distinct, list]
  exact nodup_assignAll noNames _

/-- A configuration that calls of `ya_config_set` have built is the same after
it has been saved and read again if and only if all its entries survive. -/
theorem reloaded_iff {history : List SetCall}
    (run : ConfigRun yaConfigInit history config) :
    SameSettings (reloaded config) config ↔
      ∀ entry ∈ config.entries, SurvivesRestart entry := by
  have distinct := run.distinct
  constructor
  · intro same
    have readable : ∀ entry ∈ config.entries, ReadableEntry entry :=
      fun entry member =>
        loadedFrom_readable _ entry (same.mem distinct member)
    have trimmed :
        ∀ entry ∈ config.entries, Trimmed isspace entry.key.text := by
      intro entry member
      have isRead := same.mem distinct member
      rw [reloaded_entries readable] at isRead
      exact entriesOf_trimmedKeys
        (fun text inFile key value => savedLines_key readable inFile) _ entry
        isRead
    intro entry member
    have cleaned : (reloaded config).entries =
        config.entries.map YaConfigEntry.cleaned := by
      rw [reloaded_entries readable]
      exact entriesOf_savedLines readable trimmed _ _
    -- The setting is read with its value cleaned.
    have distinctCleaned : (reloaded config).Distinct := by
      have sameNames :
          (reloaded config).pairs.map Prod.fst = config.pairs.map Prod.fst := by
        rw [YaConfig.pairs, YaConfig.pairs, cleaned, List.map_map,
          List.map_map, List.map_map]
        rfl
      rw [YaConfig.Distinct, sameNames]
      exact distinct
    have isRead : entry.cleaned ∈ (reloaded config).entries := by
      rw [cleaned]
      exact List.mem_map_of_mem member
    have found := lookup_of_mem distinctCleaned isRead
    have asBefore : some entry.cleaned.value.text = some entry.value.text := by
      rw [← found, ← lookup_of_mem distinct member]
      exact same.lookup entry
    exact {
      toReadableEntry := readable entry member
      keyTrimmed := trimmed entry member
      value := by
        rw [← cleanValue_eq_self_iff, ← entry.cleaned_value]
        exact Option.some.inj asBefore }
  · intro survives
    apply sameSettings_of_entries
    exact reloaded_unchanged
      (fun entry member => (survives entry member).toReadableEntry)
      (fun entry member => (survives entry member).keyTrimmed)
      (fun entry member => (survives entry member).value)

end Restart

/-! ## Two settings -/

/-- The setting `k=v` of the section `s`. -/
def plainSetting : SetCall where
  sectionName := [115]
  key := [107]
  value := [118]

/-- The setting `k=a;b` of the section `s`. -/
def semicolonSetting : SetCall where
  sectionName := [115]
  key := [107]
  value := [97, 59, 98]

/-- The configuration with one setting. -/
def SetCall.alone (call : SetCall) : YaConfig :=
  (call.perform (fun _ => true) yaConfigInit).1

theorem alone_run {call : SetCall} (accepted : call.Accepted) :
    ConfigRun yaConfigInit [call] call.alone :=
  .set (fun _ => true) call .start accepted rfl

theorem reloaded_iff_plain :
    SameSettings (reloaded plainSetting.alone) plainSetting.alone := by
  have accepted : plainSetting.Accepted := by constructor <;> decide
  refine (reloaded_iff (alone_run accepted)).mpr fun entry member => ?_
  rw [List.mem_singleton.mp member]
  exact {
    sectionTrimmed := trimmed_singleton (by decide)
    sectionClosing := by decide
    sectionNewline := by decide
    keyEquals := by decide
    keyStarts := by
      intro first isFirst
      cases isFirst
      decide
    keyNewline := by decide
    valueNewline := by decide
    length := by decide
    keyTrimmed := trimmed_singleton (by decide)
    value := {
      trimmed := trimmed_singleton (by decide)
      semicolon := by decide
      hash := by decide
      unquoted := by
        rintro ⟨rest, isQuoted, -⟩
        exact absurd (List.head_eq_of_cons_eq isQuoted) (by decide) } }

/-- The text behind the semicolon is gone after a restart. -/
theorem reloaded_semicolon :
    ConfigRun yaConfigInit [semicolonSetting] semicolonSetting.alone ∧
      yaConfigGet semicolonSetting.alone (some [115]) (some [107]) =
        some [97, 59, 98] ∧
      yaConfigGet (reloaded semicolonSetting.alone) (some [115])
          (some [107]) =
        some [97] ∧
      ¬ SameSettings (reloaded semicolonSetting.alone)
        semicolonSetting.alone := by
  have accepted : semicolonSetting.Accepted := by constructor <;> decide
  have before :
      yaConfigGet semicolonSetting.alone (some [115]) (some [107]) =
        some [97, 59, 98] := by decide
  have after :
      yaConfigGet (reloaded semicolonSetting.alone) (some [115])
          (some [107]) =
        some [97] := by decide
  refine ⟨alone_run accepted, before, after, fun same => ?_⟩
  have found := same [115] [107]
  rw [before, after] at found
  cases found

end MouseHero
