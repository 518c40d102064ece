import MouseHero.Config.RoundTrip

/-!
# Rewriting a file

What `ya_config_save` writes of a file that has been read is read as the same
entries if and only if every setting of the file is stable: its key is not cut
behind a blank, and the text between its quotes has neither blanks at its ends
nor quotes of its own.
-/

namespace MouseHero

open Scanning

/-! ## The lines of a file -/

/-- The characters of a line that the parser looks at. -/
def lineText (line : List UInt8) : List UInt8 :=
  trimWhitespace (cString line)

/-- A text with a key and a value. -/
structure SettingText (text : List UInt8) : Prop where
  equals : EQUALS ∈ text
  starts : startsSetting text

/-- The value in the text, still in its quotes. -/
def quotedValue (text : List UInt8) : List UInt8 :=
  removeInlineComment (trimWhitespace (behind EQUALS text))

/-- A setting that is read again as it has been stored. -/
structure StableSetting (text : List UInt8) : Prop where
  key :
    Trimmed isspace
      ((trimWhitespace (upTo EQUALS text)).take (MAX_KEY_LENGTH - 1))
  trimmed :
    Quoted (quotedValue text) → Trimmed isspace (unquote (quotedValue text))
  unquoted : Quoted (quotedValue text) → ¬ Quoted (unquote (quotedValue text))

theorem readLine_of_settingText {line : List UInt8}
    (isSetting : SettingText (lineText line)) :
    readLine line =
      .setting (trimWhitespace (upTo EQUALS (lineText line)))
        (unquote (quotedValue (lineText line))) := by
  obtain ⟨equals, starts⟩ := isSetting
  unfold readLine
  rw [← lineText]
  generalize lineText line = text at *
  cases text with
  | nil => cases equals
  | cons first rest =>
      obtain ⟨semicolon, hash, opening⟩ := starts first rfl
      have notComment : ¬ (first = SEMICOLON ∨ first = HASH) :=
        not_or.mpr ⟨semicolon, hash⟩
      simp only
      rw [if_neg notComment, if_neg opening, if_pos equals]
      rfl

theorem settingText_of_readLine {line key value : List UInt8}
    (reads : readLine line = .setting key value) :
    SettingText (lineText line) := by
  unfold readLine at reads
  rw [← lineText] at reads
  generalize lineText line = text at *
  cases text with
  | nil => cases reads
  | cons first rest =>
      simp only at reads
      split at reads
      · cases reads
      rename_i notComment
      split at reads
      · split at reads <;> cases reads
      rename_i notHeader
      split at reads
      · rename_i equals
        refine ⟨equals, fun head isHead => ?_⟩
        cases isHead
        rw [not_or] at notComment
        exact ⟨notComment.1, notComment.2, notHeader⟩
      · cases reads

/-- What holds of all stored keys and values holds of each setting as it is
stored. -/
theorem forall_entriesOf_iff (holds : List UInt8 → List UInt8 → Prop)
    (lines : List (List UInt8))
    (currentSection : CharArray MAX_SECTION_LENGTH) :
    (∀ entry ∈ entriesOf currentSection lines,
      holds entry.key.text entry.value.text) ↔
      ∀ line ∈ lines, ∀ key value, readLine line = .setting key value →
        holds (safeStrncpy key : CharArray MAX_KEY_LENGTH).text
          (safeStrncpy value : CharArray MAX_VALUE_LENGTH).text := by
  induction lines generalizing currentSection with
  | nil => simp [entriesOf]
  | cons line lines inductionHypothesis =>
      rw [entriesOf, List.forall_mem_cons]
      cases readLine line with
      | ignored => simp [inductionHypothesis]
      | sectionHeader name => simp [inductionHypothesis]
      | setting key value =>
          simp only [List.forall_mem_cons, inductionHypothesis,
            ConfigLine.setting.injEq]
          refine and_congr_left fun _ => ⟨?_, ?_⟩
          · rintro stored _ _ ⟨rfl, rfl⟩
            exact stored
          · intro stored
            exact stored key value ⟨rfl, rfl⟩

/-! ## Values -/

private theorem quotedValue_trimmed (text : List UInt8) :
    Trimmed isspace (quotedValue text) :=
  trimmed_trim _

theorem quotedValue_semicolon (text : List UInt8) :
    SEMICOLON ∉ quotedValue text := fun member =>
  notMem_upTo (mem_of_mem_upTo (mem_of_mem_trim member))

theorem quotedValue_hash (text : List UInt8) : HASH ∉ quotedValue text :=
  fun member => notMem_upTo (mem_of_mem_trim member)

/-- A value is plain once its quotes are gone, or it is not. -/
theorem plainValue_unquote_iff (text : List UInt8) :
    PlainValue (unquote (quotedValue text)) ↔
      (Quoted (quotedValue text) →
          Trimmed isspace (unquote (quotedValue text))) ∧
        (Quoted (quotedValue text) →
          ¬ Quoted (unquote (quotedValue text))) := by
  constructor
  · intro plain
    exact ⟨fun _ => plain.trimmed, fun _ => plain.unquoted⟩
  · rintro ⟨trimmed, unquoted⟩
    have inside := (unquote_inside (quotedValue text)).subset
    have semicolon : SEMICOLON ∉ unquote (quotedValue text) := fun member =>
      quotedValue_semicolon text (inside member)
    have hash : HASH ∉ unquote (quotedValue text) := fun member =>
      quotedValue_hash text (inside member)
    by_cases quoted : Quoted (quotedValue text)
    · exact ⟨trimmed quoted, semicolon, hash, unquoted quoted⟩
    · rw [unquote_of_not_quoted quoted] at *
      exact ⟨quotedValue_trimmed text, semicolon, hash, quoted⟩

/-- An entry that is written as it is read. -/
structure StableEntry (key value : List UInt8) : Prop where
  key : Trimmed isspace key
  value : PlainValue value

private theorem nul_notMem_lineText (line : List UInt8) : 0 ∉ lineText line :=
  fun member => nul_notMem_cString line (mem_of_mem_trim member)

private theorem stored_of_readLine {line key value : List UInt8}
    (isLine : LineOf 255 line) (reads : readLine line = .setting key value) :
    (safeStrncpy key : CharArray MAX_KEY_LENGTH).text =
        key.take (MAX_KEY_LENGTH - 1) ∧
      (safeStrncpy value : CharArray MAX_VALUE_LENGTH).text = value := by
  have isSetting := settingText_of_readLine reads
  have whole := upTo_append_behind isSetting.equals
  have parts := readLine_of_settingText isSetting
  rw [reads] at parts
  have noNul := nul_notMem_lineText line
  have keyNul : 0 ∉ key := by
    intro member
    rw [(ConfigLine.setting.inj parts).1] at member
    exact noNul (mem_of_mem_upTo (mem_of_mem_trim member))
  have valueNul : 0 ∉ value := by
    intro member
    rw [(ConfigLine.setting.inj parts).2] at member
    have inBack : 0 ∈ behind EQUALS (lineText line) :=
      (cleanValue_inside _).subset member
    rw [← whole] at noNul
    exact noNul (List.mem_append_right _ (List.mem_cons_of_mem _ inBack))
  have fits : value.length < 256 := by
    obtain ⟨text, -, short, rfl | rfl⟩ := isLine
    · have facts := readLine_setting reads
      have length := facts.length
      omega
    · rw [readLine_append_newline] at reads
      have facts := readLine_setting reads
      have length := facts.length
      omega
  refine ⟨?_, safeStrncpy_text valueNul fits⟩
  exact congrArg (List.take (MAX_KEY_LENGTH - 1)) (cString_of_no_nul keyNul)

/-! ## Reading what has been rewritten -/

/-- Entries that have been read are written and read again as they are if and
only if all are stable. -/
theorem reloaded_entries_iff {config : YaConfig}
    (readable : ∀ entry ∈ config.entries, ReadableEntry entry) :
    (reloaded config).entries = config.entries ↔
      ∀ entry ∈ config.entries, StableEntry entry.key.text entry.value.text := by
  constructor
  · intro same
    have trimmed :
        ∀ entry ∈ config.entries, Trimmed isspace entry.key.text := by
      intro entry member
      rw [← same, reloaded_entries readable] at member
      exact entriesOf_trimmedKeys
        (fun text inFile key value => savedLines_key readable inFile) _ entry
        member
    have cleaned : config.entries.map YaConfigEntry.cleaned = config.entries := by
      rw [← entriesOf_savedLines readable trimmed (safeStrncpy []) true,
        ← reloaded_entries readable, same]
    intro entry member
    have unchanged : entry.cleaned = entry := by
      have pointwise : config.entries.map YaConfigEntry.cleaned =
          config.entries.map id := by
        rw [cleaned, List.map_id]
      exact List.map_inj_left.mp pointwise entry member
    refine ⟨trimmed entry member, cleanValue_eq_self_iff.mp ?_⟩
    rw [← entry.cleaned_value, unchanged]
  · intro stable
    exact reloaded_unchanged readable
      (fun entry member => (stable entry member).key)
      (fun entry member => (stable entry member).value)

private theorem stableEntry_iff {line key value : List UInt8}
    (isLine : LineOf 255 line) (reads : readLine line = .setting key value) :
    StableEntry (safeStrncpy key : CharArray MAX_KEY_LENGTH).text
        (safeStrncpy value : CharArray MAX_VALUE_LENGTH).text ↔
      StableSetting (lineText line) := by
  obtain ⟨storedKey, storedValue⟩ := stored_of_readLine isLine reads
  have parts := readLine_of_settingText (settingText_of_readLine reads)
  rw [reads] at parts
  obtain ⟨isKey, isValue⟩ := ConfigLine.setting.inj parts
  rw [storedKey, storedValue, isKey, isValue]
  constructor
  · rintro ⟨trimmed, plain⟩
    have unquoted := (plainValue_unquote_iff _).mp plain
    exact ⟨trimmed, unquoted.1, unquoted.2⟩
  · rintro ⟨key, trimmed, unquoted⟩
    exact ⟨key, (plainValue_unquote_iff _).mpr ⟨trimmed, unquoted⟩⟩

/-- A file that is read, saved and read again gives the same entries if and
only if all its settings are stable. -/
theorem rewritten_iff (file : List UInt8) :
    (reloaded (loadedFrom file)).entries = (loadedFrom file).entries ↔
      ∀ line ∈ fgetsLines (MAX_LINE_LENGTH - 1) [] file,
        SettingText (lineText line) → StableSetting (lineText line) := by
  have isLine : ∀ line ∈ fgetsLines 255 [] file, LineOf 255 line :=
    fgetsLines_lineOf 255 file List.not_mem_nil (by decide)
  rw [reloaded_entries_iff (loadedFrom_readable file), loadedFrom_entries,
    forall_entriesOf_iff StableEntry]
  refine forall₂_congr fun line member => ?_
  constructor
  · intro stable isSetting
    have reads := readLine_of_settingText isSetting
    exact (stableEntry_iff (isLine line member) reads).mp (stable _ _ reads)
  · intro stable key value reads
    exact (stableEntry_iff (isLine line member) reads).mpr
      (stable (settingText_of_readLine reads))

/-- The file `[s]` with the setting `k=" v "`. -/
def paddedFile : List UInt8 :=
  [91, 115, 93, 10, 107, 61, 34, 32, 118, 32, 34, 10]

/-- The blanks between the quotes are lost when the file is rewritten. -/
theorem paddedFile_rewritten :
    yaConfigGet (loadedFrom paddedFile) (some [115]) (some [107]) =
        some [32, 118, 32] ∧
      yaConfigGet (reloaded (loadedFrom paddedFile)) (some [115])
          (some [107]) =
        some [118] ∧
      (reloaded (loadedFrom paddedFile)).entries ≠
        (loadedFrom paddedFile).entries := by
  have before :
      yaConfigGet (loadedFrom paddedFile) (some [115]) (some [107]) =
        some [32, 118, 32] := by decide
  have after :
      yaConfigGet (reloaded (loadedFrom paddedFile)) (some [115])
          (some [107]) =
        some [118] := by decide
  refine ⟨before, after, fun same => ?_⟩
  have found := sameSettings_of_entries same [115] [107]
  rw [before, after] at found
  cases found

end MouseHero
