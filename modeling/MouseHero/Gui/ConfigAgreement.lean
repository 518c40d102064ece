import MouseHero.Gui.PlainLines

/-!
# Two readers of one file

The desktop application and the server read the same settings from a file of
plain lines if and only if no setting stands outside a section with a name and
the sections are settled.
-/

namespace MouseHero

open Scanning Sections AssociationList

/-! ## Lines -/

/-- A line without control characters that one of the parsers treats as an end. -/
structure WholeLine (line : List Char) : Prop where
  nul : '\x00' ∉ line
  newline : '\n' ∉ line
  carriageReturn : '\r' ∉ line

/-- A file of plain lines that fit into the buffer of the server, each ended by
a line feed that a carriage return may precede. -/
inductive PlainFile : List Char → List (List Char) → Prop
  | last {line : List Char} :
      WholeLine line →
      PlainText line →
      (utf8 line).length ≤ 255 →
      PlainFile line [line]
  | next {line ending rest : List Char} {lines : List (List Char)} :
      WholeLine line →
      PlainText line →
      (ending = [] ∨ ending = ['\r']) →
      (utf8 (line ++ ending)).length ≤ 255 →
      PlainFile rest lines →
      PlainFile (line ++ ending ++ '\n' :: rest) (line :: lines)

section Files

variable {content line rest : List Char} {lines : List (List Char)}

/-- The desktop application splits a file into its lines. -/
theorem lineSplitterSplit_append (whole : WholeLine line)
    (begun rest : List Char) :
    lineSplitterSplit begun (line ++ rest) =
      lineSplitterSplit (begun ++ line) rest := by
  obtain ⟨-, newline, carriageReturn⟩ := whole
  induction line generalizing begun with
  | nil => simp
  | cons char line inductionHypothesis =>
      rw [List.mem_cons, not_or] at newline carriageReturn
      have noNewline : char ≠ '\n' := Ne.symm newline.1
      have noReturn : char ≠ '\r' := Ne.symm carriageReturn.1
      rw [List.cons_append,
        lineSplitterSplit.eq_5 _ _ _ noNewline (fun _ same => absurd same noReturn)
          noReturn,
        inductionHypothesis _ newline.2 carriageReturn.2, List.append_assoc,
        List.singleton_append]

private theorem guiReadLine_nil (config : GuiConfig) : config.readLine [] = config :=
  rfl

private theorem foldl_lineSplitterSplit (plain : PlainFile content lines)
    (config : GuiConfig) :
    (lineSplitterSplit [] content).foldl GuiConfig.readLine config =
      lines.foldl GuiConfig.readLine config := by
  induction plain generalizing config with
  | @last line whole _ _ =>
      have split := lineSplitterSplit_append whole [] []
      rw [List.append_nil, List.nil_append, lineSplitterSplit] at split
      rw [split]
      split
      · rename_i empty
        rw [empty, List.foldl_cons, guiReadLine_nil]
      · rfl
  | @next line ending rest lines whole _ isEnding _ _ inductionHypothesis =>
      have split : lineSplitterSplit [] (line ++ ending ++ '\n' :: rest) =
          line :: lineSplitterSplit [] rest := by
        rw [List.append_assoc, lineSplitterSplit_append whole, List.nil_append]
        rcases isEnding with rfl | rfl
        · rw [List.nil_append, lineSplitterSplit]
        · rw [List.singleton_append, lineSplitterSplit]
      rw [split, List.foldl_cons, List.foldl_cons, inductionHypothesis]

private theorem readLine_utf8_ending {ending : List Char}
    (isEnding : ending = [] ∨ ending = ['\r']) (line : List Char) :
    readLine (utf8 (line ++ ending)) = readLine (utf8 line) := by
  rcases isEnding with rfl | rfl
  · rw [List.append_nil]
  · rw [utf8_append, utf8_ascii_cons (by decide)]
    exact readLine_append_blank (by decide) (utf8 line)

private theorem newline_notMem_utf8 {ending : List Char} (whole : WholeLine line)
    (isEnding : ending = [] ∨ ending = ['\r']) :
    NEWLINE ∉ utf8 (line ++ ending) := by
  intro member
  have isNewline : '\n' ∈ line ++ ending :=
    (asciiByte_mem_utf8_iff (by decide)).mp member
  rcases List.mem_append.mp isNewline with inside | atEnd
  · exact whole.newline inside
  · rcases isEnding with rfl | rfl
    · cases atEnd
    · exact absurd atEnd (by decide)

theorem entriesOf_fgetsLines (plain : PlainFile content lines)
    (currentSection : CharArray MAX_SECTION_LENGTH) :
    entriesOf currentSection (fgetsLines 255 [] (utf8 content)) =
      entriesOf currentSection (lines.map utf8) := by
  induction plain generalizing currentSection with
  | @last line whole _ short =>
      have newline := newline_notMem_utf8 whole (Or.inl rfl)
      rw [List.append_nil] at newline
      rw [fgetsLines_last newline short (by decide), List.nil_append,
        List.map_singleton]
      split
      · rename_i empty
        rw [empty]
        rfl
      · rfl
  | @next line ending rest lines whole _ isEnding short _ inductionHypothesis =>
      have bytes : utf8 (line ++ ending ++ '\n' :: rest) =
          utf8 (line ++ ending) ++ NEWLINE :: utf8 rest := by
        rw [utf8_append, utf8_ascii_cons (by decide)]
        rfl
      have newline := newline_notMem_utf8 whole isEnding
      have sameLine (others : List (List UInt8)) :
          entriesOf currentSection (utf8 (line ++ ending) :: others) =
            entriesOf currentSection (utf8 line :: others) := by
        rw [entriesOf, readLine_utf8_ending isEnding, entriesOf]
      rw [bytes, fgetsLines_append newline short (by decide), List.nil_append,
        entriesOf_brokenLine, List.map_cons, sameLine]
      exact entriesOf_cons_congr inductionHypothesis _ currentSection

theorem PlainFile.facts (plain : PlainFile content lines) :
    ∀ line ∈ lines, WholeLine line ∧
      SameReading (guiLine line) (readLine (utf8 line)) := by
  induction plain with
  | last whole plainText short =>
      intro line member
      rw [List.mem_singleton.mp member]
      exact ⟨whole, (sameReading_iff whole.nul short).mpr plainText⟩
  | next whole plainText _ short _ inductionHypothesis =>
      intro line member
      rcases List.mem_cons.mp member with rfl | later
      · rw [utf8_append, List.length_append] at short
        exact ⟨whole, (sameReading_iff whole.nul (by omega)).mpr plainText⟩
      · exact inductionHypothesis line later

end Files

/-! ## Values -/

section Values

variable {content group key : List Char} {lines : List (List Char)}

private theorem guiReadLine_unnamed (config : GuiConfig)
    (absent : ∀ key, config.value [] key = none) (opened : config.Opened)
    (line key : List Char) : (config.readLine line).value [] key = none := by
  rw [GuiConfig.readLine]
  cases guiLine line with
  | ignored => exact absent key
  | group name =>
      simp only [GuiConfig.value_group, absent, ite_self]
  | setting other value =>
      simp only
      split
      · exact absent key
      · rename_i named
        rw [config.value_setting opened named, if_neg fun both => named both.1.symm]
        exact absent key

private theorem foldl_value_unnamed (lines : List (List Char)) (config : GuiConfig)
    (absent : ∀ key, config.value [] key = none) (opened : config.Opened) :
    (lines.foldl GuiConfig.readLine config).value [] key = none := by
  induction lines generalizing config with
  | nil => exact absent key
  | cons line lines inductionHypothesis =>
      exact inductionHypothesis (config.readLine line)
        (guiReadLine_unnamed config absent opened line) (opened.readLine line)

private theorem guiValue_eq (plain : PlainFile content lines) :
    guiValue content group key =
      if group = [] then none
      else lastValue (blocksOf (lines.map guiLine)).2 group key := by
  have parsed : guiValue content group key =
      (lines.foldl GuiConfig.readLine {
        currentGroup := []
        result := fun _ => none }).value group key := by
    rw [← foldl_lineSplitterSplit plain]
    rfl
  rw [parsed]
  split
  · rename_i unnamed
    rw [unnamed]
    exact foldl_value_unnamed lines _ (fun _ => rfl) fun named => absurd rfl named
  · rename_i named
    rw [foldl_value named lines fun named => absurd rfl named, if_neg named]
    split
    · rfl
    · rename_i absent
      have noSettings : settingsOf (blocksOf (lines.map guiLine)).2 group = [] := by
        rw [settingsOf, List.filter_eq_nil_iff.mpr]
        · rfl
        · intro block member same
          exact absent ⟨block, member, of_decide_eq_true same⟩
      exact (values_eq_none (by simp [noSettings])).2.symm

private theorem lookup_entriesOf {current : List Char}
    {currentSection : CharArray MAX_SECTION_LENGTH}
    (same : ∀ line ∈ lines, SameReading (guiLine line) (readLine (utf8 line)))
    (isCurrent : currentSection.text = utf8 current) :
    ((entriesOf currentSection (lines.map utf8)).map YaConfigEntry.pair).lookup
        { sectionName := utf8 group, key := utf8 key } =
      ((if group = current then
          lookupFirst (blocksOf (lines.map guiLine)).1 key
        else none).or
          (firstValue (blocksOf (lines.map guiLine)).2 group key)).map utf8 := by
  induction lines generalizing current currentSection with
  | nil => simp [entriesOf, blocksOf, lookupFirst, firstValue, settingsOf]
  | cons line lines inductionHypothesis =>
      have sameLine := same line List.mem_cons_self
      have next {name : List Char} {sectionName : CharArray MAX_SECTION_LENGTH} :=
        @inductionHypothesis name sectionName fun line member =>
          same line (List.mem_cons_of_mem _ member)
      rw [List.map_cons, List.map_cons, entriesOf]
      cases server : readLine (utf8 line) with
      | ignored =>
          rw [server] at sameLine
          rw [sameLine.ignored]
          exact next isCurrent
      | sectionHeader sectionName =>
          rw [server] at sameLine
          obtain ⟨name, gui, sameName⟩ := sameLine.header
          simp only [gui, blocksOf]
          rw [next sameName, firstValue, firstValue, settingsOf_cons,
            lookupFirst_append]
          by_cases isName : group = name
          · simp [isName, lookupFirst]
          · simp [isName, Ne.symm isName, lookupFirst]
      | setting serverKey serverValue =>
          rw [server] at sameLine
          obtain ⟨name, value, gui, sameKey, sameValue⟩ := sameLine.setting
          have isName : (({ sectionName := utf8 group, key := utf8 key } :
                SettingName) =
              { sectionName := utf8 current, key := utf8 name }) ↔
                group = current ∧ key = name := by
            rw [SettingName.mk.injEq, utf8_injective.eq_iff, utf8_injective.eq_iff]
          simp only [gui, blocksOf, List.map_cons, YaConfigEntry.pair]
          rw [lookup_cons_eq, isCurrent, sameKey, sameValue, next isCurrent]
          by_cases isGroup : group = current
          · by_cases isKey : key = name
            · simp [isGroup, isKey, lookupFirst]
            · rw [if_neg fun both => isKey (isName.mp both).2, lookupFirst_cons,
                if_neg isKey]
          · simp [isName, isGroup]

theorem yaConfigGet_plain (plain : PlainFile content lines)
    (groupNul : '\x00' ∉ group) (keyNul : '\x00' ∉ key) :
    yaConfigGet (loadedFrom (utf8 content)) (some (utf8 group))
        (some (utf8 key)) =
      ((if group = [] then lookupFirst (blocksOf (lines.map guiLine)).1 key
        else none).or
          (firstValue (blocksOf (lines.map guiLine)).2 group key)).map utf8 := by
  have same : ∀ line ∈ lines, SameReading (guiLine line) (readLine (utf8 line)) :=
    fun line member => (plain.facts line member).2
  rw [yaConfigGet_eq_lookup, YaConfig.pairs, loadedFrom_entries,
    entriesOf_fgetsLines plain,
    cString_of_no_nul (nul_notMem_utf8 groupNul List.infix_rfl),
    cString_of_no_nul (nul_notMem_utf8 keyNul List.infix_rfl)]
  exact lookup_entriesOf same rfl

end Values

/-! ## Agreement -/

/-- Both parsers find the same value for each section and key. -/
def ReadAlike (content : List Char) : Prop :=
  ∀ group key, '\x00' ∉ group → '\x00' ∉ key →
    (guiValue content group key).map utf8 =
      yaConfigGet (loadedFrom (utf8 content)) (some (utf8 group))
        (some (utf8 key))

/-- All settings stand in a section with a name, and the sections are settled. -/
structure Orderly (lines : List GuiLine) : Prop where
  outside : (blocksOf lines).1 = []
  unnamed : settingsOf (blocksOf lines).2 [] = []
  settled : Sections.Settled (blocksOf lines).2

section Agreement

variable {content line name key value : List Char} {lines : List (List Char)}

private theorem notMem_of_guiLine_group (whole : WholeLine line)
    (reads : guiLine line = .group name) : '\x00' ∉ name := by
  intro member
  have inTrimmed : '\x00' ∈ dartTrim line := by
    rw [header_of_guiLine reads]
    simp [member]
  exact whole.nul (mem_of_mem_trim inTrimmed)

private theorem notMem_of_guiLine_setting (whole : WholeLine line)
    (reads : guiLine line = .setting key value) : '\x00' ∉ key := by
  intro member
  rw [(setting_of_guiLine reads).1] at member
  have inLine : '\x00' ∈ dartTrim line :=
    (List.takeWhile_prefix _).subset (mem_of_mem_trim member)
  exact whole.nul (mem_of_mem_trim inLine)

private theorem blocksOf_nul (whole : ∀ line ∈ lines, WholeLine line) :
    (∀ setting ∈ (blocksOf (lines.map guiLine)).1, '\x00' ∉ setting.1) ∧
      ∀ block ∈ (blocksOf (lines.map guiLine)).2, '\x00' ∉ block.name ∧
        ∀ setting ∈ block.settings, '\x00' ∉ setting.1 := by
  induction lines with
  | nil => simp [blocksOf]
  | cons line lines inductionHypothesis =>
      obtain ⟨outside, blocks⟩ := inductionHypothesis fun line member =>
        whole line (List.mem_cons_of_mem _ member)
      have wholeLine := whole line List.mem_cons_self
      rw [List.map_cons]
      cases reads : guiLine line with
      | ignored => exact ⟨outside, blocks⟩
      | group name =>
          refine ⟨by simp [blocksOf], ?_⟩
          rw [blocksOf, List.forall_mem_cons]
          exact ⟨⟨notMem_of_guiLine_group wholeLine reads, outside⟩, blocks⟩
      | setting key value =>
          rw [blocksOf, List.forall_mem_cons]
          exact ⟨⟨notMem_of_guiLine_setting wholeLine reads, outside⟩, blocks⟩

theorem readAlike_iff_values (plain : PlainFile content lines) :
    ReadAlike content ↔
      ∀ group key, '\x00' ∉ group → '\x00' ∉ key →
        (if group = [] then none
          else lastValue (blocksOf (lines.map guiLine)).2 group key) =
          (if group = [] then lookupFirst (blocksOf (lines.map guiLine)).1 key
            else none).or
              (firstValue (blocksOf (lines.map guiLine)).2 group key) := by
  refine forall_congr' fun group => forall_congr' fun key =>
    forall_congr' fun groupNul => forall_congr' fun keyNul => ?_
  rw [guiValue_eq plain, yaConfigGet_plain plain groupNul keyNul]
  exact (Option.map_injective utf8_injective).eq_iff

private theorem readAlike_of_orderly (plain : PlainFile content lines)
    (orderly : Orderly (lines.map guiLine)) : ReadAlike content := by
  rw [readAlike_iff_values plain]
  intro group key _ _
  rw [orderly.outside]
  have agreed := firstValue_eq_lastValue_iff.mpr orderly.settled group key
  by_cases unnamed : group = []
  · have noKey : key ∉
        (settingsOf (blocksOf (lines.map guiLine)).2 []).map Prod.fst := by
      rw [orderly.unnamed]
      exact List.not_mem_nil
    rw [if_pos unnamed, if_pos unnamed, unnamed, (values_eq_none noKey).1]
    rfl
  · rw [if_neg unnamed, if_neg unnamed, ← agreed]
    rfl

private theorem orderly_of_readAlike (plain : PlainFile content lines)
    (alike : ReadAlike content) : Orderly (lines.map guiLine) := by
  rw [readAlike_iff_values plain] at alike
  obtain ⟨outsideNul, blocksNul⟩ := blocksOf_nul fun line member =>
    (plain.facts line member).1
  have settingNul : ∀ name, ∀ setting ∈ settingsOf (blocksOf (lines.map guiLine)).2
      name, '\x00' ∉ name ∧ '\x00' ∉ setting.1 := by
    intro name setting member
    obtain ⟨block, isBlock, inBlock⟩ := List.mem_flatMap.mp member
    rw [List.mem_filter, decide_eq_true_eq] at isBlock
    obtain ⟨inFile, rfl⟩ := isBlock
    exact ⟨(blocksNul block inFile).1, (blocksNul block inFile).2 setting inBlock⟩
  have unnamedAbsent : ∀ key, '\x00' ∉ key →
      lookupFirst (blocksOf (lines.map guiLine)).1 key = none ∧
        firstValue (blocksOf (lines.map guiLine)).2 [] key = none := by
    intro key keyNul
    have same := alike [] key List.not_mem_nil keyNul
    rw [if_pos rfl, if_pos rfl] at same
    exact Option.or_eq_none_iff.mp same.symm
  have outside : (blocksOf (lines.map guiLine)).1 = [] := by
    rw [List.eq_nil_iff_forall_not_mem]
    intro setting member
    have absent := (unnamedAbsent setting.1 (outsideNul setting member)).1
    exact lookupFirst_eq_none_iff.mp absent (List.mem_map_of_mem member)
  have unnamed : settingsOf (blocksOf (lines.map guiLine)).2 [] = [] := by
    rw [List.eq_nil_iff_forall_not_mem]
    intro setting member
    have absent := (unnamedAbsent setting.1 (settingNul [] setting member).2).2
    exact lookupFirst_eq_none_iff.mp absent (List.mem_map_of_mem member)
  refine ⟨outside, unnamed, firstValue_eq_lastValue_iff.mp fun name key => ?_⟩
  by_cases present :
      key ∈ (settingsOf (blocksOf (lines.map guiLine)).2 name).map Prod.fst
  · obtain ⟨setting, member, rfl⟩ := List.mem_map.mp present
    obtain ⟨nameNul, keyNul⟩ := settingNul name setting member
    have named : name ≠ [] := by
      rintro rfl
      rw [unnamed] at member
      cases member
    have same := alike name setting.1 nameNul keyNul
    rw [if_neg named, if_neg named] at same
    exact same.symm
  · obtain ⟨noFirst, noLast⟩ := values_eq_none present
    rw [noFirst, noLast]

/-- A file of plain lines is read alike if and only if it is orderly. -/
theorem readAlike_iff (plain : PlainFile content lines) :
    ReadAlike content ↔ Orderly (lines.map guiLine) :=
  ⟨orderly_of_readAlike plain, readAlike_of_orderly plain⟩

end Agreement

/-- The section of the HTTP server, with a comment in a line of its own. -/
def httpFile : List Char :=
  "# loopback only\n[http]\nlistener=127.0.0.1:21218\n".toList

def httpLines : List (List Char) :=
  ["# loopback only".toList, "[http]".toList, "listener=127.0.0.1:21218".toList,
    []]

private theorem httpFile_plain : PlainFile httpFile httpLines := by
  have comment : PlainText "# loopback only".toList := .comment (by decide)
  have header : PlainText "[http]".toList :=
    @PlainText.header _ "http".toList (by decide) (by decide) (by decide)
      (trim_eq_self_iff.mp (by decide)) (by decide)
  have value : PlainChars "127.0.0.1:21218".toList := by
    refine ⟨by decide, by decide, by decide, fun rest isQuoted => ?_⟩
    have starts : (asciiTrim "127.0.0.1:21218".toList).head? = some '"' :=
      congrArg List.head? isQuoted
    exact absurd starts (by decide)
  have setting : PlainText "listener=127.0.0.1:21218".toList :=
    @PlainText.setting "listener".toList _ (by decide)
      ⟨by decide, by decide, by decide⟩ (by decide) value
  have empty : PlainText [] :=
    .words List.not_mem_nil (fun opening => absurd opening (by decide))
      fun opening => absurd opening (by decide)
  have lastLine : PlainFile [] [[]] :=
    .last ⟨by decide, by decide, by decide⟩ empty (by decide)
  exact .next ⟨by decide, by decide, by decide⟩ comment (Or.inl rfl) (by decide)
    (.next ⟨by decide, by decide, by decide⟩ header (Or.inl rfl) (by decide)
      (.next ⟨by decide, by decide, by decide⟩ setting (Or.inl rfl) (by decide)
        lastLine))

private theorem httpLines_orderly : Orderly (httpLines.map guiLine) := by
  have parsed : blocksOf (httpLines.map guiLine) =
      ([], [{
        name := "http".toList
        settings := [("listener".toList, "127.0.0.1:21218".toList)] }]) := by
    decide
  refine ⟨by rw [parsed], by rw [parsed]; decide,
    firstValue_eq_lastValue_iff.mp fun name key => ?_⟩
  rw [parsed]
  by_cases isHttp : name = "http".toList
  · simp [firstValue, lastValue, settingsOf, lastSettings, lookupFirst, lookupLast,
      isHttp]
  · have absent (settings : List (List Char × List Char)) :
        settingsOf [{ name := "http".toList, settings }] name = [] := by
      rw [settingsOf_cons, if_neg (Ne.symm isHttp)]
      rfl
    have noKey : key ∉ (settingsOf [{
        name := "http".toList
        settings := [("listener".toList, "127.0.0.1:21218".toList)] }]
          name).map Prod.fst := by
      rw [absent]
      exact List.not_mem_nil
    obtain ⟨noFirst, noLast⟩ := values_eq_none noKey
    rw [noFirst, noLast]

theorem readAlike_iff_httpFile : ReadAlike httpFile :=
  (readAlike_iff httpFile_plain).mpr httpLines_orderly

/-- The same with the comment behind the address. -/
def commentedFile : List Char :=
  "[http]\nlistener=127.0.0.1:21218 ; loopback only\n".toList

theorem commentedFile_readDifferently :
    ¬ ReadAlike commentedFile := by
  intro alike
  have same := alike "http".toList "listener".toList (by decide) (by decide)
  exact absurd same (by decide)

end MouseHero
