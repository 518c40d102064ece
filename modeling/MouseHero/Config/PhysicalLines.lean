import MouseHero.Config.Rewriting

/-!
# Physical lines

A line that is longer than the buffer is read in pieces, each of which is
parsed like a line.  What becomes of the line is what becomes of its first
piece if and only if the other pieces are inert.
-/

namespace MouseHero

open Scanning

/-! ## The section behind lines -/

/-- `current_section` behind lines. -/
def sectionAfter (currentSection : CharArray MAX_SECTION_LENGTH) :
    List (List UInt8) → CharArray MAX_SECTION_LENGTH
  | [] => currentSection
  | line :: lines =>
      match readLine line with
      | .sectionHeader name => sectionAfter name lines
      | .ignored | .setting _ _ => sectionAfter currentSection lines

theorem sectionAfter_append (first second : List (List UInt8))
    (currentSection : CharArray MAX_SECTION_LENGTH) :
    sectionAfter currentSection (first ++ second) =
      sectionAfter (sectionAfter currentSection first) second := by
  induction first generalizing currentSection with
  | nil => rfl
  | cons line lines inductionHypothesis =>
      rw [List.cons_append, sectionAfter, sectionAfter]
      cases readLine line with
      | ignored => exact inductionHypothesis currentSection
      | sectionHeader name => exact inductionHypothesis name
      | setting key value => exact inductionHypothesis currentSection

theorem entriesOf_append (first second : List (List UInt8))
    (currentSection : CharArray MAX_SECTION_LENGTH) :
    entriesOf currentSection (first ++ second) =
      entriesOf currentSection first ++
        entriesOf (sectionAfter currentSection first) second := by
  induction first generalizing currentSection with
  | nil => rfl
  | cons line lines inductionHypothesis =>
      rw [List.cons_append, entriesOf, entriesOf, sectionAfter]
      cases readLine line with
      | ignored => exact inductionHypothesis currentSection
      | sectionHeader name => exact inductionHypothesis name
      | setting key value =>
          rw [List.cons_append]
          exact congrArg _ (inductionHypothesis currentSection)

/-- Lines that the parser takes the same entries and the same section from. -/
structure SameEffect (first second : List (List UInt8)) : Prop where
  entries : ∀ name, entriesOf name first = entriesOf name second
  current : ∀ name, sectionAfter name first = sectionAfter name second

namespace SameEffect

variable {first second : List (List UInt8)}

theorem cons (same : SameEffect first second) (line : List UInt8) :
    SameEffect (line :: first) (line :: second) where
  entries := entriesOf_cons_congr same.entries line
  current := by
    intro name
    rw [sectionAfter, sectionAfter]
    cases readLine line <;> exact same.current _

theorem singleton {line other : List UInt8}
    (same : readLine line = readLine other) :
    SameEffect [line] [other] where
  entries := by
    intro name
    rw [entriesOf, entriesOf, same]
    rfl
  current := by
    intro name
    rw [sectionAfter, sectionAfter, same]
    rfl

end SameEffect

/-! ## Files in parts -/

/-- Nothing, or a text that ends with the end of a line. -/
def Complete (file : List UInt8) : Prop :=
  file = [] ∨ ∃ front, file = front ++ [NEWLINE]

private theorem fgetsLines_newline (room : Nat) (front line tail : List UInt8) :
    fgetsLines room line (front ++ NEWLINE :: tail) =
      fgetsLines room line (front ++ [NEWLINE]) ++ fgetsLines room [] tail := by
  induction front generalizing line with
  | nil => simp [fgetsLines]
  | cons byte front inductionHypothesis =>
      rw [List.cons_append, List.cons_append, fgetsLines, fgetsLines]
      split
      · rw [inductionHypothesis, List.cons_append]
      · exact inductionHypothesis _

theorem fgetsLines_complete {front : List UInt8} (complete : Complete front)
    (room : Nat) (tail : List UInt8) :
    fgetsLines room [] (front ++ tail) =
      fgetsLines room [] front ++ fgetsLines room [] tail := by
  rcases complete with rfl | ⟨text, rfl⟩
  · simp [fgetsLines]
  · rw [List.append_assoc, List.singleton_append, fgetsLines_newline]

/-- `current_section` when a file has been read. -/
def sectionAt (file : List UInt8) : CharArray MAX_SECTION_LENGTH :=
  sectionAfter (safeStrncpy []) (fgetsLines 255 [] file)

theorem loadedFrom_append {front : List UInt8} (complete : Complete front)
    (tail : List UInt8) :
    (loadedFrom (front ++ tail)).entries =
      (loadedFrom front).entries ++
        entriesOf (sectionAt front) (fgetsLines 255 [] tail) := by
  rw [loadedFrom_entries, loadedFrom_entries, fgetsLines_complete complete,
    entriesOf_append]
  rfl

theorem sectionAt_append {front : List UInt8} (complete : Complete front)
    (tail : List UInt8) :
    sectionAt (front ++ tail) =
      sectionAfter (sectionAt front) (fgetsLines 255 [] tail) := by
  rw [sectionAt, fgetsLines_complete complete, sectionAfter_append]
  rfl

/-! ## Pieces of a line -/

/-- The bytes of a line that one call of `fgets` returns. -/
def piece (text : List UInt8) (number : Nat) : List UInt8 :=
  (text.drop (255 * number)).take 255

/-- The pieces behind the first. -/
def laterPieces (text : List UInt8) : List (List UInt8) :=
  (List.range (text.length / 255)).map fun number => piece text (number + 1)

private theorem piece_succ (text : List UInt8) (number : Nat) :
    piece text (number + 1) = piece (text.drop 255) number := by
  rw [piece, piece, List.drop_drop, Nat.mul_succ, Nat.add_comm]

theorem piece_of_beyond {text : List UInt8} {number : Nat}
    (beyond : text.length / 255 < number) : piece text number = [] := by
  have short : text.length ≤ 255 * number := by omega
  rw [piece, List.drop_eq_nil_of_le short]
  rfl

private theorem laterPieces_of_long {text : List UInt8} (long : 255 ≤ text.length) :
    laterPieces text =
      piece (text.drop 255) 0 :: laterPieces (text.drop 255) := by
  have count : text.length / 255 = (text.drop 255).length / 255 + 1 := by
    rw [List.length_drop]
    omega
  rw [laterPieces, count, List.range_succ_eq_map, List.map_cons, List.map_map,
    piece_succ]
  refine congrArg _ (List.map_congr_left fun number _ => ?_)
  exact piece_succ text (number + 1)

private theorem laterPieces_of_short {text : List UInt8} (short : text.length < 255) :
    laterPieces text = [] := by
  rw [laterPieces, Nat.div_eq_of_lt short]
  rfl

/-- A full buffer is returned without the end of the line. -/
theorem fgetsLines_full {room : Nat} {text line : List UInt8}
    (noNewline : NEWLINE ∉ text) (begun : line.length < room)
    (full : line.length + text.length = room) (tail : List UInt8) :
    fgetsLines room line (text ++ tail) =
      (line ++ text) :: fgetsLines room [] tail := by
  induction text generalizing line with
  | nil =>
      rw [List.length_nil] at full
      omega
  | cons byte text inductionHypothesis =>
      rw [List.mem_cons, not_or] at noNewline
      have different : byte ≠ NEWLINE := Ne.symm noNewline.1
      have longer : (line ++ [byte]).length = line.length + 1 := by simp
      rw [List.length_cons] at full
      rw [List.cons_append, fgetsLines]
      by_cases last : room ≤ (line ++ [byte]).length
      · have noMore : text = [] := List.eq_nil_of_length_eq_zero (by omega)
        rw [if_pos (Or.inr last), noMore, List.nil_append]
      · rw [if_neg (not_or.mpr ⟨different, last⟩),
          inductionHypothesis noNewline.2 (by omega) (by omega)]
        simp

private theorem fgetsLines_of_long {text : List UInt8} (noNewline : NEWLINE ∉ text)
    (long : 255 ≤ text.length) (tail : List UInt8) :
    fgetsLines 255 [] (text ++ tail) =
      piece text 0 :: fgetsLines 255 [] (text.drop 255 ++ tail) := by
  have front : (text.take 255).length = 255 := by
    rw [List.length_take]
    omega
  have noFront : NEWLINE ∉ text.take 255 := fun member =>
    noNewline (List.mem_of_mem_take member)
  have read :
      fgetsLines 255 [] (text.take 255 ++ (text.drop 255 ++ tail)) =
        ([] ++ text.take 255) :: fgetsLines 255 [] (text.drop 255 ++ tail) :=
    fgetsLines_full noFront (by decide) (by simpa using front) _
  rw [← List.append_assoc, List.take_append_drop, List.nil_append] at read
  exact read

theorem fgetsLines_pieces {text : List UInt8} (noNewline : NEWLINE ∉ text) :
    SameEffect (fgetsLines 255 [] (text ++ [NEWLINE]))
      (piece text 0 :: laterPieces text) := by
  induction count : text.length using Nat.strong_induction_on
    generalizing text with
  | _ length inductionHypothesis =>
      by_cases long : 255 ≤ text.length
      · have noRest : NEWLINE ∉ text.drop 255 := fun member =>
          noNewline (List.mem_of_mem_drop member)
        have shorter : (text.drop 255).length < length := by
          rw [List.length_drop]
          omega
        rw [fgetsLines_of_long noNewline long, laterPieces_of_long long]
        exact (inductionHypothesis _ shorter noRest rfl).cons (piece text 0)
      · have short : text.length < 255 := Nat.not_le.mp long
        have whole : piece text 0 = text := by
          rw [piece, Nat.mul_zero, List.drop_zero,
            List.take_of_length_le short.le]
        have read :
            fgetsLines 255 [] (text ++ [NEWLINE]) = [text ++ [NEWLINE]] := by
          have broken :
              fgetsLines 255 [] (text ++ NEWLINE :: []) =
                brokenLine 255 ([] ++ text) ++ fgetsLines 255 [] [] :=
            fgetsLines_append noNewline (by simpa using short.le) (by decide) []
          rw [List.nil_append, brokenLine, if_pos short] at broken
          simpa [fgetsLines] using broken
        rw [read, whole, laterPieces_of_short short]
        exact SameEffect.singleton (readLine_append_newline text)

/-! ## Headers and comments -/

/-- A text with the name of a section. -/
inductive HeaderText : List UInt8 → CharArray MAX_SECTION_LENGTH → Prop
  | header (rest : List UInt8) :
      CLOSING ∈ OPENING :: rest →
      HeaderText (OPENING :: rest)
        (trimSection (safeStrncpy (upTo CLOSING rest)))

/-- The first character of the text says that it is a comment. -/
def IsComment (text : List UInt8) : Prop :=
  ∃ first ∈ (lineText text).head?, first = SEMICOLON ∨ first = HASH

theorem readLine_header_iff {line : List UInt8}
    {name : CharArray MAX_SECTION_LENGTH} :
    readLine line = .sectionHeader name ↔ HeaderText (lineText line) name := by
  unfold readLine
  rw [← lineText]
  generalize lineText line = text
  constructor
  · intro reads
    cases text with
    | nil => cases reads
    | cons first rest =>
        simp only at reads
        split at reads
        · cases reads
        split at reads
        · rename_i isOpening
          subst isOpening
          split at reads
          · rename_i closed
            cases reads
            exact .header rest closed
          · cases reads
        · split at reads <;> cases reads
  · rintro ⟨rest, closed⟩
    have notComment : ¬ (OPENING = SEMICOLON ∨ OPENING = HASH) := by decide
    simp only [notComment, if_false, if_true, closed]

private theorem readLine_setting_iff {line : List UInt8} :
    (∃ key value, readLine line = .setting key value) ↔
      SettingText (lineText line) := by
  constructor
  · rintro ⟨key, value, reads⟩
    exact settingText_of_readLine reads
  · intro isSetting
    exact ⟨_, _, readLine_of_settingText isSetting⟩

private theorem readLine_of_comment {line : List UInt8} (comment : IsComment line) :
    readLine line = .ignored := by
  obtain ⟨first, isFirst, isMark⟩ := comment
  unfold readLine
  rw [← lineText]
  generalize lineText line = text at *
  cases text with
  | nil => cases isFirst
  | cons head rest =>
      cases isFirst
      simp only
      rw [if_pos isMark]

private theorem readLine_of_blank {line : List UInt8} (blank : lineText line = []) :
    readLine line = .ignored := by
  unfold readLine
  rw [← lineText, blank]

/-- A text begins like its front, unless the front is blank. -/
theorem head?_lineText_take (text : List UInt8) (count : Nat) :
    lineText (text.take count) = [] ∨
      (lineText (text.take count)).head? = (lineText text).head? := by
  have front : cString (text.take count) = (cString text).take count :=
    List.take_takeWhile.symm
  rw [lineText, lineText, trimWhitespace, trimWhitespace, front]
  have whole := List.take_append_drop count (cString text)
  cases start : ((cString text).take count).dropWhile isspace with
  | nil =>
      left
      rw [trim, start]
      rfl
  | cons first rest =>
      right
      rw [head?_trim, head?_trim, ← whole, List.dropWhile_append, start, whole,
        start]
      rfl

theorem readLine_take_of_comment {text : List UInt8} (comment : IsComment text)
    (count : Nat) : readLine (text.take count) = .ignored := by
  rcases head?_lineText_take text count with blank | same
  · exact readLine_of_blank blank
  · obtain ⟨first, isFirst, isMark⟩ := comment
    exact readLine_of_comment ⟨first, same ▸ isFirst, isMark⟩

/-! ## Inert lines -/

private theorem sectionAfter_range_cases (line : Nat → List UInt8) (count : Nat)
    (currentSection : CharArray MAX_SECTION_LENGTH) :
    ((∀ number < count, ∀ name, ¬ HeaderText (lineText (line number)) name) ∧
        sectionAfter currentSection ((List.range count).map line) =
          currentSection) ∨
      ∃ last < count,
        HeaderText (lineText (line last))
            (sectionAfter currentSection ((List.range count).map line)) ∧
          ∀ later < count, last < later →
            ∀ name, ¬ HeaderText (lineText (line later)) name := by
  induction count with
  | zero =>
      left
      exact ⟨fun number below => absurd below (Nat.not_lt_zero number), rfl⟩
  | succ count inductionHypothesis =>
      rw [List.range_succ, List.map_append, List.map_singleton,
        sectionAfter_append]
      generalize
        sectionAfter currentSection ((List.range count).map line) = reached at *
      by_cases header : ∃ name, readLine (line count) = .sectionHeader name
      · obtain ⟨name, reads⟩ := header
        right
        have behind : sectionAfter reached [line count] = name := by
          rw [sectionAfter, reads]
          rfl
        refine ⟨count, Nat.lt_succ_self count, ?_, ?_⟩
        · rw [behind]
          exact readLine_header_iff.mp reads
        · intro later below beyond
          omega
      · have behind : sectionAfter reached [line count] = reached := by
          rw [sectionAfter]
          cases reads : readLine (line count) with
          | sectionHeader name => exact absurd ⟨name, reads⟩ header
          | ignored => rfl
          | setting key value => rfl
        have noHeader (name : CharArray MAX_SECTION_LENGTH) :
            ¬ HeaderText (lineText (line count)) name := fun isHeader =>
          header ⟨name, readLine_header_iff.mpr isHeader⟩
        rw [behind]
        rcases inductionHypothesis with ⟨none, same⟩ | ⟨last, below, isLast, none⟩
        · left
          refine ⟨fun number within => ?_, same⟩
          rcases Nat.lt_succ_iff_lt_or_eq.mp within with earlier | rfl
          · exact none number earlier
          · exact noHeader
        · right
          refine ⟨last, Nat.lt_succ_of_lt below, isLast, ?_⟩
          intro later within beyond
          rcases Nat.lt_succ_iff_lt_or_eq.mp within with earlier | rfl
          · exact none later earlier beyond
          · exact noHeader

theorem HeaderText.unique {text : List UInt8}
    {name other : CharArray MAX_SECTION_LENGTH} (first : HeaderText text name)
    (second : HeaderText text other) : name = other := by
  cases first with
  | header rest closed =>
      cases second with
      | header _ _ => rfl

private theorem entriesOf_eq_nil_iff (lines : List (List UInt8))
    (currentSection : CharArray MAX_SECTION_LENGTH) :
    entriesOf currentSection lines = [] ↔
      ∀ line ∈ lines, ¬ SettingText (lineText line) := by
  induction lines generalizing currentSection with
  | nil => simp [entriesOf]
  | cons line lines inductionHypothesis =>
      rw [entriesOf, List.forall_mem_cons, ← readLine_setting_iff]
      cases readLine line with
      | ignored => simp [inductionHypothesis]
      | sectionHeader name => simp [inductionHypothesis]
      | setting key value => simp

/-- The pieces behind the first are no settings, and the last of them that
names a section, if there is one, names the current one. -/
structure InertTail (currentSection : CharArray MAX_SECTION_LENGTH)
    (text : List UInt8) : Prop where
  settings : ∀ number, 0 < number → ¬ SettingText (lineText (piece text number))
  headers : ∀ number name, 0 < number →
    HeaderText (lineText (piece text number)) name →
    (∀ later other, number < later →
      ¬ HeaderText (lineText (piece text later)) other) →
    name = currentSection

private theorem settings_laterPieces_iff (text : List UInt8)
    (currentSection : CharArray MAX_SECTION_LENGTH) :
    entriesOf currentSection (laterPieces text) = [] ↔
      ∀ number, 0 < number → ¬ SettingText (lineText (piece text number)) := by
  rw [entriesOf_eq_nil_iff, laterPieces, List.forall_mem_map]
  constructor
  · intro inert number positive
    by_cases within : number ≤ text.length / 255
    · obtain ⟨previous, rfl⟩ := Nat.exists_eq_add_one.mpr positive
      exact inert previous (List.mem_range.mpr within)
    · rw [piece_of_beyond (Nat.not_le.mp within)]
      rintro ⟨equals, -⟩
      cases equals
  · intro inert number _
    exact inert (number + 1) (Nat.succ_pos number)

private theorem piece_of_header {text : List UInt8} {number : Nat}
    {name : CharArray MAX_SECTION_LENGTH}
    (header : HeaderText (lineText (piece text number)) name) :
    number ≤ text.length / 255 := by
  by_contra beyond
  rw [piece_of_beyond (Nat.not_le.mp beyond)] at header
  cases header

private theorem headers_laterPieces_iff (text : List UInt8)
    (currentSection : CharArray MAX_SECTION_LENGTH) :
    sectionAfter currentSection (laterPieces text) = currentSection ↔
      ∀ number name, 0 < number →
        HeaderText (lineText (piece text number)) name →
        (∀ later other, number < later →
          ¬ HeaderText (lineText (piece text later)) other) →
        name = currentSection := by
  have cases :=
    sectionAfter_range_cases (fun number => piece text (number + 1))
      (text.length / 255) currentSection
  rw [← laterPieces] at cases
  constructor
  · intro same number name positive isHeader isLast
    obtain ⟨previous, rfl⟩ := Nat.exists_eq_add_one.mpr positive
    have within := piece_of_header isHeader
    rw [same] at cases
    rcases cases with ⟨none, -⟩ | ⟨last, below, lastHeader, none⟩
    · exact absurd isHeader (none previous within name)
    · rcases Nat.lt_trichotomy previous last with earlier | rfl | beyond
      · exact absurd lastHeader (isLast _ _ (Nat.succ_lt_succ earlier))
      · exact isHeader.unique lastHeader
      · exact absurd isHeader (none previous within beyond name)
  · intro named
    rcases cases with ⟨-, same⟩ | ⟨last, below, lastHeader, none⟩
    · exact same
    · refine named (last + 1) _ (Nat.succ_pos last) lastHeader ?_
      intro later other beyond isHeader
      obtain ⟨previous, rfl⟩ :=
        Nat.exists_eq_add_one.mpr (Nat.zero_lt_of_lt beyond)
      exact none previous (piece_of_header isHeader)
        (Nat.lt_of_succ_lt_succ beyond) other isHeader

private theorem inertTail_of_short {text : List UInt8} (short : text.length ≤ 255)
    (currentSection : CharArray MAX_SECTION_LENGTH) :
    InertTail currentSection text := by
  have nothing (number : Nat) (positive : 0 < number) :
      lineText (piece text number) = [] := by
    have beyond : text.length ≤ 255 * number := by omega
    rw [piece, List.drop_eq_nil_of_le beyond]
    rfl
  constructor
  · intro number positive
    rw [nothing number positive]
    rintro ⟨equals, -⟩
    cases equals
  · intro number name positive header
    rw [nothing number positive] at header
    cases header

/-- A line has the effect of its first piece where the tail is inert. -/
theorem pieces_effect_iff (text : List UInt8)
    (currentSection : CharArray MAX_SECTION_LENGTH) :
    (entriesOf currentSection (piece text 0 :: laterPieces text) =
          entriesOf currentSection [piece text 0] ∧
        sectionAfter currentSection (piece text 0 :: laterPieces text) =
          sectionAfter currentSection [piece text 0]) ↔
      InertTail (sectionAfter currentSection [piece text 0]) text := by
  rw [← List.singleton_append, entriesOf_append, sectionAfter_append,
    List.append_right_eq_self, settings_laterPieces_iff,
    headers_laterPieces_iff]
  exact ⟨fun ⟨settings, headers⟩ => ⟨settings, headers⟩,
    fun ⟨settings, headers⟩ => ⟨settings, headers⟩⟩

/-! ## One setting per line -/

/-- A line of a file behind its front. -/
structure PhysicalLine (file front text : List UInt8) : Prop where
  complete : Complete front
  noNewline : NEWLINE ∉ text
  isLine : front ++ (text ++ [NEWLINE]) <+: file

/-- What `ya_config_parse` makes of a line: one entry at most, nothing of a
comment, and what it makes of as much as the buffer holds. -/
structure OneSettingPerLine (front text : List UInt8) : Prop where
  atMostOne : ∃ added,
    (loadedFrom (front ++ (text ++ [NEWLINE]))).entries =
        (loadedFrom front).entries ++ added ∧
      added.length ≤ 1
  comment : IsComment text →
    (loadedFrom (front ++ (text ++ [NEWLINE]))).entries =
        (loadedFrom front).entries ∧
      sectionAt (front ++ (text ++ [NEWLINE])) = sectionAt front
  truncated :
    (loadedFrom (front ++ (text ++ [NEWLINE]))).entries =
        (loadedFrom (front ++ (text.take 255 ++ [NEWLINE]))).entries ∧
      sectionAt (front ++ (text ++ [NEWLINE])) =
        sectionAt (front ++ (text.take 255 ++ [NEWLINE]))

private theorem length_entriesOf_singleton_le (line : List UInt8)
    (currentSection : CharArray MAX_SECTION_LENGTH) :
    (entriesOf currentSection [line]).length ≤ 1 := by
  rw [entriesOf]
  cases readLine line <;> simp [entriesOf]

section Line

variable {front text : List UInt8}

theorem piece_zero (text : List UInt8) : piece text 0 = text.take 255 := by
  rw [piece, Nat.mul_zero, List.drop_zero]

theorem loadedFrom_line (complete : Complete front)
    (noNewline : NEWLINE ∉ text) :
    (loadedFrom (front ++ (text ++ [NEWLINE]))).entries =
        (loadedFrom front).entries ++
          entriesOf (sectionAt front) (piece text 0 :: laterPieces text) ∧
      sectionAt (front ++ (text ++ [NEWLINE])) =
        sectionAfter (sectionAt front) (piece text 0 :: laterPieces text) := by
  have same := fgetsLines_pieces noNewline
  rw [loadedFrom_append complete, sectionAt_append complete, same.entries,
    same.current]
  exact ⟨rfl, rfl⟩

private theorem loadedFrom_truncated (complete : Complete front)
    (noNewline : NEWLINE ∉ text) :
    (loadedFrom (front ++ (text.take 255 ++ [NEWLINE]))).entries =
        (loadedFrom front).entries ++
          entriesOf (sectionAt front) [piece text 0] ∧
      sectionAt (front ++ (text.take 255 ++ [NEWLINE])) =
        sectionAfter (sectionAt front) [piece text 0] := by
  have noFront : NEWLINE ∉ text.take 255 := fun member =>
    noNewline (List.mem_of_mem_take member)
  have same : piece (text.take 255) 0 = piece text 0 := by
    rw [piece_zero, piece_zero, List.take_take]
    rfl
  obtain ⟨entries, current⟩ := loadedFrom_line complete noFront
  obtain ⟨sameEntries, sameSection⟩ :=
    (pieces_effect_iff (text.take 255) (sectionAt front)).mpr
      (inertTail_of_short (List.length_take_le 255 text) _)
  rw [entries, current, sameEntries, sameSection, same]
  exact ⟨rfl, rfl⟩

/-- The line is respected exactly where its tail is inert. -/
theorem oneSettingPerLine_iff (complete : Complete front)
    (noNewline : NEWLINE ∉ text) :
    OneSettingPerLine front text ↔
      InertTail (sectionAfter (sectionAt front) [text.take 255]) text := by
  obtain ⟨lineEntries, lineSection⟩ := loadedFrom_line complete noNewline
  obtain ⟨cutEntries, cutSection⟩ := loadedFrom_truncated complete noNewline
  rw [← piece_zero, ← pieces_effect_iff]
  constructor
  · rintro ⟨-, -, sameEntries, sameSection⟩
    rw [lineEntries, cutEntries, List.append_cancel_left_eq] at sameEntries
    rw [lineSection, cutSection] at sameSection
    exact ⟨sameEntries, sameSection⟩
  · rintro ⟨sameEntries, sameSection⟩
    refine ⟨⟨_, lineEntries, ?_⟩, ?_, ?_⟩
    · rw [sameEntries]
      exact length_entriesOf_singleton_le _ _
    · intro comment
      have ignored : readLine (piece text 0) = .ignored := by
        rw [piece_zero]
        exact readLine_take_of_comment comment 255
      rw [lineEntries, lineSection, sameEntries, sameSection, entriesOf,
        sectionAfter, ignored]
      exact ⟨List.append_nil _, rfl⟩
    · rw [lineEntries, cutEntries, lineSection, cutSection, sameEntries,
        sameSection]
      exact ⟨rfl, rfl⟩

end Line

/-- In a file, every line gives one setting at most exactly where the tails of
all lines are inert. -/
theorem physicalLines_iff (file : List UInt8) :
    (∀ front text, PhysicalLine file front text →
        OneSettingPerLine front text) ↔
      ∀ front text, PhysicalLine file front text →
        InertTail (sectionAfter (sectionAt front) [text.take 255]) text := by
  constructor
  · intro respected front text line
    exact (oneSettingPerLine_iff line.complete line.noNewline).mp
      (respected front text line)
  · intro inert front text line
    exact (oneSettingPerLine_iff line.complete line.noNewline).mpr
      (inert front text line)

/-- A comment with the setting `k=v` behind 255 characters. -/
def longComment : List UInt8 :=
  HASH :: (List.replicate 254 120 ++ [107, 61, 118])

/-- The end of the comment is stored. -/
theorem longComment_stored :
    PhysicalLine (longComment ++ [NEWLINE]) [] longComment ∧
      IsComment longComment ∧ ¬ OneSettingPerLine [] longComment := by
  have noNewline : NEWLINE ∉ longComment := by decide +kernel
  have isLine : PhysicalLine (longComment ++ [NEWLINE]) [] longComment :=
    ⟨Or.inl rfl, noNewline, List.prefix_rfl⟩
  have tail : piece longComment 1 = [107, 61, 118] := by decide +kernel
  have isSetting : SettingText (lineText (piece longComment 1)) := by
    rw [tail]
    refine ⟨by decide, ?_⟩
    rintro first ⟨rfl⟩
    decide
  refine ⟨isLine, ⟨HASH, by decide +kernel, Or.inr rfl⟩, ?_⟩
  intro respected
  have inert := (oneSettingPerLine_iff isLine.complete noNewline).mp respected
  exact inert.settings 1 Nat.one_pos isSetting

end MouseHero
