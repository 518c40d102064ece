import MouseHero.Library.Scanning
import MouseHero.Library.Sections

/-!
# The configuration reader of the desktop application

`_parseConfigContent` of `ConfigService`, with the string functions of Dart
that it uses.
-/

namespace MouseHero

open Scanning Sections

/-! ## Strings -/

/-- The characters that `trim` removes: white space of Unicode, and the byte
order mark. -/
def isDartBlank (char : Char) : Bool :=
  (9 ≤ char.toNat && char.toNat ≤ 13) ||
    char.toNat ∈ [0x20, 0x85, 0xA0, 0x1680, 0x2028, 0x2029, 0x202F, 0x205F,
      0x3000, 0xFEFF] ||
    (0x2000 ≤ char.toNat && char.toNat ≤ 0x200A)

/-- `trim`. -/
def dartTrim (str : List Char) : List Char :=
  trim isDartBlank str

/-- `LineSplitter.split`; `line` is what has been read of the first line. -/
def lineSplitterSplit (line : List Char) : List Char → List (List Char)
  | [] => if line = [] then [] else [line]
  | '\n' :: rest => line :: lineSplitterSplit [] rest
  | '\r' :: '\n' :: rest => line :: lineSplitterSplit [] rest
  | '\r' :: rest => line :: lineSplitterSplit [] rest
  | char :: rest => lineSplitterSplit (line ++ [char]) rest

/-! ## Lines -/

/-- What a line says. -/
inductive GuiLine where
  | ignored
  | group (name : List Char)
  | setting (key value : List Char)
  deriving DecidableEq, Repr

/-- The body of the loop, as far as it looks at the line. -/
def guiLine (line : List Char) : GuiLine :=
  let trimmedLine := dartTrim line
  match trimmedLine with
  | [] => .ignored
  | first :: rest =>
      if first = '#' then .ignored
      else if first = '[' ∧ trimmedLine.getLast? = some ']' then
        .group rest.dropLast
      else if '=' ∈ trimmedLine then
        .setting (dartTrim (trimmedLine.takeWhile (· ≠ '=')))
          (dartTrim (trimmedLine.dropWhile (· ≠ '=')).tail)
      else .ignored

/-- The variables of the loop: the group, and the map of maps. -/
structure GuiConfig where
  currentGroup : List Char
  result : List Char → Option (List Char → Option (List Char))

/-- One round of the loop. -/
def GuiConfig.readLine (config : GuiConfig) (line : List Char) : GuiConfig :=
  match guiLine line with
  | .ignored => config
  | .group name => {
      currentGroup := name
      result := Function.update config.result name (some fun _ => none) }
  | .setting key value =>
      if config.currentGroup = [] then config
      else { config with
        -- The map is there, as the group has been opened.
        result := Function.update config.result config.currentGroup
          ((config.result config.currentGroup).map fun settings =>
            Function.update settings key (some value)) }

/-- `_parseConfigContent`. -/
def parseConfigContent (content : List Char) :
    List Char → Option (List Char → Option (List Char)) :=
  ((lineSplitterSplit [] content).foldl GuiConfig.readLine {
    currentGroup := []
    result := fun _ => none }).result

/-- `[group]?[key]` of what has been parsed. -/
def guiValue (content group key : List Char) : Option (List Char) :=
  (parseConfigContent content group).bind fun settings => settings key

/-! ## Blocks -/

abbrev TextBlock : Type :=
  Block (List Char) (List Char) (List Char)

/-- The settings in front of the first group, and the blocks. -/
def blocksOf : List GuiLine → List (List Char × List Char) × List TextBlock
  | [] => ([], [])
  | .ignored :: lines => blocksOf lines
  | .group name :: lines =>
      ([], { name, settings := (blocksOf lines).1 } :: (blocksOf lines).2)
  | .setting key value :: lines =>
      ((key, value) :: (blocksOf lines).1, (blocksOf lines).2)

/-- The value of a key. -/
def GuiConfig.value (config : GuiConfig) (group key : List Char) :
    Option (List Char) :=
  (config.result group).bind fun settings => settings key

/-- The current group has a map, unless it has no name. -/
def GuiConfig.Opened (config : GuiConfig) : Prop :=
  config.currentGroup ≠ [] → (config.result config.currentGroup).isSome = true

section Values

variable {config : GuiConfig} {group key : List Char}

theorem GuiConfig.Opened.readLine (opened : config.Opened) (line : List Char) :
    (config.readLine line).Opened := by
  rw [GuiConfig.readLine]
  cases guiLine line with
  | ignored => exact opened
  | group name =>
      intro named
      simp
  | setting key value =>
      simp only
      split
      · exact opened
      · rename_i named
        intro _
        simp [opened named]

theorem GuiConfig.value_group (config : GuiConfig) (name : List Char) :
    GuiConfig.value {
        currentGroup := name
        result := Function.update config.result name (some fun _ => none) }
      group key =
      if group = name then none else config.value group key := by
  by_cases same : group = name
  · simp [GuiConfig.value, same]
  · simp [GuiConfig.value, same]

theorem GuiConfig.value_setting (opened : config.Opened)
    (named : config.currentGroup ≠ []) (other value : List Char) :
    GuiConfig.value { config with
        result := Function.update config.result config.currentGroup
          ((config.result config.currentGroup).map fun settings =>
            Function.update settings other (some value)) } group key =
      if group = config.currentGroup ∧ key = other then some value
      else config.value group key := by
  obtain ⟨settings, isSettings⟩ :=
    Option.isSome_iff_exists.mp (opened named)
  by_cases sameGroup : group = config.currentGroup
  · by_cases sameKey : key = other
    · simp [GuiConfig.value, sameGroup, sameKey, isSettings]
    · simp [GuiConfig.value, sameGroup, sameKey, isSettings]
  · simp [GuiConfig.value, sameGroup]

theorem foldl_value (named : group ≠ []) (lines : List (List Char))
    (opened : config.Opened) :
    (lines.foldl GuiConfig.readLine config).value group key =
      if ∃ block ∈ (blocksOf (lines.map guiLine)).2, block.name = group then
        lastValue (blocksOf (lines.map guiLine)).2 group key
      else if group = config.currentGroup then
        (lookupLast (blocksOf (lines.map guiLine)).1 key).or
          (config.value group key)
      else config.value group key := by
  induction lines generalizing config with
  | nil => simp [blocksOf, lookupLast]
  | cons line lines inductionHypothesis =>
      have next := inductionHypothesis (opened.readLine line)
      rw [List.foldl_cons, next, List.map_cons, GuiConfig.readLine]
      cases guiLine line with
      | ignored => rfl
      | group name =>
          simp only [blocksOf, GuiConfig.value_group, lastValue_cons,
            List.exists_mem_cons_iff]
          by_cases later : ∃ block ∈ (blocksOf (lines.map guiLine)).2,
              block.name = group
          · simp [later]
          · by_cases same : name = group
            · simp [later, same]
            · simp [later, same, Ne.symm same, lookupLast]
      | setting other value =>
          rw [blocksOf]
          by_cases later : ∃ block ∈ (blocksOf (lines.map guiLine)).2,
              block.name = group
          · simp only [if_pos later]
          simp only [if_neg later]
          by_cases unnamed : config.currentGroup = []
          · have notCurrent : group ≠ config.currentGroup := by
              rw [unnamed]
              exact named
            rw [if_pos unnamed, if_neg notCurrent, if_neg notCurrent]
          rw [if_neg unnamed]
          by_cases isCurrent : group = config.currentGroup
          · rw [if_pos isCurrent, if_pos isCurrent,
              config.value_setting opened unnamed, lookupLast_cons,
              Option.or_assoc]
            by_cases sameKey : key = other
            · simp [isCurrent, sameKey]
            · simp [sameKey]
          · rw [if_neg isCurrent, if_neg isCurrent,
              config.value_setting opened unnamed,
              if_neg fun both => isCurrent both.1]

end Values

end MouseHero
