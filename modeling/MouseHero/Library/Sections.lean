import Mathlib.Data.List.Basic

/-!
# Sections with settings

A file with sections is a list of blocks, each with a name and its settings.  A
reader that keeps the first value of a key, over all blocks of a name, and one
that keeps the last value in the last block of a name agree if and only if the
blocks are settled.
-/

namespace MouseHero.Sections

variable {Name Key Value : Type} [DecidableEq Name] [DecidableEq Key]

/-- A part of a file that begins with the name of a section. -/
structure Block (Name Key Value : Type) where
  name : Name
  settings : List (Key × Value)
  deriving DecidableEq

/-- All settings of a section. -/
def settingsOf (blocks : List (Block Name Key Value)) (name : Name) :
    List (Key × Value) :=
  (blocks.filter fun block => block.name = name).flatMap Block.settings

/-- The settings of its last block. -/
def lastSettings (blocks : List (Block Name Key Value)) (name : Name) :
    List (Key × Value) :=
  ((blocks.filter fun block => block.name = name).getLast?.map
    Block.settings).getD []

/-- The first value of a key. -/
def lookupFirst (settings : List (Key × Value)) (key : Key) : Option Value :=
  settings.lookup key

/-- The latest value of a key. -/
def lookupLast (settings : List (Key × Value)) (key : Key) : Option Value :=
  settings.reverse.lookup key

/-- The value of a reader that keeps the first one. -/
def firstValue (blocks : List (Block Name Key Value)) (name : Name)
    (key : Key) : Option Value :=
  lookupFirst (settingsOf blocks name) key

/-- The value of a reader that begins a section anew, and keeps the last one. -/
def lastValue (blocks : List (Block Name Key Value)) (name : Name)
    (key : Key) : Option Value :=
  lookupLast (lastSettings blocks name) key

/-- The first setting of a key. -/
def IsFirst (settings : List (Key × Value)) (key : Key) (value : Value) :
    Prop :=
  ∃ before after, settings = before ++ (key, value) :: after ∧
    key ∉ before.map Prod.fst

/-- The last setting of a key. -/
def IsLast (settings : List (Key × Value)) (key : Key) (value : Value) :
    Prop :=
  ∃ before after, settings = before ++ (key, value) :: after ∧
    key ∉ after.map Prod.fst

/-- A section that is opened again sets all its keys again, and the first and
the last value of a key are the same. -/
structure Settled (blocks : List (Block Name Key Value)) : Prop where
  again : ∀ name, ∀ setting ∈ settingsOf blocks name,
    setting.1 ∈ (lastSettings blocks name).map Prod.fst
  same : ∀ name key first last, IsFirst (settingsOf blocks name) key first →
    IsLast (settingsOf blocks name) key last → first = last

section Lookup

variable {settings : List (Key × Value)} {key : Key} {value : Value}

theorem lookup_eq_some_iff_isFirst :
    settings.lookup key = some value ↔ IsFirst settings key value := by
  rw [List.lookup_eq_some_iff, IsFirst]
  refine exists_congr fun before => exists_congr fun after => ?_
  refine and_congr_right fun _ => ?_
  simp only [List.mem_map, not_exists, not_and, bne_iff_ne, ne_eq]
  exact ⟨fun different pair member same => different pair member same.symm,
    fun different pair member same => different pair member same.symm⟩

omit [DecidableEq Key] in
theorem isFirst_reverse :
    IsFirst settings.reverse key value ↔ IsLast settings key value := by
  constructor
  · rintro ⟨before, after, whole, absent⟩
    refine ⟨after.reverse, before.reverse, ?_, by simpa using absent⟩
    have turned := congrArg List.reverse whole
    simpa using turned
  · rintro ⟨before, after, rfl, absent⟩
    exact ⟨after.reverse, before.reverse, by simp, by simpa using absent⟩

theorem lookup_isSome_iff :
    (settings.lookup key).isSome = true ↔ key ∈ settings.map Prod.fst := by
  induction settings with
  | nil => simp
  | cons setting rest inductionHypothesis =>
      obtain ⟨other, otherValue⟩ := setting
      by_cases same : key = other
      · simp [same]
      · rw [List.lookup_cons, beq_eq_false_iff_ne.mpr same, List.map_cons,
          List.mem_cons]
        simp only [inductionHypothesis, same, false_or]

theorem lookupFirst_append (more : List (Key × Value)) (key : Key) :
    lookupFirst (settings ++ more) key =
      (lookupFirst settings key).or (lookupFirst more key) :=
  List.lookup_append

theorem lookupFirst_eq_none_iff :
    lookupFirst settings key = none ↔ key ∉ settings.map Prod.fst := by
  rw [← lookup_isSome_iff, Bool.not_eq_true, Option.isSome_eq_false_iff,
    Option.isNone_iff_eq_none, lookupFirst]

theorem lookupFirst_cons (setting : Key × Value) (key : Key) :
    lookupFirst (setting :: settings) key =
      if key = setting.1 then some setting.2 else lookupFirst settings key := by
  obtain ⟨other, value⟩ := setting
  by_cases same : key = other
  · simp [lookupFirst, same]
  · simp [lookupFirst, List.lookup_cons, same, beq_eq_false_iff_ne.mpr same]

theorem lookupLast_cons (setting : Key × Value) (key : Key) :
    lookupLast (setting :: settings) key =
      (lookupLast settings key).or
        (if key = setting.1 then some setting.2 else none) := by
  obtain ⟨other, value⟩ := setting
  rw [lookupLast, List.reverse_cons, List.lookup_append, ← lookupLast]
  by_cases same : key = other
  · simp [same]
  · simp [List.lookup_cons, same, beq_eq_false_iff_ne.mpr same]

end Lookup

variable {blocks : List (Block Name Key Value)} {name : Name} {key : Key}

omit [DecidableEq Key] in
theorem settingsOf_cons (block : Block Name Key Value)
    (blocks : List (Block Name Key Value)) (name : Name) :
    settingsOf (block :: blocks) name =
      (if block.name = name then block.settings else []) ++
        settingsOf blocks name := by
  by_cases same : block.name = name
  · simp [settingsOf, same]
  · simp [settingsOf, same]

omit [DecidableEq Key] in
theorem settingsOf_eq_append (blocks : List (Block Name Key Value))
    (name : Name) :
    ∃ before, settingsOf blocks name = before ++ lastSettings blocks name := by
  rw [settingsOf, lastSettings]
  rcases List.eq_nil_or_concat (blocks.filter fun block => block.name = name) with
    empty | ⟨front, last, isLast⟩
  · rw [empty]
    exact ⟨[], rfl⟩
  · rw [isLast, List.concat_eq_append, List.getLast?_concat, List.flatMap_append]
    exact ⟨front.flatMap Block.settings, by simp⟩

/-- In the last block, the last value is the last one of the section. -/
theorem lastValue_eq (isAgain : key ∈ (lastSettings blocks name).map Prod.fst) :
    lastValue blocks name key = (settingsOf blocks name).reverse.lookup key := by
  obtain ⟨before, whole⟩ := settingsOf_eq_append blocks name
  have found : ((lastSettings blocks name).reverse.lookup key).isSome = true := by
    rw [lookup_isSome_iff]
    simpa using isAgain
  obtain ⟨value, isValue⟩ := Option.isSome_iff_exists.mp found
  rw [lastValue, lookupLast, whole, List.reverse_append, isValue]
  obtain ⟨front, after, isSplit, absent⟩ := lookup_eq_some_iff_isFirst.mp isValue
  refine (lookup_eq_some_iff_isFirst.mpr ⟨front, after ++ before.reverse, ?_, absent⟩).symm
  rw [isSplit, List.append_assoc, List.cons_append]

/-- A block in front of others matters if none of them has its name. -/
theorem lastValue_cons (block : Block Name Key Value)
    (blocks : List (Block Name Key Value)) (name : Name) (key : Key) :
    lastValue (block :: blocks) name key =
      if ∃ other ∈ blocks, other.name = name then lastValue blocks name key
      else if block.name = name then lookupLast block.settings key
      else none := by
  rw [lastValue, lastSettings, lastValue, lastSettings]
  by_cases later : ∃ other ∈ blocks, other.name = name
  · rw [if_pos later]
    have present : (blocks.filter fun other => other.name = name) ≠ [] := by
      obtain ⟨other, member, same⟩ := later
      exact List.ne_nil_of_mem (List.mem_filter.mpr ⟨member, by simp [same]⟩)
    by_cases same : block.name = name
    · rw [List.filter_cons_of_pos (by simp [same]),
        List.getLast?_cons_of_ne_nil present]
    · rw [List.filter_cons_of_neg (by simp [same])]
  · rw [if_neg later]
    have absent : (blocks.filter fun other => other.name = name) = [] := by
      rw [List.filter_eq_nil_iff]
      intro other member same
      exact later ⟨other, member, of_decide_eq_true same⟩
    by_cases same : block.name = name
    · rw [List.filter_cons_of_pos (by simp [same]), absent, if_pos same]
      rfl
    · rw [List.filter_cons_of_neg (by simp [same]), absent, if_neg same]
      rfl

theorem values_eq_none (absent : key ∉ (settingsOf blocks name).map Prod.fst) :
    firstValue blocks name key = none ∧ lastValue blocks name key = none := by
  refine ⟨lookupFirst_eq_none_iff.mpr absent, lookupFirst_eq_none_iff.mpr ?_⟩
  obtain ⟨before, whole⟩ := settingsOf_eq_append blocks name
  rw [whole, List.map_append, List.mem_append, not_or] at absent
  simpa using absent.2

theorem firstValue_eq_lastValue_iff :
    (∀ name key, firstValue blocks name key = lastValue blocks name key) ↔
      Settled blocks := by
  constructor
  · intro agree
    have again : ∀ name, ∀ setting ∈ settingsOf blocks name,
        setting.1 ∈ (lastSettings blocks name).map Prod.fst := by
      intro name setting member
      have found : (firstValue blocks name setting.1).isSome = true :=
        lookup_isSome_iff.mpr (List.mem_map_of_mem member)
      rw [agree, lastValue, lookupLast, lookup_isSome_iff] at found
      simpa using found
    refine ⟨again, fun name key first last isFirst isLast => ?_⟩
    have isSome := lookup_eq_some_iff_isFirst.mpr isFirst
    have member : (key, first) ∈ settingsOf blocks name := by
      obtain ⟨before, after, whole, -⟩ := isFirst
      rw [whole]
      simp
    have lastIs := lookup_eq_some_iff_isFirst.mpr (isFirst_reverse.mpr isLast)
    have agreed := agree name key
    rw [firstValue, lookupFirst, isSome, lastValue_eq (again name _ member), lastIs] at agreed
    exact Option.some.inj agreed
  · rintro ⟨again, same⟩ name key
    cases found : firstValue blocks name key with
    | none =>
        cases foundLast : lastValue blocks name key with
        | none => rfl
        | some value =>
            have present : ((lastSettings blocks name).reverse.lookup key).isSome =
                true := by
              rw [← lookupLast, ← lastValue, foundLast]
              rfl
            obtain ⟨before, whole⟩ := settingsOf_eq_append blocks name
            have inFront : (firstValue blocks name key).isSome = true := by
              rw [firstValue, lookupFirst, lookup_isSome_iff, whole, List.map_append,
                List.mem_append]
              rw [lookup_isSome_iff] at present
              exact Or.inr (by simpa using present)
            rw [found] at inFront
            cases inFront
    | some value =>
        have isFirst := lookup_eq_some_iff_isFirst.mp found
        have member : (key, value) ∈ settingsOf blocks name := by
          obtain ⟨before, after, whole, -⟩ := isFirst
          rw [whole]
          simp
        have isAgain := again name _ member
        rw [lastValue_eq isAgain]
        have present : ((settingsOf blocks name).reverse.lookup key).isSome =
            true := by
          rw [lookup_isSome_iff]
          simp only [List.map_reverse, List.mem_reverse]
          exact List.mem_map_of_mem member
        obtain ⟨last, isLast⟩ := Option.isSome_iff_exists.mp present
        have sameValue := same name key value last isFirst
          (isFirst_reverse.mp (lookup_eq_some_iff_isFirst.mp isLast))
        rw [isLast, sameValue]

end MouseHero.Sections
