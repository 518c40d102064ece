import MouseHero.Event.Types
import MouseHero.Library.AssociationList

/-!
# The configuration store

`ya_config.c`, without the file functions: a growing array of entries whose
fields are `char` arrays of fixed sizes.  It refines an association list from
pairs of section and key to values.
-/

namespace MouseHero

open AssociationList

abbrev MAX_SECTION_LENGTH : Nat := 64

abbrev MAX_KEY_LENGTH : Nat := 64

abbrev MAX_VALUE_LENGTH : Nat := 256

instance : NeZero MAX_SECTION_LENGTH :=
  ⟨by decide⟩

instance : NeZero MAX_VALUE_LENGTH :=
  ⟨by decide⟩

/-! ## Fields -/

/-- The text in a `char` array, in front of its final NUL. -/
structure CharArray (size : Nat) where
  text : List UInt8
  noNul : 0 ∉ text
  fits : text.length < size
  deriving DecidableEq, Repr

theorem CharArray.ext_text {size : Nat} {first second : CharArray size}
    (same : first.text = second.text) : first = second := by
  cases first
  cases second
  cases same
  rfl

theorem nul_notMem_cString (bytes : List UInt8) : 0 ∉ cString bytes := by
  intro member
  have nonzero := List.mem_takeWhile_imp member
  simp at nonzero

/-- `safe_strncpy`. -/
def safeStrncpy {size : Nat} [NeZero size] (src : List UInt8) :
    CharArray size where
  text := (cString src).take (size - 1)
  noNul := fun member => nul_notMem_cString src (List.mem_of_mem_take member)
  fits := by
    have positive : 0 < size := Nat.pos_of_neZero size
    rw [List.length_take]
    omega

theorem safeStrncpy_text {size : Nat} [NeZero size] {src : List UInt8}
    (noNul : 0 ∉ src) (fits : src.length < size) :
    (safeStrncpy src : CharArray size).text = src := by
  have short : src.length ≤ size - 1 := by omega
  have copied : (cString src).take (size - 1) = src := by
    rw [cString_of_no_nul noNul, List.take_of_length_le short]
  exact copied

/-! ## The array -/

/-- `YA_Config_Entry`. -/
structure YaConfigEntry where
  sectionName : CharArray MAX_SECTION_LENGTH
  key : CharArray MAX_KEY_LENGTH
  value : CharArray MAX_VALUE_LENGTH
  deriving DecidableEq, Repr

/-- `YA_Config`; its `count` is the number of entries. -/
structure YaConfig where
  entries : List YaConfigEntry
  capacity : Nat
  deriving DecidableEq, Repr

/-- `ya_config_init`. -/
def yaConfigInit : YaConfig where
  entries := []
  capacity := 0

/-- The two comparisons with `strcmp`. -/
def YaConfigEntry.isFor (sectionName key : List UInt8)
    (entry : YaConfigEntry) : Bool :=
  entry.sectionName.text = cString sectionName && entry.key.text = cString key

/-- `ya_config_get`. -/
def yaConfigGet (config : YaConfig) (sectionName key : CString) : CString :=
  match sectionName, key with
  | some sectionName, some key =>
      (config.entries.find? (YaConfigEntry.isFor sectionName key)).map
        fun entry => entry.value.text
  | _, _ => none

/-- Make room for one more entry.  `allocates` tells whether memory for so many
entries can be had. -/
def YaConfig.reserve (allocates : Nat → Bool) (config : YaConfig) :
    Option YaConfig :=
  if config.capacity ≤ config.entries.length then
    if allocates (config.capacity * 2 + 8) then
      some { config with capacity := config.capacity * 2 + 8 }
    else none
  else some config

/-- Save an entry behind the others. -/
def YaConfig.append (config : YaConfig) (entry : YaConfigEntry) : YaConfig :=
  { config with entries := config.entries ++ [entry] }

/-- The loop that updates an existing entry. -/
def updateValue (sectionName key value : List UInt8) :
    List YaConfigEntry → Option (List YaConfigEntry)
  | [] => none
  | entry :: rest =>
      if entry.isFor sectionName key then
        some ({ entry with value := safeStrncpy value } :: rest)
      else
        (updateValue sectionName key value rest).map (entry :: ·)

/-- `ya_config_set`: the configuration and the returned status. -/
def yaConfigSet (allocates : Nat → Bool) (config : YaConfig)
    (sectionName key value : CString) : YaConfig × Int :=
  match sectionName, key, value with
  | some sectionName, some key, some value =>
      match updateValue sectionName key value config.entries with
      | some entries => ({ config with entries }, 0)
      | none =>
          match config.reserve allocates with
          | none => (config, -2)
          | some config =>
              (config.append {
                sectionName := safeStrncpy sectionName
                key := safeStrncpy key
                value := safeStrncpy value }, 0)
  | _, _, _ => (config, -1)

/-! ## The association list -/

/-- What a setting is called. -/
structure SettingName where
  sectionName : List UInt8
  key : List UInt8
  deriving DecidableEq, Repr

/-- What an entry says. -/
def YaConfigEntry.pair (entry : YaConfigEntry) : SettingName × List UInt8 :=
  ({ sectionName := entry.sectionName.text, key := entry.key.text },
    entry.value.text)

def YaConfig.pairs (config : YaConfig) : List (SettingName × List UInt8) :=
  config.entries.map YaConfigEntry.pair

theorem YaConfigEntry.ext_pair {first second : YaConfigEntry}
    (same : first.pair = second.pair) : first = second := by
  obtain ⟨names, sameValue⟩ := Prod.mk.inj same
  obtain ⟨sameSection, sameKey⟩ := SettingName.mk.inj names
  cases first
  cases second
  congr
  · exact CharArray.ext_text sameSection
  · exact CharArray.ext_text sameKey
  · exact CharArray.ext_text sameValue

theorem YaConfigEntry.isFor_iff {sectionName key : List UInt8}
    {entry : YaConfigEntry} :
    entry.isFor sectionName key = true ↔
      entry.pair.1 =
        { sectionName := cString sectionName, key := cString key } := by
  simp [isFor, pair]

theorem yaConfigGet_eq_lookup (config : YaConfig)
    (sectionName key : List UInt8) :
    yaConfigGet config (some sectionName) (some key) =
      config.pairs.lookup
        { sectionName := cString sectionName, key := cString key } := by
  simp only [yaConfigGet, YaConfig.pairs]
  induction config.entries with
  | nil => rfl
  | cons entry rest inductionHypothesis =>
      rw [List.map_cons, lookup_cons_eq]
      cases found : entry.isFor sectionName key with
      | true =>
          rw [List.find?_cons_of_pos found,
            if_pos (YaConfigEntry.isFor_iff.mp found).symm]
          rfl
      | false =>
          have different :
              { sectionName := cString sectionName, key := cString key } ≠
                entry.pair.1 := by
            intro same
            rw [YaConfigEntry.isFor_iff.mpr same.symm] at found
            cases found
          rw [List.find?_cons_of_neg (by simp [found]), if_neg different,
            inductionHypothesis]

theorem updateValue_cases (sectionName key value : List UInt8)
    (entries : List YaConfigEntry) :
    (∃ before old after,
      entries = before ++ old :: after ∧
        (∀ entry ∈ before, ¬ entry.isFor sectionName key) ∧
        old.isFor sectionName key ∧
        updateValue sectionName key value entries =
          some (before ++ { old with value := safeStrncpy value } :: after)) ∨
    ((∀ entry ∈ entries, ¬ entry.isFor sectionName key) ∧
      updateValue sectionName key value entries = none) := by
  induction entries with
  | nil => exact Or.inr ⟨fun _ member => absurd member List.not_mem_nil, rfl⟩
  | cons entry rest inductionHypothesis =>
      by_cases found : entry.isFor sectionName key
      · refine Or.inl ⟨[], entry, rest, rfl, ?_, found, ?_⟩
        · exact fun _ member => absurd member List.not_mem_nil
        · rw [updateValue, if_pos found]
          rfl
      · rcases inductionHypothesis with
          ⟨before, old, after, rfl, notBefore, isOld, updated⟩ |
          ⟨absent, updated⟩
        · refine Or.inl ⟨entry :: before, old, after, rfl, ?_, isOld, ?_⟩
          · exact List.forall_mem_cons.mpr ⟨found, notBefore⟩
          · rw [updateValue, if_neg found, updated]
            rfl
        · refine Or.inr ⟨List.forall_mem_cons.mpr ⟨found, absent⟩, ?_⟩
          rw [updateValue, if_neg found, updated]
          rfl

end MouseHero
