import MouseHero.Config.File

/-!
# The store refines an association list

A run of `ya_config_set` on a configuration that has been parsed.  A call that
returns 0 is an assignment, and one that fails for lack of memory changes
nothing.
-/

namespace MouseHero

open AssociationList

/-- The arguments of `ya_config_set`. -/
structure SetCall where
  sectionName : List UInt8
  key : List UInt8
  value : List UInt8
  deriving DecidableEq, Repr

namespace SetCall

/-- The section and the key are strings that fit into their fields. -/
structure Accepted (call : SetCall) : Prop where
  sectionNul : 0 ∉ call.sectionName
  sectionFits : call.sectionName.length < MAX_SECTION_LENGTH
  keyNul : 0 ∉ call.key
  keyFits : call.key.length < MAX_KEY_LENGTH

def name (call : SetCall) : SettingName where
  sectionName := call.sectionName
  key := call.key

/-- The value as it is stored: what fits into its field. -/
def stored (call : SetCall) : List UInt8 :=
  (cString call.value).take 255

/-- The assignment that the call stands for. -/
def pair (call : SetCall) : SettingName × List UInt8 :=
  (call.name, call.stored)

/-- `ya_config_set` with these arguments. -/
def perform (allocates : Nat → Bool) (call : SetCall) (config : YaConfig) :
    YaConfig × Int :=
  yaConfigSet allocates config (some call.sectionName) (some call.key)
    (some call.value)

end SetCall

/-! ## Memory -/

def YaConfig.HasRoom (config : YaConfig) : Prop :=
  config.entries.length ≤ config.capacity

theorem reserve_eq_some {allocates : Nat → Bool} {config larger : YaConfig}
    (hasRoom : config.HasRoom)
    (reserved : config.reserve allocates = some larger) :
    larger.entries = config.entries ∧
      config.entries.length + 1 ≤ larger.capacity := by
  have bound : config.entries.length ≤ config.capacity := hasRoom
  unfold YaConfig.reserve at reserved
  split at reserved
  · split at reserved
    · cases reserved
      refine ⟨rfl, ?_⟩
      simp only
      omega
    · cases reserved
  · rename_i below
    cases reserved
    exact ⟨rfl, by omega⟩

private theorem append_hasRoom {config : YaConfig} (entry : YaConfigEntry)
    (room : config.entries.length + 1 ≤ config.capacity) :
    (config.append entry).HasRoom := by
  simpa [YaConfig.HasRoom, YaConfig.append] using room

private theorem parseLines_hasRoom (allocates : Nat → Bool)
    (lines : List (List UInt8))
    (currentSection : CharArray MAX_SECTION_LENGTH) {config : YaConfig}
    (hasRoom : config.HasRoom) :
    (parseLines allocates currentSection config lines).1.HasRoom := by
  induction lines generalizing currentSection config with
  | nil => exact hasRoom
  | cons line lines inductionHypothesis =>
      rw [parseLines]
      cases readLine line with
      | ignored => exact inductionHypothesis currentSection hasRoom
      | sectionHeader name => exact inductionHypothesis name hasRoom
      | setting key value =>
          cases reserved : config.reserve allocates with
          | none => exact hasRoom
          | some larger =>
              obtain ⟨sameEntries, room⟩ := reserve_eq_some hasRoom reserved
              apply inductionHypothesis
              apply append_hasRoom
              rw [sameEntries]
              exact room

theorem yaConfigParse_hasRoom (allocates : Nat → Bool)
    (file : Option (List UInt8)) :
    (yaConfigParse allocates file yaConfigInit).1.HasRoom := by
  cases file with
  | none => exact Nat.le_refl 0
  | some bytes => exact parseLines_hasRoom allocates _ _ (Nat.le_refl 0)

/-! ## One call -/

/-- What a call does: it changes the value of the first entry with its name,
or appends an entry, or fails and changes nothing. -/
inductive SetEffect (config : YaConfig) (call : SetCall) :
    YaConfig → Int → Prop
  | update (before after : List YaConfigEntry) (old updated : YaConfigEntry) :
      config.entries = before ++ old :: after →
      (∀ entry ∈ before, entry.pair.1 ≠ call.name) →
      old.pair.1 = call.name →
      updated.pair = call.pair →
      SetEffect config call
        { config with entries := before ++ updated :: after } 0
  | append (new : YaConfigEntry) (capacity : Nat) :
      (∀ entry ∈ config.entries, entry.pair.1 ≠ call.name) →
      new.pair = call.pair →
      config.entries.length < capacity →
      SetEffect config call { entries := config.entries ++ [new], capacity } 0
  | failure :
      (∀ entry ∈ config.entries, entry.pair.1 ≠ call.name) →
      SetEffect config call config (-2)

private theorem isFor_iff_name {call : SetCall} (accepted : call.Accepted)
    {entry : YaConfigEntry} :
    entry.isFor call.sectionName call.key = true ↔
      entry.pair.1 = call.name := by
  rw [YaConfigEntry.isFor_iff, cString_of_no_nul accepted.sectionNul,
    cString_of_no_nul accepted.keyNul]
  rfl

/-- The three ways through `ya_config_set`. -/
theorem perform_cases (allocates : Nat → Bool) {call : SetCall}
    (accepted : call.Accepted) (config : YaConfig) :
    (∃ before old after updated,
      config.entries = before ++ old :: after ∧
        (∀ entry ∈ before, entry.pair.1 ≠ call.name) ∧
        old.pair.1 = call.name ∧ updated.pair = call.pair ∧
        call.perform allocates config =
          ({ config with entries := before ++ updated :: after }, 0)) ∨
    ((∀ entry ∈ config.entries, entry.pair.1 ≠ call.name) ∧
      ((config.reserve allocates = none ∧
          call.perform allocates config = (config, -2)) ∨
        ∃ larger new,
          config.reserve allocates = some larger ∧ new.pair = call.pair ∧
            call.perform allocates config = (larger.append new, 0))) := by
  rcases updateValue_cases call.sectionName call.key call.value
      config.entries with
    ⟨before, old, after, split, notBefore, isOld, updated⟩ | ⟨absent, updated⟩
  · refine Or.inl ⟨before, old, after,
      { old with value := safeStrncpy call.value }, split, ?_,
      (isFor_iff_name accepted).mp isOld, ?_, ?_⟩
    · intro entry member same
      exact notBefore entry member ((isFor_iff_name accepted).mpr same)
    · exact Prod.ext ((isFor_iff_name accepted).mp isOld) rfl
    · simp only [SetCall.perform, yaConfigSet, updated]
  · right
    refine ⟨?_, ?_⟩
    · intro entry member same
      exact absent entry member ((isFor_iff_name accepted).mpr same)
    cases reserved : config.reserve allocates with
    | none =>
        refine Or.inl ⟨rfl, ?_⟩
        simp only [SetCall.perform, yaConfigSet, updated, reserved]
    | some larger =>
        refine Or.inr ⟨larger,
          { sectionName := safeStrncpy call.sectionName
            key := safeStrncpy call.key
            value := safeStrncpy call.value }, rfl, ?_, ?_⟩
        · have sectionText :
              (safeStrncpy call.sectionName :
                CharArray MAX_SECTION_LENGTH).text = call.sectionName :=
            safeStrncpy_text accepted.sectionNul accepted.sectionFits
          have keyText :
              (safeStrncpy call.key : CharArray MAX_KEY_LENGTH).text =
                call.key :=
            safeStrncpy_text accepted.keyNul accepted.keyFits
          rw [YaConfigEntry.pair, sectionText, keyText]
          rfl
        · simp only [SetCall.perform, yaConfigSet, updated, reserved]

theorem perform_effect (allocates : Nat → Bool) {call : SetCall}
    (accepted : call.Accepted) {config : YaConfig}
    (hasRoom : config.HasRoom) :
    SetEffect config call (call.perform allocates config).1
      (call.perform allocates config).2 := by
  rcases perform_cases allocates accepted config with
    ⟨before, old, after, updated, split, notBefore, isOld, isNew, performed⟩ |
    ⟨absent, ⟨full, performed⟩ | ⟨larger, new, reserved, isNew, performed⟩⟩
  · rw [performed]
    exact .update before after old updated split notBefore isOld isNew
  · rw [performed]
    exact .failure absent
  · obtain ⟨sameEntries, room⟩ := reserve_eq_some hasRoom reserved
    rw [performed, YaConfig.append, sameEntries]
    exact .append new larger.capacity absent isNew (by omega)

section Effect

variable {config after : YaConfig} {call : SetCall} {status : Int}

theorem notMem_names {entries : List YaConfigEntry} {name : SettingName}
    (absent : ∀ entry ∈ entries, entry.pair.1 ≠ name) :
    name ∉ (entries.map YaConfigEntry.pair).map Prod.fst := by
  intro member
  obtain ⟨pair, pairMember, isName⟩ := List.mem_map.mp member
  obtain ⟨entry, entryMember, rfl⟩ := List.mem_map.mp pairMember
  exact absent entry entryMember isName

/-- A call that returns 0 is an assignment. -/
theorem SetEffect.pairs (effect : SetEffect config call after status)
    (success : status = 0) :
    after.pairs = assign call.name call.stored config.pairs := by
  cases effect with
  | update before rest old updated split notBefore isOld isUpdated =>
      have isPair : old.pair = (call.name, old.pair.2) := Prod.ext isOld rfl
      simp only [YaConfig.pairs, split, List.map_append, List.map_cons,
        isUpdated]
      rw [isPair]
      exact (assign_of_first (notMem_names notBefore)).symm
  | append new capacity absent isNew room =>
      simp only [YaConfig.pairs, List.map_append, List.map_cons, List.map_nil,
        isNew]
      exact (assign_of_absent (notMem_names absent)).symm
  | failure absent => cases success

theorem SetEffect.unchanged (effect : SetEffect config call after status)
    (failed : status ≠ 0) : after = config := by
  cases effect with
  | update => exact absurd rfl failed
  | append => exact absurd rfl failed
  | failure => rfl

theorem SetEffect.hasRoom (effect : SetEffect config call after status)
    (hasRoom : config.HasRoom) : after.HasRoom := by
  cases effect with
  | update before rest old updated split notBefore isOld isUpdated =>
      simpa [YaConfig.HasRoom, split] using hasRoom
  | append new capacity absent isNew room =>
      have fits : config.entries.length + 1 ≤ capacity := room
      simpa [YaConfig.HasRoom] using fits
  | failure absent => exact hasRoom

end Effect

/-! ## Runs -/

/-- The configurations that accepted calls can lead to.  The history has the
calls that returned 0, the latest first. -/
inductive ConfigRun (loaded : YaConfig) : List SetCall → YaConfig → Prop
  | start : ConfigRun loaded [] loaded
  | set (allocates : Nat → Bool) (call : SetCall) {history : List SetCall}
      {config after : YaConfig} :
      ConfigRun loaded history config →
      call.Accepted →
      call.perform allocates config = (after, 0) →
      ConfigRun loaded (call :: history) after
  | failed (allocates : Nat → Bool) (call : SetCall) {status : Int}
      {history : List SetCall} {config after : YaConfig} :
      ConfigRun loaded history config →
      call.Accepted →
      status ≠ 0 →
      call.perform allocates config = (after, status) →
      ConfigRun loaded history after

/-- The configuration is the association list after the history, and so it is
for each call that follows. -/
structure RefinesAssociationList (loaded : YaConfig) (history : List SetCall)
    (config : YaConfig) : Prop where
  list : config.pairs = assignAll (history.map SetCall.pair) loaded.pairs
  get :
    ∀ sectionName key,
      yaConfigGet config (some sectionName) (some key) =
        ((history.map SetCall.pair).lookup
            { sectionName := cString sectionName, key := cString key }).or
          (loaded.pairs.lookup
            { sectionName := cString sectionName, key := cString key })
  sets :
    ∀ allocates call, call.Accepted →
      SetEffect config call (call.perform allocates config).1
        (call.perform allocates config).2
  room : config.entries.length ≤ config.capacity

theorem ConfigRun.list_room {loaded config : YaConfig}
    {history : List SetCall} (run : ConfigRun loaded history config)
    (hasRoom : loaded.HasRoom) :
    config.pairs = assignAll (history.map SetCall.pair) loaded.pairs ∧
      config.HasRoom := by
  induction run with
  | start => exact ⟨rfl, hasRoom⟩
  | set allocates call earlier accepted performed inductionHypothesis =>
      obtain ⟨list, room⟩ := inductionHypothesis
      have effect := perform_effect allocates accepted room
      rw [performed] at effect
      refine ⟨?_, effect.hasRoom room⟩
      rw [effect.pairs rfl, list]
      rfl
  | failed allocates call earlier accepted fails performed
      inductionHypothesis =>
      obtain ⟨list, room⟩ := inductionHypothesis
      have effect := perform_effect allocates accepted room
      rw [performed] at effect
      have same := effect.unchanged fails
      dsimp only at same
      rw [same]
      exact ⟨list, room⟩

/-- Whatever file has been parsed, the store refines a first-match association
list with assignment in place. -/
theorem ConfigRun.refinesAssociationList {allocates : Nat → Bool}
    {file : Option (List UInt8)} {history : List SetCall} {config : YaConfig}
    (run :
      ConfigRun (yaConfigParse allocates file yaConfigInit).1 history config) :
    RefinesAssociationList (yaConfigParse allocates file yaConfigInit).1
      history config := by
  obtain ⟨list, room⟩ := run.list_room (yaConfigParse_hasRoom allocates file)
  exact {
    list := list
    get := fun sectionName key => by
      rw [yaConfigGet_eq_lookup, list, lookup_assignAll]
    sets := fun allocates call accepted =>
      perform_effect allocates accepted room
    room := room }

/-! ## A file with a duplicate -/

/-- Two values for the key `k` of the section `s`. -/
def duplicateFile : List UInt8 :=
  [OPENING, 115, CLOSING, NEWLINE,
    107, EQUALS, 49, NEWLINE,
    107, EQUALS, 50, NEWLINE]

def duplicateConfig : YaConfig :=
  (yaConfigParse (fun _ => true) (some duplicateFile) yaConfigInit).1

/-- The first value is replaced, the second stays. -/
def replaceFirst : SetCall where
  sectionName := [115]
  key := [107]
  value := [51]

def replacedConfig : YaConfig :=
  (replaceFirst.perform (fun _ => true) duplicateConfig).1

theorem refines_duplicate :
    RefinesAssociationList duplicateConfig [replaceFirst] replacedConfig ∧
      replacedConfig.pairs.map Prod.snd = [[51], [50]] := by
  have accepted : replaceFirst.Accepted := by
    constructor <;> decide
  have run : ConfigRun duplicateConfig [replaceFirst] replacedConfig :=
    .set (fun _ => true) replaceFirst .start accepted rfl
  exact ⟨run.refinesAssociationList, by decide⟩

end MouseHero
