import MouseHero.Config.Request

/-!
# Which requests are all-or-nothing

Settings are set while the body is still being decoded, and what the reader
delivers behind an error is set as well.  A body that breaks off leaves the
configuration alone only if all of that is in it already.
-/

namespace MouseHero

open AssociationList MessagePack

/-! ## Names and memory -/

def YaConfig.names (config : YaConfig) : List SettingName :=
  config.pairs.map Prod.fst

/-- There is no memory for one more entry. -/
def YaConfig.Full (allocates : Nat → Bool) (config : YaConfig) : Prop :=
  config.reserve allocates = none

/-- There is memory for a number of further entries. -/
def memoryFor (allocates : Nat → Bool) :
    (count capacity more : Nat) → Prop
  | _, _, 0 => True
  | count, capacity, more + 1 =>
      if capacity ≤ count then
        allocates (capacity * 2 + 8) = true ∧
          memoryFor allocates (count + 1) (capacity * 2 + 8) more
      else memoryFor allocates (count + 1) capacity more

/-- The names that settings add, in the order of their first settings. -/
def newNames (known : List SettingName) : List SetCall → List SettingName
  | [] => []
  | setting :: rest =>
      if setting.name ∈ known then newNames known rest
      else setting.name :: newNames (known ++ [setting.name]) rest

theorem full_iff {allocates : Nat → Bool} {config : YaConfig} :
    config.Full allocates ↔
      config.capacity ≤ config.entries.length ∧
        allocates (config.capacity * 2 + 8) = false := by
  unfold YaConfig.Full YaConfig.reserve
  split
  · rename_i noRoom
    cases allocates (config.capacity * 2 + 8) <;> simp [noRoom]
  · rename_i room
    simp [room]

theorem length_entries (config : YaConfig) :
    config.entries.length = config.names.length := by
  simp [YaConfig.names, YaConfig.pairs]

theorem full_congr {allocates : Nat → Bool} {config after : YaConfig}
    (sameNames : after.names = config.names)
    (sameCapacity : after.capacity = config.capacity) :
    after.Full allocates ↔ config.Full allocates := by
  rw [full_iff, full_iff, length_entries, length_entries, sameNames,
    sameCapacity]

theorem YaConfig.ext_pairs {config after : YaConfig}
    (samePairs : after.pairs = config.pairs)
    (sameCapacity : after.capacity = config.capacity) : after = config := by
  have injective : Function.Injective YaConfigEntry.pair :=
    fun _ _ => YaConfigEntry.ext_pair
  have sameEntries := List.map_injective_iff.mpr injective samePairs
  cases config
  cases after
  cases sameEntries
  cases sameCapacity
  rfl

theorem name_mem_names {config : YaConfig} {name : SettingName}
    {before after : List YaConfigEntry} {entry : YaConfigEntry}
    (split : config.entries = before ++ entry :: after)
    (isName : entry.pair.1 = name) : name ∈ config.names := by
  have member : entry ∈ config.entries := by simp [split]
  rw [← isName]
  exact List.mem_map_of_mem (List.mem_map_of_mem member)

/-! ## One setting -/

section Setting

variable {allocates : Nat → Bool} {setting : SetCall} {config : YaConfig}

theorem perform_present (allocates : Nat → Bool) (fits : setting.Fits)
    (present : setting.name ∈ config.names) :
    (setting.perform allocates config).1.pairs =
        assign setting.name setting.value config.pairs ∧
      (setting.perform allocates config).1.capacity = config.capacity := by
  rcases perform_cases allocates fits.accepted config with
    ⟨before, old, after, updated, split, notBefore, isOld, isNew, performed⟩ |
    ⟨absent, -⟩
  · have effect : SetEffect config setting
        { config with entries := before ++ updated :: after } 0 :=
      .update before after old updated split notBefore isOld isNew
    rw [performed, ← fits.stored]
    exact ⟨effect.pairs rfl, rfl⟩
  · exact absurd present (notMem_names absent)

theorem perform_names (allocates : Nat → Bool) (fits : setting.Fits)
    (present : setting.name ∈ config.names) :
    (setting.perform allocates config).1.names = config.names := by
  rw [YaConfig.names, (perform_present allocates fits present).1]
  exact keys_assign_of_mem present

/-- A setting of a new name is lost if there is no memory. -/
theorem perform_full (fits : setting.Fits)
    (absent : setting.name ∉ config.names) (full : config.Full allocates) :
    (setting.perform allocates config).1 = config := by
  rcases perform_cases allocates fits.accepted config with
    ⟨before, old, after, updated, split, -, isOld, -⟩ |
    ⟨-, ⟨-, performed⟩ | ⟨larger, new, reserved, -⟩⟩
  · exact absurd (name_mem_names split isOld) absent
  · rw [performed]
  · rw [YaConfig.Full, reserved] at full
    cases full

/-- A setting of a new name adds an entry if there is memory. -/
theorem perform_new (fits : setting.Fits)
    (absent : setting.name ∉ config.names)
    (notFull : ¬ config.Full allocates) :
    (setting.perform allocates config).1.pairs =
        config.pairs ++ [(setting.name, setting.value)] ∧
      (setting.perform allocates config).1.capacity =
        if config.capacity ≤ config.entries.length then
          config.capacity * 2 + 8
        else config.capacity := by
  rcases perform_cases allocates fits.accepted config with
    ⟨before, old, after, updated, split, -, isOld, -⟩ |
    ⟨-, ⟨full, -⟩ | ⟨larger, new, reserved, isNew, performed⟩⟩
  · exact absurd (name_mem_names split isOld) absent
  · exact absurd full notFull
  · rw [SetCall.pair, fits.stored] at isNew
    rw [performed]
    unfold YaConfig.reserve at reserved
    split at reserved
    · split at reserved
      · cases reserved
        simp [YaConfig.append, YaConfig.pairs, *]
      · cases reserved
    · cases reserved
      simp [YaConfig.append, YaConfig.pairs, *]

end Setting

/-! ## All settings -/

/-- The assignments that settings stand for, the latest first. -/
def assignments (settings : List SetCall) : List (SettingName × List UInt8) :=
  settings.reverse.map fun setting => (setting.name, setting.value)

theorem assignments_cons (setting : SetCall) (rest : List SetCall) :
    assignments (setting :: rest) = 
      assignments rest ++ [(setting.name, setting.value)] := by
  simp [assignments]

theorem performAll_cons (allocates : Nat → Bool) (setting : SetCall)
    (rest : List SetCall) (config : YaConfig) :
    performAll allocates (setting :: rest) config =
      performAll allocates rest (setting.perform allocates config).1 :=
  rfl

private theorem name_mem_assignments {settings : List SetCall} {setting : SetCall}
    (member : setting ∈ settings) :
    setting.name ∈ (assignments settings).map Prod.fst := by
  rw [assignments, List.map_map]
  exact List.mem_map_of_mem (List.mem_reverse.mpr member)

section Settings

variable {allocates : Nat → Bool} {settings : List SetCall}

/-- If no setting can add an entry, the ones of known names replace values, and
the others are lost. -/
theorem performAll_known {config : YaConfig}
    (fit : ∀ setting ∈ settings, setting.Fits)
    (known : ∀ setting ∈ settings,
      setting.name ∈ config.names ∨ config.Full allocates) :
    (performAll allocates settings config).pairs =
        assignAll ((assignments settings).filter fun pair =>
          pair.1 ∈ config.names) config.pairs ∧
      (performAll allocates settings config).capacity = config.capacity := by
  induction settings generalizing config with
  | nil => exact ⟨rfl, rfl⟩
  | cons setting rest inductionHypothesis =>
      obtain ⟨fits, otherFit⟩ := List.forall_mem_cons.mp fit
      obtain ⟨isKnown, areKnown⟩ := List.forall_mem_cons.mp known
      rw [performAll_cons, assignments_cons, List.filter_append,
        assignAll_append]
      by_cases present : setting.name ∈ config.names
      · obtain ⟨pairs, capacity⟩ :=
          perform_present allocates fits present
        have names := perform_names allocates fits present
        have stillKnown : ∀ other ∈ rest,
            other.name ∈ (setting.perform allocates config).1.names ∨
              (setting.perform allocates config).1.Full allocates := by
          intro other member
          rw [names, full_congr names capacity]
          exact areKnown other member
        obtain ⟨laterPairs, laterCapacity⟩ :=
          inductionHypothesis otherFit stillKnown
        rw [names, pairs] at laterPairs
        have kept : [(setting.name, setting.value)].filter (fun pair =>
            pair.1 ∈ config.names) = [(setting.name, setting.value)] := by
          simp [present]
        rw [laterPairs, laterCapacity, capacity, kept]
        exact ⟨rfl, rfl⟩
      · have full := isKnown.resolve_left present
        have dropped : [(setting.name, setting.value)].filter (fun pair =>
            pair.1 ∈ config.names) = [] := by
          simp [present]
        rw [perform_full fits present full, dropped]
        exact inductionHypothesis otherFit areKnown

private theorem perform_extends {setting : SetCall} {config : YaConfig}
    (fits : setting.Fits) :
    config.names <+: (setting.perform allocates config).1.names := by
  by_cases present : setting.name ∈ config.names
  · simp only [perform_names allocates fits present, List.prefix_rfl]
  by_cases full : config.Full allocates
  · simp only [perform_full fits present full, List.prefix_rfl]
  · rw [YaConfig.names, YaConfig.names, (perform_new fits present full).1,
      List.map_append]
    exact List.prefix_append _ _

theorem performAll_extends (allocates : Nat → Bool) (config : YaConfig)
    (fit : ∀ setting ∈ settings, setting.Fits) :
    config.names <+: (performAll allocates settings config).names := by
  induction settings generalizing config with
  | nil => exact List.prefix_rfl
  | cons setting rest inductionHypothesis =>
      obtain ⟨fits, otherFit⟩ := List.forall_mem_cons.mp fit
      exact (perform_extends fits).trans
        (inductionHypothesis _ otherFit)

/-- A setting of a new name adds an entry, if there is memory for one. -/
theorem performAll_grows {config : YaConfig} {new : SetCall}
    (fit : ∀ setting ∈ settings, setting.Fits)
    (member : new ∈ settings) (absent : new.name ∉ config.names)
    (notFull : ¬ config.Full allocates) :
    config.names.length <
      (performAll allocates settings config).names.length := by
  induction settings generalizing config with
  | nil => cases member
  | cons setting rest inductionHypothesis =>
      obtain ⟨fits, otherFit⟩ := List.forall_mem_cons.mp fit
      rw [performAll_cons]
      by_cases present : setting.name ∈ config.names
      · obtain ⟨pairs, capacity⟩ :=
          perform_present allocates fits present
        have names := perform_names allocates fits present
        have later : new ∈ rest := by
          rcases List.mem_cons.mp member with rfl | later
          · exact absurd present absent
          · exact later
        rw [← names]
        apply inductionHypothesis otherFit later
        · rw [names]
          exact absent
        · rw [full_congr names capacity]
          exact notFull
      · have added := (perform_new fits present notFull).1
        have kept := (performAll_extends allocates
          (setting.perform allocates config).1 otherFit).length_le
        rw [YaConfig.names, added, List.map_append, List.length_append] at kept
        exact Nat.lt_of_succ_le kept

/-- What must be there already for the settings to change nothing: the latest
value of each name, unless there is no memory for the name. -/
def KeepsValues (allocates : Nat → Bool) (config : YaConfig)
    (settings : List SetCall) : Prop :=
  ∀ name value,
    (assignments settings).lookup name = some value →
      config.pairs.lookup name = some value ∨
        (name ∉ config.names ∧ config.Full allocates)

theorem performAll_eq_self_iff {config : YaConfig}
    (fit : ∀ setting ∈ settings, setting.Fits) :
    performAll allocates settings config = config ↔
      KeepsValues allocates config settings := by
  by_cases known : ∀ setting ∈ settings,
      setting.name ∈ config.names ∨ config.Full allocates
  · obtain ⟨pairs, capacity⟩ := performAll_known fit known
    have unchanged : performAll allocates settings config = config ↔
        assignAll ((assignments settings).filter fun pair =>
          pair.1 ∈ config.names) config.pairs = config.pairs := by
      rw [← pairs]
      exact ⟨congrArg YaConfig.pairs,
        fun same => YaConfig.ext_pairs same capacity⟩
    rw [unchanged, assignAll_eq_self_iff]
    constructor
    · intro current name value latest
      by_cases present : name ∈ config.names
      · left
        apply current
        rw [lookup_filter_mem, if_pos present, latest]
      · refine Or.inr ⟨present, ?_⟩
        obtain ⟨setting, member, isName⟩ :
            ∃ setting ∈ settings, setting.name = name := by
          have assigned := mem_keys_of_lookup latest
          simpa [assignments] using assigned
        exact (known setting member).resolve_left (isName ▸ present)
    · intro keeps name value latest
      rw [lookup_filter_mem] at latest
      split at latest
      · rename_i present
        rcases keeps name value latest with current | ⟨absent, -⟩
        · exact current
        · exact absurd present absent
      · cases latest
  · push Not at known
    obtain ⟨setting, member, absent, notFull⟩ := known
    constructor
    · intro same
      have grows := performAll_grows fit member absent notFull
      rw [same] at grows
      exact absurd grows (Nat.lt_irrefl _)
    · intro keeps
      obtain ⟨value, latest⟩ :=
        exists_lookup_of_mem (name_mem_assignments member)
      rcases keeps setting.name value latest with current | ⟨-, full⟩
      · exact absurd (mem_keys_of_lookup current) absent
      · exact absurd full notFull

/-- All settings have their effect if and only if there is memory for the
entries that they add. -/
theorem performAll_pairs_iff {config : YaConfig}
    (fit : ∀ setting ∈ settings, setting.Fits) :
    (performAll allocates settings config).pairs =
        assignAll (assignments settings) config.pairs ↔
      memoryFor allocates config.entries.length config.capacity
        (newNames config.names settings).length := by
  induction settings generalizing config with
  | nil => exact ⟨fun _ => trivial, fun _ => rfl⟩
  | cons setting rest inductionHypothesis =>
      obtain ⟨fits, otherFit⟩ := List.forall_mem_cons.mp fit
      rw [performAll_cons, assignments_cons, assignAll_append, newNames]
      by_cases present : setting.name ∈ config.names
      · obtain ⟨pairs, capacity⟩ :=
          perform_present allocates fits present
        have names := perform_names allocates fits present
        have expected :=
          @inductionHypothesis (setting.perform allocates config).1 otherFit
        rw [length_entries, names, capacity, pairs, ← length_entries] at expected
        rw [if_pos present]
        exact expected
      · rw [if_neg present, List.length_cons, memoryFor]
        by_cases full : config.Full allocates
        · obtain ⟨noRoom, noMemory⟩ := full_iff.mp full
          rw [perform_full fits present full, if_pos noRoom, noMemory]
          refine iff_of_false ?_ (fun impossible => nomatch impossible.1)
          intro same
          obtain ⟨pairs, -⟩ := performAll_known otherFit
            fun other member => Or.inr full
          have latest := congrArg (List.lookup setting.name) same
          have unset : config.pairs.lookup setting.name = none :=
            lookup_eq_none_of_notMem present
          rw [pairs, lookup_assignAll, lookup_assignAll, lookup_filter_mem,
            if_neg present, unset, assignAll_cons, assignAll_nil,
            lookup_assign_self] at latest
          cases found : (assignments rest).lookup setting.name with
          | none => simp [found] at latest
          | some value => simp [found] at latest
        · obtain ⟨pairs, capacity⟩ := perform_new fits present full
          have names : (setting.perform allocates config).1.names =
              config.names ++ [setting.name] := by
            rw [YaConfig.names, pairs, List.map_append]
            rfl
          have assigned : assignAll [(setting.name, setting.value)] config.pairs =
              config.pairs ++ [(setting.name, setting.value)] :=
            assign_of_absent present
          have expected :=
            @inductionHypothesis (setting.perform allocates config).1 otherFit
          rw [length_entries, names, capacity, pairs, List.length_append,
            List.length_singleton, ← length_entries] at expected
          rw [assigned, expected]
          split
          · rename_i noRoom
            have memory : allocates (config.capacity * 2 + 8) = true := by
              cases denied : allocates (config.capacity * 2 + 8) with
              | true => rfl
              | false => exact absurd (full_iff.mpr ⟨noRoom, denied⟩) full
            exact (and_iff_right memory).symm
          · exact Iff.rfl

end Settings

/-! ## The request -/

/-- A malformed body is refused and leaves the configuration alone.  A success
means that the settings of the body have been made, in their order, and that
the configuration has been saved. -/
structure AllOrNothing (config : YaConfig) (body : List UInt8)
    (outcome : PostOutcome) : Prop where
  malformed :
    (¬ ∃ settings, BodyLists body settings) →
      (outcome.response = invalidFormat ∨ outcome.response = parseFailure) ∧
        outcome.config = config
  success :
    outcome.response = successResponse →
      ∃ settings,
        BodyLists body settings ∧
          outcome.config.pairs =
            assignAll (assignments settings) config.pairs ∧
          outcome.file =
            some (saveEntries (safeStrncpy []) true outcome.config.entries)

theorem BodyLists.fit {body : List UInt8} {settings : List SetCall}
    (lists : BodyLists body settings) : ∀ setting ∈ settings, setting.Fits := by
  obtain ⟨count, header, listing, rest, -, whole, -⟩ := lists
  exact (Format.ensures_repeated settingFormat_ensures count).whole
    settings listing whole

theorem BodyBreaks.fit {body : List UInt8} {settings : List SetCall}
    (breaks : BodyBreaks body settings) :
    ∀ setting ∈ settings, setting.Fits := by
  obtain ⟨count, header, listing, -, broken, -⟩ := breaks
  exact (Format.ensures_repeated settingFormat_ensures count).broken
    settings listing broken

theorem BodyLists.unique {body : List UInt8} {settings others : List SetCall}
    (lists : BodyLists body settings) (listsOthers : BodyLists body others) :
    settings = others := by
  obtain ⟨count, header, listing, rest, isHeader, whole, rfl⟩ := lists
  obtain ⟨otherCount, otherHeader, otherListing, otherRest, otherIsHeader,
    otherWhole, split⟩ := listsOthers
  have tag := (mpackReadTag_array isHeader).fresh (listing ++ rest)
  have otherTag :=
    (mpackReadTag_array otherIsHeader).fresh (otherListing ++ otherRest)
  rw [← List.append_assoc, split, List.append_assoc, otherTag] at tag
  simp only [Prod.mk.injEq, Except.ok.injEq, MpackTag.array.injEq] at tag
  obtain ⟨rfl, sameRest⟩ := tag
  have read := (readSettings_parses otherCount).whole settings listing rest whole
  have otherRead := (readSettings_parses otherCount).whole others otherListing
    otherRest otherWhole
  rw [← sameRest, otherRead] at read
  simp only [Prod.mk.injEq, Except.ok.injEq] at read
  exact read.1.symm

section Request

variable {allocates : Nat → Bool} {opens : Bool} {config : YaConfig}
variable {body : List UInt8} {settings : List SetCall}

theorem finishPost_response (reader : MpackReader)
    (noError : reader.error = .ok) :
    finishPost opens config reader =
      if opens = true then
        { config
          file := some (saveEntries (safeStrncpy []) true config.entries)
          response := successResponse }
      else { config, file := none, response := saveFailure } := by
  cases opens <;> simp [finishPost, yaConfigSave, noError]

theorem BodyBreaks.malformed (breaks : BodyBreaks body settings) :
    ¬ ∃ others, BodyLists body others := by
  rintro ⟨others, lists⟩
  have refused := handlePostConfig_breaks (fun _ => true) true yaConfigInit
    breaks
  rw [handlePostConfig_lists (fun _ => true) true yaConfigInit lists,
    finishPost_response (fresh []) rfl, if_pos rfl] at refused
  exact successResponse_ne_parseFailure
    (congrArg PostOutcome.response (Except.ok.inj refused))

/-- A request is all-or-nothing if and only if what a broken body delivers is in
the configuration already, and there is memory for what a whole body adds. -/
theorem handlePostConfig_allOrNothing_iff :
    (∃ outcome,
      handlePostConfig allocates opens config body = .ok outcome ∧
        AllOrNothing config body outcome) ↔
      (∀ settings,
        BodyBreaks body settings →
          KeepsValues allocates config settings) ∧
      ∀ settings,
        BodyLists body settings →
          opens = true →
            memoryFor allocates config.entries.length config.capacity
              (newNames config.names settings).length := by
  constructor
  · rintro ⟨outcome, handled, allOrNothing⟩
    refine ⟨?_, ?_⟩
    · intro settings breaks
      rw [handlePostConfig_breaks allocates opens config breaks] at handled
      cases handled
      exact (performAll_eq_self_iff breaks.fit).mp
        (allOrNothing.malformed breaks.malformed).2
    · intro settings lists canSave
      rw [handlePostConfig_lists allocates opens config lists,
        finishPost_response (fresh []) rfl, if_pos canSave] at handled
      cases handled
      obtain ⟨others, listsOthers, pairs, -⟩ := allOrNothing.success rfl
      rw [lists.unique listsOthers] at pairs ⊢
      exact (performAll_pairs_iff listsOthers.fit).mp pairs
  · rintro ⟨keeps, memory⟩
    rcases body_cases body with ⟨settings, lists⟩ | ⟨settings, breaks⟩ | noArray
    · refine ⟨_, handlePostConfig_lists allocates opens config lists, ?_⟩
      rw [finishPost_response (fresh []) rfl]
      refine ⟨fun malformed => absurd ⟨settings, lists⟩ malformed, ?_⟩
      intro success
      split at success
      · rename_i canSave
        rw [if_pos canSave]
        exact ⟨settings, lists,
          (performAll_pairs_iff lists.fit).mpr (memory settings lists canSave),
          rfl⟩
      · have different : saveFailure ≠ successResponse := by decide
        exact absurd success different
    · refine ⟨_, handlePostConfig_breaks allocates opens config breaks, ?_⟩
      refine ⟨fun _ => ⟨Or.inr rfl, ?_⟩, ?_⟩
      · exact (performAll_eq_self_iff breaks.fit).mpr (keeps settings breaks)
      · intro success
        exact absurd success successResponse_ne_parseFailure.symm
    · refine ⟨_, handlePostConfig_noArray allocates opens config noArray, ?_⟩
      refine ⟨fun _ => ⟨Or.inl rfl, rfl⟩, ?_⟩
      intro success
      have different : invalidFormat ≠ successResponse := by decide
      exact absurd success different

end Request

/-! ## A body that breaks off -/

/-- The setting of `k` in the section `s`, and the end of the data. -/
def truncatedBody : List UInt8 :=
  [0x92, 0x83] ++
    mpackWriteCstr (literal "section") ++ mpackWriteCstr (literal "s") ++
    mpackWriteCstr (literal "key") ++ mpackWriteCstr (literal "k") ++
    mpackWriteCstr (literal "value") ++ mpackWriteCstr (literal "v")

/-- The request is refused with two settings made: `k`, and one whose section
and key are empty. -/
theorem truncatedBody_refused :
    (handlePostConfig (fun _ => true) true yaConfigInit truncatedBody).map
        (fun outcome => (outcome.response, outcome.config.entries.length)) =
      .ok (parseFailure, 2) := by
  decide +kernel

/-- The setting in front of the break stays. -/
theorem truncatedBody_not_allOrNothing :
    ¬ ∃ outcome,
      handlePostConfig (fun _ => true) true yaConfigInit truncatedBody =
          .ok outcome ∧
        AllOrNothing yaConfigInit truncatedBody outcome := by
  rintro ⟨outcome, handled, allOrNothing⟩
  have refused := truncatedBody_refused
  rw [handled] at refused
  obtain ⟨response, entries⟩ := Prod.mk.inj (Except.ok.inj refused)
  have malformed : ¬ ∃ settings, BodyLists truncatedBody settings := by
    rintro ⟨settings, lists⟩
    rw [handlePostConfig_lists (fun _ => true) true yaConfigInit lists,
      finishPost_response (fresh []) rfl, if_pos rfl] at handled
    cases handled
    exact successResponse_ne_parseFailure response
  rw [(allOrNothing.malformed malformed).2] at entries
  cases entries

end MouseHero
