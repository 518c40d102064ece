import MouseHero.Config.AllOrNothing
import MouseHero.Config.RoundTrip

/-!
# Posting back what has been fetched

`handle_get_config` lists every entry, in the order of the file, with the bytes
as they are.  `handle_post_config` sets what it is given one by one and accepts
UTF-8 only.
-/

namespace MouseHero

open AssociationList Format MessagePack

/-! ## The list of the entries -/

/-- The map of an entry. -/
def YaConfigEntry.packed (entry : YaConfigEntry) : List UInt8 :=
  mpackStartMap 3 ++
    (mpackWriteCstr (literal "section") ++
      (mpackWriteCstr entry.sectionName.text ++
        (mpackWriteCstr (literal "key") ++
          (mpackWriteCstr entry.key.text ++
            (mpackWriteCstr (literal "value") ++
              mpackWriteCstr entry.value.text)))))

/-- `handle_get_config`: the count is a 32-bit one. -/
def handleGetConfig (config : YaConfig) : List UInt8 :=
  mpackStartArray (UInt32.ofNat config.entries.length) ++
    config.entries.flatMap YaConfigEntry.packed

/-- The entries that the header announces. -/
def YaConfig.listed (config : YaConfig) : List YaConfigEntry :=
  config.entries.take (config.entries.length % 2 ^ 32)

def YaConfigEntry.setCall (entry : YaConfigEntry) : SetCall where
  sectionName := entry.sectionName.text
  key := entry.key.text
  value := entry.value.text

/-- The texts of the entry are UTF-8. -/
structure YaConfigEntry.Utf8 (entry : YaConfigEntry) : Prop where
  sectionName : mpackUtf8CheckNoNull entry.sectionName.text = true
  key : mpackUtf8CheckNoNull entry.key.text = true
  value : mpackUtf8CheckNoNull entry.value.text = true

/-- The value that is listed last for a name is the one in force. -/
def YaConfig.LastIsFirst (config : YaConfig) : Prop :=
  ∀ name value,
    (config.listed.map YaConfigEntry.pair).reverse.lookup name = some value →
      config.pairs.lookup name = some value

/-! ## Strings -/

section Strings

variable {bufferSize : Nat} {text : List UInt8}

theorem mpackWriteCstr_split (small : text.length < 2 ^ 32) :
    ∃ header,
      StringHeader text.length header ∧ mpackWriteCstr text = header ++ text :=
  mpackWriteStr_encoding small

theorem cstrFormat_written (small : text.length < 2 ^ 32)
    (fits : text.length < bufferSize)
    (valid : mpackUtf8CheckNoNull text = true) :
    (cstrFormat bufferSize).whole text (mpackWriteCstr text) := by
  obtain ⟨header, isHeader, split⟩ := mpackWriteCstr_split small
  rw [split]
  exact whole_bind isHeader ⟨rfl, rfl, fits, valid⟩

/-- A string that is no UTF-8 is refused. -/
theorem cstrFormat_refused (small : text.length < 2 ^ 32)
    (invalid : mpackUtf8CheckNoNull text ≠ true) (rest : List UInt8) :
    (cstrFormat bufferSize).broken [] (mpackWriteCstr text ++ rest) := by
  obtain ⟨header, isHeader, split⟩ := mpackWriteCstr_split small
  rw [split, List.append_assoc]
  apply broken_bind_next isHeader
  refine ⟨rfl, ?_⟩
  rintro other front behind ⟨rfl, length, -, valid⟩ same
  have isText := (List.append_inj same length.symm).1
  exact invalid (isText ▸ valid)

end Strings

/-! ## Entries -/

theorem small_of_fits {size : Nat} {array : CharArray size}
    (bound : size ≤ 256) : array.text.length < 2 ^ 32 := by
  have fits := array.fits
  omega

theorem mapHeader_three :
    (Format.part MapHeader 0).whole 3 (mpackStartMap 3) := by
  have header : mpackStartMap 3 = [UInt8.ofNat (0x80 + 3)] := by decide
  have isMap : MapHeader 3 [UInt8.ofNat (0x80 + 3)] := .fixmap 3 (by omega)
  rw [header]
  exact isMap

theorem cstrFormat_label {label : String} (short : (literal label).length < 64)
    (valid : mpackUtf8CheckNoNull (literal label) = true) :
    (cstrFormat MAX_KEY_LENGTH).whole (literal label)
      (mpackWriteCstr (literal label)) :=
  cstrFormat_written (by omega) short valid

theorem sectionLabel_written :
    (cstrFormat MAX_KEY_LENGTH).whole (literal "section")
      (mpackWriteCstr (literal "section")) :=
  cstrFormat_label (by decide) (by decide +kernel)

theorem keyLabel_written :
    (cstrFormat MAX_KEY_LENGTH).whole (literal "key")
      (mpackWriteCstr (literal "key")) :=
  cstrFormat_label (by decide) (by decide +kernel)

theorem valueLabel_written :
    (cstrFormat MAX_KEY_LENGTH).whole (literal "value")
      (mpackWriteCstr (literal "value")) :=
  cstrFormat_label (by decide) (by decide +kernel)

section Entry

variable {entry : YaConfigEntry}

theorem sectionName_written
    (valid : mpackUtf8CheckNoNull entry.sectionName.text = true) :
    (cstrFormat MAX_SECTION_LENGTH).whole entry.sectionName.text
      (mpackWriteCstr entry.sectionName.text) :=
  cstrFormat_written (small_of_fits (by decide)) entry.sectionName.fits valid

theorem key_written (valid : mpackUtf8CheckNoNull entry.key.text = true) :
    (cstrFormat MAX_KEY_LENGTH).whole entry.key.text
      (mpackWriteCstr entry.key.text) :=
  cstrFormat_written (small_of_fits (by decide)) entry.key.fits valid

/-- The map of an entry in UTF-8 is read back. -/
theorem settingFormat_packed (utf8 : entry.Utf8) :
    settingFormat.whole entry.setCall entry.packed := by
  have value : (cstrFormat MAX_VALUE_LENGTH).whole entry.value.text
      (mpackWriteCstr entry.value.text) :=
    cstrFormat_written (small_of_fits (by decide)) entry.value.fits utf8.value
  have last :
      ((cstrFormat MAX_VALUE_LENGTH).bind fun value =>
          Format.nothing
            (SetCall.mk entry.sectionName.text entry.key.text value)).whole
        entry.setCall (mpackWriteCstr entry.value.text ++ []) :=
    whole_bind value ⟨rfl, rfl⟩
  rw [List.append_nil] at last
  exact whole_bind mapHeader_three
    (whole_bind sectionLabel_written
      (whole_bind (sectionName_written utf8.sectionName)
        (whole_bind keyLabel_written
          (whole_bind (key_written utf8.key)
            (whole_bind valueLabel_written last)))))

private theorem settingFormat_refuses (noUtf8 : ¬ entry.Utf8) (rest : List UInt8) :
    ∃ setting, settingFormat.broken setting (entry.packed ++ rest) := by
  simp only [YaConfigEntry.packed, List.append_assoc]
  by_cases sectionName : mpackUtf8CheckNoNull entry.sectionName.text = true
  · by_cases key : mpackUtf8CheckNoNull entry.key.text = true
    · have value : mpackUtf8CheckNoNull entry.value.text ≠ true :=
        fun valid => noUtf8 ⟨sectionName, key, valid⟩
      have refused :
          (cstrFormat MAX_VALUE_LENGTH).broken []
            (mpackWriteCstr entry.value.text ++ rest) :=
        cstrFormat_refused (small_of_fits (by decide)) value rest
      exact ⟨_, broken_bind_next mapHeader_three
        (broken_bind_next sectionLabel_written
          (broken_bind_next (sectionName_written sectionName)
            (broken_bind_next keyLabel_written
              (broken_bind_next (key_written key)
                (broken_bind_next valueLabel_written
                  (broken_bind_first refused))))))⟩
    · have refused : ∀ rest,
          (cstrFormat MAX_KEY_LENGTH).broken []
            (mpackWriteCstr entry.key.text ++ rest) :=
        cstrFormat_refused (small_of_fits (by decide)) key
      exact ⟨_, broken_bind_next mapHeader_three
        (broken_bind_next sectionLabel_written
          (broken_bind_next (sectionName_written sectionName)
            (broken_bind_next keyLabel_written
              (broken_bind_first (refused _)))))⟩
  · have refused : ∀ rest,
        (cstrFormat MAX_SECTION_LENGTH).broken []
          (mpackWriteCstr entry.sectionName.text ++ rest) :=
      cstrFormat_refused (small_of_fits (by decide)) sectionName
    exact ⟨_, broken_bind_next mapHeader_three
      (broken_bind_next sectionLabel_written
        (broken_bind_first (refused _)))⟩

end Entry

/-! ## The body -/

section Body

variable (config : YaConfig)

private theorem length_listed :
    config.listed.length = (UInt32.ofNat config.entries.length).toNat := by
  have bound := Nat.mod_le config.entries.length (2 ^ 32)
  rw [YaConfig.listed, List.length_take, UInt32.toNat_ofNat',
    Nat.min_eq_left bound]

/-- The maps that the header announces, and those of the other entries. -/
theorem handleGetConfig_split :
    ∃ header rest,
      ArrayHeader config.listed.length header ∧
        handleGetConfig config =
          header ++ (config.listed.flatMap YaConfigEntry.packed ++ rest) := by
  refine ⟨mpackStartArray (UInt32.ofNat config.entries.length),
    (config.entries.drop (config.entries.length % 2 ^ 32)).flatMap
      YaConfigEntry.packed, ?_, ?_⟩
  · rw [length_listed]
    exact mpackStartArray_header _
  · rw [YaConfig.listed, ← List.flatMap_append, List.take_append_drop]
    rfl

variable {config}

theorem handleGetConfig_lists (utf8 : ∀ entry ∈ config.listed, entry.Utf8) :
    BodyLists (handleGetConfig config)
      (config.listed.map YaConfigEntry.setCall) := by
  obtain ⟨header, rest, isHeader, split⟩ := handleGetConfig_split config
  have whole := whole_repeated fun entry member =>
    settingFormat_packed (utf8 entry member)
  exact ⟨_, header, _, rest, isHeader, whole, by rw [split, List.append_assoc]⟩

theorem handleGetConfig_breaks
    (noUtf8 : ∃ entry ∈ config.listed, ¬ entry.Utf8) :
    ∃ settings, BodyBreaks (handleGetConfig config) settings := by
  obtain ⟨header, rest, isHeader, split⟩ := handleGetConfig_split config
  obtain ⟨settings, broken⟩ := broken_repeated
    (fun _ => settingFormat_packed) (fun _ => settingFormat_refuses) noUtf8 rest
  exact ⟨settings, _, header, _, isHeader, broken, split⟩

end Body

/-! ## What posting back does -/

section PostBack

variable {config : YaConfig}

private theorem assignments_setCall (entries : List YaConfigEntry) :
    assignments (entries.map YaConfigEntry.setCall) =
      (entries.map YaConfigEntry.pair).reverse := by
  rw [assignments, ← List.map_reverse, List.map_map, ← List.map_reverse]
  rfl

private theorem setCall_known (config : YaConfig) :
    ∀ setting ∈ config.listed.map YaConfigEntry.setCall,
      setting.name ∈ config.names := by
  intro setting member
  obtain ⟨entry, isListed, rfl⟩ := List.mem_map.mp member
  have isEntry : entry ∈ config.entries := List.mem_of_mem_take isListed
  exact List.mem_map_of_mem (List.mem_map_of_mem isEntry)

/-- Nothing is changed if and only if the last value of each name is its
first. -/
theorem performAll_listed_iff (allocates : Nat → Bool)
    (fit : ∀ setting ∈ config.listed.map YaConfigEntry.setCall,
      setting.Fits) :
    SameSettings
        (performAll allocates (config.listed.map YaConfigEntry.setCall) config)
        config ↔
      config.LastIsFirst := by
  have known : ∀ setting ∈ config.listed.map YaConfigEntry.setCall,
      setting.name ∈ config.names ∨ config.Full allocates :=
    fun setting member => Or.inl (setCall_known config setting member)
  have pairs := (performAll_known fit known).1
  constructor
  · intro same name value latest
    obtain ⟨entry, member, isName⟩ : ∃ entry ∈ config.listed,
        entry.pair.1 = name := by
      have assigned := mem_keys_of_lookup latest
      simpa using assigned
    have present : name ∈ config.names := by
      have isKnown := setCall_known config _ (List.mem_map_of_mem member)
      exact isName ▸ isKnown
    have current := same.lookup entry
    rw [isName, pairs, lookup_assignAll, lookup_filter_mem, if_pos present,
      assignments_setCall, latest] at current
    exact current.symm
  · intro lastIsFirst
    have unchanged : performAll allocates
        (config.listed.map YaConfigEntry.setCall) config = config := by
      rw [performAll_eq_self_iff fit]
      intro name value latest
      rw [assignments_setCall] at latest
      exact Or.inl (lastIsFirst name value latest)
    intro sectionName key
    rw [unchanged]

/-- Posting back what has been fetched succeeds and changes no setting. -/
def PostBackIsNoOp (allocates : Nat → Bool) (config : YaConfig) : Prop :=
  ∃ outcome,
    handlePostConfig allocates true config (handleGetConfig config) =
        .ok outcome ∧
      outcome.response = successResponse ∧
      SameSettings outcome.config config

/-- A list with other texts than UTF-8 is refused. -/
theorem handlePostConfig_refuses (allocates : Nat → Bool) (opens : Bool)
    (noUtf8 : ∃ entry ∈ config.listed, ¬ entry.Utf8) :
    ∃ outcome,
      handlePostConfig allocates opens config (handleGetConfig config) =
          .ok outcome ∧
        outcome.response = parseFailure := by
  obtain ⟨settings, breaks⟩ := handleGetConfig_breaks noUtf8
  exact ⟨_, handlePostConfig_breaks allocates opens config breaks, rfl⟩

/-- It does so if and only if all texts are UTF-8 and the last value of each
name is its first. -/
theorem postBackIsNoOp_iff (allocates : Nat → Bool) (config : YaConfig) :
    PostBackIsNoOp allocates config ↔
      (∀ entry ∈ config.listed, entry.Utf8) ∧ config.LastIsFirst := by
  by_cases utf8 : ∀ entry ∈ config.listed, entry.Utf8
  · have lists := handleGetConfig_lists utf8
    have handled := handlePostConfig_lists allocates true config lists
    rw [finishPost_response (fresh []) rfl, if_pos rfl] at handled
    rw [and_iff_right utf8, ← performAll_listed_iff allocates lists.fit]
    constructor
    · intro noOp
      obtain ⟨outcome, returned, -, same⟩ := noOp
      rw [handled] at returned
      cases returned
      exact same
    · intro same
      exact ⟨_, handled, rfl, same⟩
  · refine iff_of_false ?_ fun both => utf8 both.1
    intro noOp
    obtain ⟨outcome, returned, success, -⟩ := noOp
    push Not at utf8
    obtain ⟨other, refused, failure⟩ :=
      handlePostConfig_refuses allocates true utf8
    rw [returned] at refused
    cases refused
    exact successResponse_ne_parseFailure (success.symm.trans failure)

end PostBack

/-! ## Two files -/

/-- The value of the key `k` in the section `s` is a byte that is no UTF-8. -/
def latinFile : List UInt8 :=
  [OPENING, 115, CLOSING, NEWLINE, 107, EQUALS, 0xe9, NEWLINE]

private theorem duplicate_postedBack :
    yaConfigGet (loadedFrom duplicateFile) (some [115]) (some [107]) =
        some [49] ∧
      (handlePostConfig (fun _ => true) true (loadedFrom duplicateFile)
            (handleGetConfig (loadedFrom duplicateFile))).map
          (fun outcome =>
            yaConfigGet outcome.config (some [115]) (some [107])) =
        .ok (some [50]) := by
  decide +kernel

private theorem latin_postedBack :
    (handlePostConfig (fun _ => true) true (loadedFrom latinFile)
        (handleGetConfig (loadedFrom latinFile))).map PostOutcome.response =
      .ok parseFailure := by
  decide +kernel

/-- A key with two values gets the second one, and a value in another encoding
is refused. -/
theorem postBackIsNoOp_fails :
    ¬ PostBackIsNoOp (fun _ => true) (loadedFrom duplicateFile) ∧
      ¬ PostBackIsNoOp (fun _ => true) (loadedFrom latinFile) := by
  refine ⟨?_, ?_⟩
  · intro noOp
    obtain ⟨outcome, handled, -, same⟩ := noOp
    obtain ⟨before, after⟩ := duplicate_postedBack
    rw [handled] at after
    have changed :
        yaConfigGet outcome.config (some [115]) (some [107]) = some [50] :=
      Except.ok.inj after
    rw [same, before] at changed
    exact absurd changed (by decide)
  · intro noOp
    obtain ⟨outcome, handled, success, -⟩ := noOp
    have failure := latin_postedBack
    rw [handled] at failure
    exact successResponse_ne_parseFailure
      (success.symm.trans (Except.ok.inj failure))

end MouseHero
