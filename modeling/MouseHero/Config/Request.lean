import MouseHero.Config.Refinement
import MouseHero.Mpack.Formats
import MouseHero.Mpack.Writer

/-!
# A request to change the configuration

`handle_post_config`: it decodes the settings of the body and sets each of them
at once.  The reader's error state is looked at behind the loop.
-/

namespace MouseHero

open FaultM MessagePack

/-! ## The handler -/

/-- One turn of the loop, up to the call of `ya_config_set`. -/
def readSetting : ReaderM SetCall := do
  let _ ← mpackExpectMap
  let _ ← mpackExpectUtf8Cstr MAX_KEY_LENGTH
  let sectionName ← mpackExpectUtf8Cstr MAX_SECTION_LENGTH
  let _ ← mpackExpectUtf8Cstr MAX_KEY_LENGTH
  let key ← mpackExpectUtf8Cstr MAX_KEY_LENGTH
  let _ ← mpackExpectUtf8Cstr MAX_KEY_LENGTH
  let value ← mpackExpectUtf8Cstr MAX_VALUE_LENGTH
  return { sectionName, key, value }

/-- The loop over the announced settings. -/
def postLoop (allocates : Nat → Bool) : Nat → YaConfig → ReaderM YaConfig
  | 0, config => pure config
  | count + 1, config => do
      let setting ← readSetting
      postLoop allocates count (setting.perform allocates config).1

/-- The response to a request that is carried out. -/
def successResponse : List UInt8 :=
  mpackStartMap 1 ++
    mpackWriteCstr (literal "result") ++ mpackWriteCstr (literal "success")

def errorResponse (message : String) : List UInt8 :=
  mpackStartMap 2 ++
    mpackWriteCstr (literal "result") ++ mpackWriteCstr (literal "error") ++
    mpackWriteCstr (literal "message") ++ mpackWriteCstr (literal message)

def invalidFormat : List UInt8 :=
  errorResponse "Invalid request format: expected an array."

def parseFailure : List UInt8 :=
  errorResponse "Failed to parse request data."

def saveFailure : List UInt8 :=
  errorResponse "Failed to save configuration file."

theorem successResponse_ne_parseFailure : successResponse ≠ parseFailure := by
  decide

/-- What a request leaves behind: the configuration, the new content of its
file, if it has been written, and the response. -/
structure PostOutcome where
  config : YaConfig
  file : Option (List UInt8)
  response : List UInt8
  deriving DecidableEq, Repr

/-- The handler behind the loop. -/
def finishPost (opens : Bool) (config : YaConfig) (reader : MpackReader) :
    PostOutcome :=
  if reader.error ≠ .ok then
    { config, file := none, response := parseFailure }
  else if (yaConfigSave config opens).2 ≠ 0 then
    { config, file := none, response := saveFailure }
  else
    { config
      file := (yaConfigSave config opens).1
      response := successResponse }

/-- The handler, as far as it reads. -/
def postSettings (allocates : Nat → Bool) (opens : Bool) (config : YaConfig) :
    ReaderM PostOutcome := do
  match ← mpackReadTag with
  | .array count => do
      let config ← postLoop allocates count config
      let reader ← getState
      pure (finishPost opens config reader)
  | _ => pure { config, file := none, response := invalidFormat }

/-- `handle_post_config` of a body, if the configuration file can be opened or
not. -/
def handlePostConfig (allocates : Nat → Bool) (opens : Bool)
    (config : YaConfig) (body : List UInt8) : Except Fault PostOutcome :=
  (postSettings allocates opens config
    (mpackReaderInitData body body.length)).1

/-! ## Bodies -/

/-- A setting: a map header and three pairs of strings, of which the names are
not looked at. -/
def settingFormat : Format UInt8 SetCall :=
  (Format.part MapHeader 0).bind fun _ =>
    (cstrFormat MAX_KEY_LENGTH).bind fun _ =>
    (cstrFormat MAX_SECTION_LENGTH).bind fun sectionName =>
    (cstrFormat MAX_KEY_LENGTH).bind fun _ =>
    (cstrFormat MAX_KEY_LENGTH).bind fun key =>
    (cstrFormat MAX_KEY_LENGTH).bind fun _ =>
    (cstrFormat MAX_VALUE_LENGTH).bind fun value =>
      Format.nothing { sectionName, key, value }

private theorem readSetting_parses : Parses readSetting settingFormat := by
  have name := mpackExpectUtf8Cstr_parses (show 0 < MAX_KEY_LENGTH by decide)
  apply parses_bind mpackExpectMap_parses
  intro pairs
  apply parses_bind name
  intro sectionLabel
  apply parses_bind
    (mpackExpectUtf8Cstr_parses (show 0 < MAX_SECTION_LENGTH by decide))
  intro sectionName
  apply parses_bind name
  intro keyLabel
  apply parses_bind name
  intro key
  apply parses_bind name
  intro valueLabel
  apply parses_bind
    (mpackExpectUtf8Cstr_parses (show 0 < MAX_VALUE_LENGTH by decide))
  intro value
  exact parses_nothing _

/-- The body is an array with these settings in front. -/
def BodyLists (body : List UInt8) (settings : List SetCall) : Prop :=
  ∃ count header listing rest,
    ArrayHeader count header ∧
      (settingFormat.repeated count).whole settings listing ∧
      body = header ++ listing ++ rest

/-- The body announces an array that breaks off.  The settings are the ones in
front of the break, and what is delivered for the others. -/
def BodyBreaks (body : List UInt8) (settings : List SetCall) : Prop :=
  ∃ count header listing,
    ArrayHeader count header ∧
      (settingFormat.repeated count).broken settings listing ∧
      body = header ++ listing

/-- A setting that is stored as it is. -/
structure SetCall.Fits (setting : SetCall) : Prop where
  accepted : setting.Accepted
  stored : setting.stored = setting.value

theorem settingFormat_ensures : settingFormat.Ensures SetCall.Fits := by
  have name := cstrFormat_ensures (show 0 < MAX_KEY_LENGTH by decide)
  have anything :
      (Format.part MapHeader 0).Ensures fun _ => True :=
    ⟨fun _ _ _ => trivial, fun _ _ _ => trivial, trivial⟩
  apply Format.ensures_bind anything
  intro pairs _
  apply Format.ensures_bind name
  intro sectionLabel _
  apply Format.ensures_bind
    (cstrFormat_ensures (show 0 < MAX_SECTION_LENGTH by decide))
  intro sectionName isSection
  apply Format.ensures_bind name
  intro keyLabel _
  apply Format.ensures_bind name
  intro key isKey
  apply Format.ensures_bind name
  intro valueLabel _
  apply Format.ensures_bind
    (cstrFormat_ensures (show 0 < MAX_VALUE_LENGTH by decide))
  intro value isValue
  apply Format.ensures_nothing
  have fits : value.length ≤ 255 := Nat.le_of_lt_succ isValue.2
  have stored : (cString value).take 255 = value := by
    rw [cString_of_no_nul isValue.1, List.take_of_length_le fits]
  exact ⟨⟨isSection.1, isSection.2, isKey.1, isKey.2⟩, stored⟩

/-! ## What the handler does -/

/-- The decoding half of the loop. -/
def readSettings : Nat → ReaderM (List SetCall)
  | 0 => pure []
  | count + 1 => do
      let setting ← readSetting
      let settings ← readSettings count
      return setting :: settings

/-- The other half. -/
def performAll (allocates : Nat → Bool) (settings : List SetCall)
    (config : YaConfig) : YaConfig :=
  settings.foldl (fun config setting => (setting.perform allocates config).1)
    config

theorem readSettings_parses (count : Nat) :
    Parses (readSettings count) (settingFormat.repeated count) :=
  parses_repeated readSetting_parses rfl (fun _ => rfl) count

/-- The loop sets what a loop that only reads would deliver. -/
theorem postLoop_of_readSettings (allocates : Nat → Bool) {count : Nat}
    (config : YaConfig) {before after : MpackReader}
    {settings : List SetCall}
    (returned : readSettings count before = (.ok settings, after)) :
    postLoop allocates count config before =
      (.ok (performAll allocates settings config), after) := by
  induction count generalizing config before settings with
  | zero =>
      cases returned
      rfl
  | succ count inductionHypothesis =>
      rw [readSettings] at returned
      rcases first : readSetting before with ⟨reason | setting, middle⟩
      · rw [bind_of_fault first] at returned
        cases returned
      · rw [bind_of_ok first] at returned
        rcases later : readSettings count middle with ⟨reason | rest, last⟩
        · rw [bind_of_fault later] at returned
          cases returned
        · rw [bind_of_ok later] at returned
          cases returned
          rw [postLoop, bind_of_ok first]
          exact inductionHypothesis _ later

section Outcome

variable (allocates : Nat → Bool) (opens : Bool) (config : YaConfig)
variable {body : List UInt8} {settings : List SetCall}

theorem handlePostConfig_array {count : Nat} {header rest : List UInt8}
    (isHeader : ArrayHeader count header) {after : MpackReader}
    (returned : readSettings count (fresh rest) = (.ok settings, after)) :
    handlePostConfig allocates opens config (header ++ rest) =
      .ok (finishPost opens (performAll allocates settings config) after) := by
  have tag := (mpackReadTag_array isHeader).fresh rest
  have performed :=
    postLoop_of_readSettings allocates config returned
  have outcome :
      postSettings allocates opens config (fresh (header ++ rest)) =
        (.ok (finishPost opens (performAll allocates settings config) after),
          after) := by
    rw [postSettings, bind_of_ok tag]
    simp only
    rw [bind_of_ok performed]
    rfl
  exact congrArg Prod.fst outcome

theorem handlePostConfig_lists (lists : BodyLists body settings) :
    handlePostConfig allocates opens config body =
      .ok (finishPost opens (performAll allocates settings config)
        (fresh [])) := by
  obtain ⟨count, header, listing, rest, isHeader, whole, rfl⟩ := lists
  have read := (readSettings_parses count).whole settings listing rest whole
  rw [List.append_assoc]
  rw [handlePostConfig_array allocates opens config isHeader read]
  rfl

/-- A body that breaks off is an error, but its settings are set. -/
theorem handlePostConfig_breaks (breaks : BodyBreaks body settings) :
    handlePostConfig allocates opens config body =
      .ok {
        config := performAll allocates settings config
        file := none
        response := parseFailure } := by
  obtain ⟨count, header, listing, isHeader, broken, rfl⟩ := breaks
  obtain ⟨after, failed, read⟩ :=
    (readSettings_parses count).broken settings listing broken
  have isError : after.error ≠ .ok := failed
  rw [handlePostConfig_array allocates opens config isHeader read, finishPost,
    if_pos isError]

theorem handlePostConfig_noArray
    (noArray : ∀ count header rest,
      ArrayHeader count header → body ≠ header ++ rest) :
    handlePostConfig allocates opens config body =
      .ok { config, file := none, response := invalidFormat } := by
  rcases mpackReadTag_outcome body with
    ⟨tag, front, rest, denotes, rfl⟩ | ⟨after, failed, returned⟩
  · have returned := denotes.reads.fresh rest
    have outcome : (postSettings allocates opens config
        (fresh (front ++ rest))).1 =
        .ok { config, file := none, response := invalidFormat } := by
      rw [postSettings, bind_of_ok returned]
      cases tag with
      | array count => exact absurd rfl (noArray count front rest denotes.array)
      | _ => rfl
    exact outcome
  · have outcome : (postSettings allocates opens config (fresh body)).1 =
        .ok { config, file := none, response := invalidFormat } := by
      rw [postSettings, bind_of_ok returned]
      rfl
    exact outcome

end Outcome

theorem body_cases (body : List UInt8) :
    (∃ settings, BodyLists body settings) ∨
      (∃ settings, BodyBreaks body settings) ∨
      ∀ count header rest,
        ArrayHeader count header → body ≠ header ++ rest := by
  by_cases isArray : ∃ count header rest,
      ArrayHeader count header ∧ body = header ++ rest
  · obtain ⟨count, header, rest, isHeader, rfl⟩ := isArray
    rcases (readSettings_parses count).total rest with
      ⟨settings, listing, behind, whole, rfl⟩ | ⟨settings, broken⟩
    · exact Or.inl ⟨settings, count, header, listing, behind, isHeader, whole,
        by simp⟩
    · exact Or.inr (Or.inl ⟨settings, count, header, rest, isHeader, broken,
        rfl⟩)
  · refine Or.inr (Or.inr ?_)
    intro count header rest isHeader split
    exact isArray ⟨count, header, rest, isHeader, split⟩

end MouseHero
