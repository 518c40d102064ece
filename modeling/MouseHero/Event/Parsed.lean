import MouseHero.Event.Malformed

/-!
# Parsed events

The parameters of an event that `ya_parse_event` has filled in are those of its
type, or missing.  Direction plays no part.
-/

namespace MouseHero

open FaultM

variable {F : Type}

/-- The parameters are of the kind that the parser of the type delivers. -/
def YAParam.ParsedAs (type : YAEventType) : YAParam F → Prop
  | .common _ => type.isCommon
  | .keyboard _ => type = .keyboard
  | .textInput request => type = .textInput ∧ request.text.isSome
  | .inputGet _ => type = .textGet
  | .authorizeRequest _ => type = .authorize
  | .sessionOption _ => type = .sessionOption
  | .discoverRequest _ => type = .discover
  | .authorizeResponse _ | .discoverResponse _ => False

/-- The parameters fit the type of the event. -/
def YAEvent.WellTyped (event : YAEvent F) : Prop :=
  ∀ type, YAEventType.ofCode? event.header.type = some type →
    ∀ param, event.param = some param →
      param.ParsedAs type ∧ event.paramLen = param.size

/-! ## The parameters of each type -/

section Kinds

variable {type : YAEventType} {event : YAEvent F}

/-- Parameters, if there are any, with what their kind says about them. -/
theorem YAEvent.WellTyped.param_cases {shape : YAParam F → Prop}
    (typed : event.WellTyped)
    (known : YAEventType.ofCode? event.header.type = some type)
    (shaped : ∀ param : YAParam F, param.ParsedAs type → shape param) :
    event.param = none ∨
      ∃ param, event.param = some param ∧ event.paramLen = param.size ∧
        shape param := by
  cases carried : event.param with
  | none => exact Or.inl rfl
  | some param =>
      obtain ⟨kind, length⟩ := typed type known param carried
      exact Or.inr ⟨param, rfl, length, shaped param kind⟩

theorem YAEvent.WellTyped.common (typed : event.WellTyped)
    (known : YAEventType.ofCode? event.header.type = some type)
    (common : type.isCommon) :
    event.param = none ∨
      ∃ request, event.param = some (.common request) ∧ event.paramLen = 8 := by
  have shaped (param : YAParam F) (kind : param.ParsedAs type) :
      ∃ request, param = .common request := by
    cases param <;> simp_all [YAParam.ParsedAs, YAEventType.isCommon]
  rcases typed.param_cases known shaped with
    absent | ⟨param, carried, length, request, rfl⟩
  · exact Or.inl absent
  · exact Or.inr ⟨request, carried, length⟩

theorem YAEvent.WellTyped.keyboard (typed : event.WellTyped)
    (known : YAEventType.ofCode? event.header.type = some .keyboard) :
    event.param = none ∨
      ∃ request, event.param = some (.keyboard request) ∧
        event.paramLen = 12 := by
  have shaped (param : YAParam F) (kind : param.ParsedAs .keyboard) :
      ∃ request, param = .keyboard request := by
    cases param <;> simp_all [YAParam.ParsedAs, YAEventType.isCommon]
  rcases typed.param_cases known shaped with
    absent | ⟨param, carried, length, request, rfl⟩
  · exact Or.inl absent
  · exact Or.inr ⟨request, carried, length⟩

theorem YAEvent.WellTyped.textInput (typed : event.WellTyped)
    (known : YAEventType.ofCode? event.header.type = some .textInput) :
    event.param = none ∨
      ∃ text, event.param = some (.textInput { text := some text }) := by
  have shaped (param : YAParam F) (kind : param.ParsedAs .textInput) :
      ∃ text, param = .textInput { text := some text } := by
    cases param
    case textInput request =>
      obtain ⟨text, isText⟩ := Option.isSome_iff_exists.mp kind.2
      exact ⟨text, by rw [← isText]⟩
    all_goals simp_all [YAParam.ParsedAs, YAEventType.isCommon]
  rcases typed.param_cases known shaped with
    absent | ⟨param, carried, -, text, rfl⟩
  · exact Or.inl absent
  · exact Or.inr ⟨text, carried⟩

theorem YAEvent.WellTyped.authorize (typed : event.WellTyped)
    (known : YAEventType.ofCode? event.header.type = some .authorize) :
    event.param = none ∨
      ∃ request, event.param = some (.authorizeRequest request) := by
  have shaped (param : YAParam F) (kind : param.ParsedAs .authorize) :
      ∃ request, param = .authorizeRequest request := by
    cases param <;> simp_all [YAParam.ParsedAs, YAEventType.isCommon]
  rcases typed.param_cases known shaped with
    absent | ⟨param, carried, -, request, rfl⟩
  · exact Or.inl absent
  · exact Or.inr ⟨request, carried⟩

theorem YAEvent.WellTyped.sessionOption (typed : event.WellTyped)
    (known : YAEventType.ofCode? event.header.type = some .sessionOption) :
    event.param = none ∨
      ∃ request, event.param = some (.sessionOption request) := by
  have shaped (param : YAParam F) (kind : param.ParsedAs .sessionOption) :
      ∃ request, param = .sessionOption request := by
    cases param <;> simp_all [YAParam.ParsedAs, YAEventType.isCommon]
  rcases typed.param_cases known shaped with
    absent | ⟨param, carried, -, request, rfl⟩
  · exact Or.inl absent
  · exact Or.inr ⟨request, carried⟩

theorem YAEvent.WellTyped.discover (typed : event.WellTyped)
    (known : YAEventType.ofCode? event.header.type = some .discover) :
    event.param = none ∨
      ∃ request, event.param = some (.discoverRequest request) := by
  have shaped (param : YAParam F) (kind : param.ParsedAs .discover) :
      ∃ request, param = .discoverRequest request := by
    cases param <;> simp_all [YAParam.ParsedAs, YAEventType.isCommon]
  rcases typed.param_cases known shaped with
    absent | ⟨param, carried, -, request, rfl⟩
  · exact Or.inl absent
  · exact Or.inr ⟨request, carried⟩

end Kinds

/-! ## Parsers -/

private theorem deliver_eq_ok {read : ReaderM (YAParam F)} {payload : List UInt8}
    {len : Nat} {result : ParserResult F}
    (returned : deliver read payload len = .ok result) :
    ∃ param reached,
      read (mpackReaderInitData payload len) = (.ok param, reached) ∧
        result = { status := 0, outParam := some param, outLen := param.size } := by
  unfold deliver at returned
  cases outcome : read (mpackReaderInitData payload len) with
  | mk value reached =>
      rw [outcome] at returned
      cases value with
      | error fault => cases returned
      | ok param =>
          cases returned
          exact ⟨param, reached, rfl, rfl⟩

private theorem deliver_parsedAs {type : YAEventType} {read : ReaderM (YAParam F)}
    {payload : List UInt8} {len : Nat} {result : ParserResult F}
    (kind : Yields (YAParam.ParsedAs type) read)
    (returned : deliver read payload len = .ok result) :
    ∀ param, result.outParam = some param →
      param.ParsedAs type ∧ result.outLen = param.size := by
  obtain ⟨param, reached, outcome, rfl⟩ := deliver_eq_ok returned
  intro other carried
  cases carried
  exact ⟨kind _ _ _ outcome, rfl⟩

private theorem readText_yields :
    Yields (fun text : CString => text.isSome = true) readText := by
  apply yields_after
  intro strLen
  refine yields_ite (yields_fault _) ?_
  exact yields_after fun _ => yields_pure rfl

variable [CFloat F]

theorem callParser_parsedAs {header : YAEventHeader} {payload : List UInt8}
    {len : Nat} {result : ParserResult F} {type : YAEventType}
    (known : YAEventType.ofCode? header.type = some type)
    (returned : callParser header payload len = .ok result) :
    ∀ param, result.outParam = some param →
      param.ParsedAs type ∧ result.outLen = param.size := by
  have common (kind : type.isCommon)
      (returned : parseCommonRequest payload len = .ok result) :
      ∀ param, result.outParam = some param →
        param.ParsedAs type ∧ result.outLen = param.size := by
    refine deliver_parsedAs ?_ returned
    exact yields_after fun _ => yields_after fun _ => yields_after fun _ =>
      yields_pure kind
  unfold callParser at returned
  cases type <;> simp only [getParser, known] at returned
  case mouseMove | mouseClick | mouseWheel | control => exact common rfl returned
  case keyboard =>
    refine deliver_parsedAs ?_ returned
    exact yields_after fun _ => yields_after fun _ => yields_after fun _ =>
      yields_after fun _ => yields_pure rfl
  case textInput =>
    refine deliver_parsedAs ?_ returned
    exact yields_bind readText_yields fun text isText => yields_pure ⟨rfl, isText⟩
  case textGet =>
    refine deliver_parsedAs ?_ returned
    exact yields_after fun _ => yields_pure rfl
  case discover =>
    refine deliver_parsedAs ?_ returned
    exact yields_after fun _ => yields_pure rfl
  case authorize =>
    refine deliver_parsedAs ?_ returned
    exact yields_after fun _ => yields_after fun _ => yields_after fun _ =>
      yields_pure rfl
  case sessionOption =>
    refine deliver_parsedAs ?_ returned
    refine yields_after fun _ => yields_after fun reader => ?_
    exact yields_ite (yields_after fun _ => yields_pure rfl)
      (yields_after fun _ => yields_pure rfl)
  case heartbeat | mouseStop =>
    cases returned
    intro param carried
    cases carried

/-- An event that `ya_parse_event` has filled in is well typed. -/
theorem yaParseEvent_wellTyped {buf : List UInt8} {size : YAPackageSize}
    {parsed : ParsedEvent F}
    (returned : yaParseEvent buf YAEvent.zero size = .ok parsed) :
    parsed.event.WellTyped := by
  have noParam (header : YAEventHeader) :
      (({ YAEvent.zero with header } : YAEvent F)).WellTyped := by
    intro type _ param carried
    cases carried
  cases stage : bodyStage buf size with
  | error reason => simp [yaParseEvent, stage] at returned
  | ok stage' =>
      rw [yaParseEvent, stage] at returned
      simp only [except_ok_bind] at returned
      cases stage' with
      | refused buf =>
          cases returned
          exact noParam _
      | noBody header buf =>
          cases returned
          exact noParam header
      | body header payload buf =>
          cases called : callParser (F := F) header payload
              (sizeOfInt (contentLen size)) with
          | error reason => simp [called] at returned
          | ok result =>
              have accepted := callParser_status called
              simp only [called, except_ok_bind, accepted] at returned
              cases returned
              intro type known
              exact callParser_parsedAs known called

end MouseHero
