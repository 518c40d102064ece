/-!
# Stateful computations that may stop with a fault

`FaultM Fault State` models code that reads and writes a state and whose
partial operations, such as following a pointer, may have no defined result.
A fault ends the computation, and the state it had reached is kept, so that
what happened before the fault stays observable.

The second half is the rule set for frame conditions: a computation respects
a relation when every run relates the state before it to the state after it.
For a reflexive and transitive relation this is closed under every way of
composing computations.  A computation is confined when it respects a relation
and stops only with certain faults.
-/

namespace MouseHero

universe u v

/-! ## Results of partial operations -/

section Partial

variable {Fault : Type u} {Result Next : Type v}

@[simp]
theorem except_pure (value : Result) :
    (pure value : Except Fault Result) = .ok value :=
  rfl

@[simp]
theorem except_ok_bind (value : Result) (next : Result → Except Fault Next) :
    (Except.ok value >>= next) = next value :=
  rfl

@[simp]
theorem except_error_bind
    (reason : Fault) (next : Result → Except Fault Next) :
    (Except.error reason >>= next) = .error reason :=
  rfl

end Partial

/-! ## Stateful computations -/

/-- A computation over `State` that returns a value or stops with a fault. -/
def FaultM (Fault State : Type u) (Result : Type v) : Type (max u v) :=
  State → Except Fault Result × State

namespace FaultM

variable {Fault State : Type u} {Result Next : Type v}

/-- Run the continuation on the outcome of the first computation. -/
def andThen
    (first : FaultM Fault State Result)
    (next : Result → FaultM Fault State Next) :
    FaultM Fault State Next :=
  fun state =>
    match first state with
    | (.ok value, reached) => next value reached
    | (.error fault, reached) => (.error fault, reached)

instance : Monad (FaultM Fault State) where
  pure value := fun state => (.ok value, state)
  bind := andThen

/-- Stop with a fault. -/
def fault (reason : Fault) : FaultM Fault State Result :=
  fun state => (.error reason, state)

/-- The current state. -/
def getState : FaultM Fault State State :=
  fun state => (.ok state, state)

/-- Replace the state by an update of it. -/
def modifyState (update : State → State) :
    FaultM Fault State PUnit :=
  fun state => (.ok ⟨⟩, update state)

@[simp]
theorem pure_apply (value : Result) (state : State) :
    (pure value : FaultM Fault State Result) state =
      (.ok value, state) :=
  rfl

@[simp]
theorem fault_apply (reason : Fault) (state : State) :
    (fault reason : FaultM Fault State Result) state =
      (.error reason, state) :=
  rfl

@[simp]
theorem getState_apply (state : State) :
    (getState : FaultM Fault State State) state = (.ok state, state) :=
  rfl

@[simp]
theorem modifyState_apply (update : State → State) (state : State) :
    (modifyState update : FaultM Fault State PUnit) state =
      (.ok ⟨⟩, update state) :=
  rfl

theorem bind_apply
    (first : FaultM Fault State Result)
    (next : Result → FaultM Fault State Next) (state : State) :
    (first >>= next) state =
      match first state with
      | (.ok value, reached) => next value reached
      | (.error reason, reached) => (.error reason, reached) :=
  rfl

theorem bind_of_ok
    {first : FaultM Fault State Result}
    {next : Result → FaultM Fault State Next}
    {state reached : State} {value : Result}
    (returned : first state = (.ok value, reached)) :
    (first >>= next) state = next value reached := by
  rw [bind_apply, returned]

theorem bind_of_fault
    {first : FaultM Fault State Result}
    {next : Result → FaultM Fault State Next}
    {state reached : State} {reason : Fault}
    (stopped : first state = (.error reason, reached)) :
    (first >>= next) state = (.error reason, reached) := by
  rw [bind_apply, stopped]

@[simp]
theorem bind_pure_apply
    (value : Result) (next : Result → FaultM Fault State Next)
    (state : State) :
    ((pure value : FaultM Fault State Result) >>= next) state =
      next value state :=
  rfl

@[simp]
theorem bind_fault_apply
    (reason : Fault) (next : Result → FaultM Fault State Next)
    (state : State) :
    ((fault reason : FaultM Fault State Result) >>= next) state =
      (.error reason, state) :=
  rfl

/-! ## Frame conditions -/

/-- Every run relates its initial state to the state it reaches, whether it
returns or stops with a fault. -/
def Respects
    (related : State → State → Prop)
    (computation : FaultM Fault State Result) : Prop :=
  ∀ state, related state (computation state).2

section Frames

variable {related : State → State → Prop}

theorem respects_pure
    (reflexive : ∀ state, related state state) (value : Result) :
    Respects related (pure value : FaultM Fault State Result) :=
  fun state => reflexive state

theorem respects_fault
    (reflexive : ∀ state, related state state) (reason : Fault) :
    Respects related (fault reason : FaultM Fault State Result) :=
  fun state => reflexive state

theorem respects_getState
    (reflexive : ∀ state, related state state) :
    Respects related (getState : FaultM Fault State State) :=
  fun state => reflexive state

theorem respects_modifyState
    {update : State → State}
    (updates : ∀ state, related state (update state)) :
    Respects related
      (modifyState update : FaultM Fault State PUnit) :=
  fun state => updates state

/-- Composition, where the two parts and the whole may respect different
relations. -/
theorem respects_andThen
    {initial later whole : State → State → Prop}
    (stops : ∀ first middle, initial first middle → whole first middle)
    (composes : ∀ first middle last,
      initial first middle → later middle last → whole first last)
    {first : FaultM Fault State Result}
    {next : Result → FaultM Fault State Next}
    (firstRespects : Respects initial first)
    (nextRespects : ∀ value, Respects later (next value)) :
    Respects whole (first >>= next) := by
  intro state
  rw [bind_apply]
  have reaches := firstRespects state
  cases outcome : first state with
  | mk result reached =>
      rw [outcome] at reaches
      cases result with
      | error reason => exact stops _ _ reaches
      | ok value =>
          exact composes state reached _ reaches (nextRespects value reached)

theorem respects_bind
    (transitive : ∀ first middle last,
      related first middle → related middle last → related first last)
    {first : FaultM Fault State Result}
    {next : Result → FaultM Fault State Next}
    (firstRespects : Respects related first)
    (nextRespects : ∀ value, Respects related (next value)) :
    Respects related (first >>= next) :=
  respects_andThen (fun _ _ reaches => reaches) transitive firstRespects
    nextRespects

/-- What follows a computation respects the relation from where it starts. -/
theorem respects_rest
    (related : State → State → Prop)
    (reflexive : ∀ state, related state state)
    (first : FaultM Fault State Result)
    {next : Result → FaultM Fault State Next}
    (nextRespects : ∀ value, Respects related (next value)) (state : State) :
    related (first state).2 ((first >>= next) state).2 := by
  rw [bind_apply]
  cases first state with
  | mk result reached =>
      cases result with
      | error reason => exact reflexive reached
      | ok value => exact nextRespects value reached

theorem respects_ite
    {condition : Prop} [Decidable condition]
    {yes no : FaultM Fault State Result}
    (yesRespects : Respects related yes)
    (noRespects : Respects related no) :
    Respects related (if condition then yes else no) := by
  split
  · exact yesRespects
  · exact noRespects

end Frames

/-! ## Postconditions -/

/-- Every value that the computation returns satisfies the condition. -/
def Yields (condition : Result → Prop)
    (computation : FaultM Fault State Result) : Prop :=
  ∀ state value reached,
    computation state = (.ok value, reached) → condition value

section Postconditions

variable {condition : Result → Prop} {final : Next → Prop}

theorem yields_pure {value : Result} (holds : condition value) :
    Yields condition (pure value : FaultM Fault State Result) := by
  intro state returned reached outcome
  cases outcome
  exact holds

theorem yields_fault (reason : Fault) :
    Yields condition (fault reason : FaultM Fault State Result) := by
  intro state returned reached outcome
  cases outcome

theorem yields_bind
    {first : FaultM Fault State Result}
    {next : Result → FaultM Fault State Next}
    (firstYields : Yields condition first)
    (nextYields : ∀ value, condition value → Yields final (next value)) :
    Yields final (first >>= next) := by
  intro state value reached outcome
  rw [bind_apply] at outcome
  cases initial : first state with
  | mk result middle =>
      rw [initial] at outcome
      cases result with
      | error reason => cases outcome
      | ok middleValue =>
          exact nextYields middleValue (firstYields _ _ _ initial) _ _ _
            outcome

theorem yields_after
    {first : FaultM Fault State Result}
    {next : Result → FaultM Fault State Next}
    (nextYields : ∀ value, Yields final (next value)) :
    Yields final (first >>= next) := by
  have anything : Yields (fun _ => True) first := fun _ _ _ _ => trivial
  exact yields_bind anything fun value _ => nextYields value

theorem yields_ite {test : Prop} [Decidable test]
    {yes no : FaultM Fault State Result}
    (yesYields : Yields condition yes) (noYields : Yields condition no) :
    Yields condition (if test then yes else no) := by
  split
  · exact yesYields
  · exact noYields

end Postconditions

/-! ## Confinement -/

/-- Started in a state, the computation ends in a related one, and it stops
only with faults that are allowed. -/
def ConfinedAt (related : State → State → Prop) (allowed : Fault → Prop)
    (computation : FaultM Fault State Result) (state : State) : Prop :=
  related state (computation state).2 ∧
    ∀ reason, (computation state).1 = .error reason → allowed reason

section Confinement

variable {related : State → State → Prop} {allowed : Fault → Prop}
variable {state : State}

theorem confinedAt_of_ok {computation : FaultM Fault State Result}
    {value : Result} {reached : State}
    (returned : computation state = (.ok value, reached))
    (reaches : related state reached) :
    ConfinedAt related allowed computation state := by
  rw [ConfinedAt, returned]
  exact ⟨reaches, nofun⟩

theorem confinedAt_pure (reflexive : ∀ state, related state state)
    (value : Result) :
    ConfinedAt related allowed
      (pure value : FaultM Fault State Result) state :=
  confinedAt_of_ok (pure_apply value state) (reflexive state)

theorem confinedAt_fault (reflexive : ∀ state, related state state)
    {reason : Fault} (isAllowed : allowed reason) :
    ConfinedAt related allowed
      (fault reason : FaultM Fault State Result) state :=
  ⟨reflexive state, fun _ same => by cases same; exact isAllowed⟩

theorem confinedAt_modifyState {update : State → State}
    (updates : related state (update state)) :
    ConfinedAt related allowed
      (modifyState update : FaultM Fault State PUnit) state :=
  confinedAt_of_ok (modifyState_apply update state) updates

/-- What follows starts with a value and in a related state that the first
computation has returned. -/
theorem confinedAt_bind
    (transitive : ∀ first middle last,
      related first middle → related middle last → related first last)
    {first : FaultM Fault State Result}
    {next : Result → FaultM Fault State Next}
    (firstConfined : ConfinedAt related allowed first state)
    (nextConfined : ∀ value reached,
      first state = (.ok value, reached) → related state reached →
        ConfinedAt related allowed (next value) reached) :
    ConfinedAt related allowed (first >>= next) state := by
  cases outcome : first state with
  | mk result reached =>
      cases result with
      | error reason =>
          rw [ConfinedAt, outcome] at firstConfined
          rw [ConfinedAt, bind_of_fault outcome]
          exact ⟨firstConfined.1, fun _ same => by
            cases same
            exact firstConfined.2 reason rfl⟩
      | ok value =>
          rw [ConfinedAt, outcome] at firstConfined
          have later := nextConfined value reached outcome firstConfined.1
          rw [ConfinedAt, bind_of_ok outcome]
          exact ⟨transitive _ _ _ firstConfined.1 later.1, later.2⟩

theorem confinedAt_step
    (transitive : ∀ first middle last,
      related first middle → related middle last → related first last)
    {first : FaultM Fault State Result}
    {next : Result → FaultM Fault State Next} {value : Result}
    {reached : State} (returned : first state = (.ok value, reached))
    (reaches : related state reached)
    (nextConfined : ConfinedAt related allowed (next value) reached) :
    ConfinedAt related allowed (first >>= next) state := by
  rw [ConfinedAt, bind_of_ok returned]
  exact ⟨transitive _ _ _ reaches nextConfined.1, nextConfined.2⟩

theorem confinedAt_getState {Later : Type u}
    {next : State → FaultM Fault State Later}
    (nextConfined : ConfinedAt related allowed (next state) state) :
    ConfinedAt related allowed (getState >>= next) state := by
  rw [ConfinedAt, bind_of_ok (getState_apply state)]
  exact nextConfined

theorem confinedAt_ite {condition : Prop} [Decidable condition]
    {yes no : FaultM Fault State Result}
    (yesConfined : ConfinedAt related allowed yes state)
    (noConfined : ConfinedAt related allowed no state) :
    ConfinedAt related allowed (if condition then yes else no) state := by
  split
  · exact yesConfined
  · exact noConfined

end Confinement

/-! ## Absence of faults -/

/-- Every run returns. -/
def Total (computation : FaultM Fault State Result) : Prop :=
  ∀ state, ∃ value reached, computation state = (.ok value, reached)

theorem total_pure (value : Result) :
    Total (pure value : FaultM Fault State Result) :=
  fun state => ⟨value, state, rfl⟩

theorem total_getState : Total (getState : FaultM Fault State State) :=
  fun state => ⟨state, state, rfl⟩

theorem total_modifyState (update : State → State) :
    Total (modifyState update : FaultM Fault State PUnit) :=
  fun state => ⟨⟨⟩, update state, rfl⟩

theorem total_bind
    {first : FaultM Fault State Result}
    {next : Result → FaultM Fault State Next}
    (firstTotal : Total first) (nextTotal : ∀ value, Total (next value)) :
    Total (first >>= next) := by
  intro state
  obtain ⟨value, middle, outcome⟩ := firstTotal state
  rw [bind_of_ok outcome]
  exact nextTotal value middle

theorem total_ite {test : Prop} [Decidable test]
    {yes no : FaultM Fault State Result}
    (yesTotal : Total yes) (noTotal : Total no) :
    Total (if test then yes else no) := by
  split
  · exact yesTotal
  · exact noTotal

/-! ## Computations on a part of the state -/

/-- Run a computation that has no faults on a part of the state. -/
def within {Part : Type u} (part : State → Part)
    (put : Part → State → State) (computation : FaultM PEmpty Part Result) :
    FaultM Fault State Result :=
  fun state =>
    match computation (part state) with
    | (.ok value, reached) => (.ok value, put reached state)
    | (.error impossible, _) => nomatch impossible

section Within

variable {Part : Type u} {part : State → Part} {put : Part → State → State}
variable {computation : FaultM PEmpty Part Result}

theorem within_of_ok {state : State} {reached : Part} {value : Result}
    (returned : computation (part state) = (.ok value, reached)) :
    (within part put computation : FaultM Fault State Result) state =
      (.ok value, put reached state) := by
  rw [within, returned]

theorem within_apply (part : State → Part) (put : Part → State → State)
    (computation : FaultM PEmpty Part Result) (state : State) :
    ∃ value,
      computation (part state) = (.ok value, (computation (part state)).2) ∧
        (within part put computation : FaultM Fault State Result) state =
          (.ok value, put (computation (part state)).2 state) := by
  cases outcome : computation (part state) with
  | mk result reached =>
      cases result with
      | error impossible => exact nomatch impossible
      | ok value => exact ⟨value, rfl, within_of_ok outcome⟩

theorem total_within (part : State → Part) (put : Part → State → State)
    (computation : FaultM PEmpty Part Result) :
    Total (within part put computation : FaultM Fault State Result) := by
  intro state
  obtain ⟨value, -, returned⟩ :
      ∃ value,
        computation (part state) = (.ok value, (computation (part state)).2) ∧
          (within part put computation : FaultM Fault State Result) state =
            (.ok value, put (computation (part state)).2 state) :=
    within_apply part put computation state
  exact ⟨value, _, returned⟩

theorem respects_within
    (relatedParts : Part → Part → Prop) {related : State → State → Prop}
    (lifts : ∀ state reached,
      relatedParts (part state) reached → related state (put reached state))
    (respects : Respects relatedParts computation) :
    Respects related
      (within part put computation : FaultM Fault State Result) := by
  intro state
  obtain ⟨value, -, returned⟩ :
      ∃ value,
        computation (part state) = (.ok value, (computation (part state)).2) ∧
          (within part put computation : FaultM Fault State Result) state =
            (.ok value, put (computation (part state)).2 state) :=
    within_apply part put computation state
  rw [returned]
  exact lifts state _ (respects (part state))

/-- A computation on a part of the state does not stop with a fault. -/
theorem confinedAt_within {related : State → State → Prop}
    {allowed : Fault → Prop} (part : State → Part)
    (put : Part → State → State) (computation : FaultM PEmpty Part Result)
    {state : State} (updates : ∀ reached, related state (put reached state)) :
    ConfinedAt related allowed
      (within part put computation : FaultM Fault State Result) state := by
  obtain ⟨value, -, returned⟩ :
      ∃ value,
        computation (part state) = (.ok value, (computation (part state)).2) ∧
          (within part put computation : FaultM Fault State Result) state =
            (.ok value, put (computation (part state)).2 state) :=
    within_apply part put computation state
  exact confinedAt_of_ok returned (updates _)

end Within

end FaultM

end MouseHero
