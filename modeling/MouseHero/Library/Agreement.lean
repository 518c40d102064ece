import MouseHero.Library.FaultState

/-!
# Computations that agree

Two computations agree over a relation of their states: started in related
states they return the same, or stop with the same fault, and reach related
states.
-/

namespace MouseHero

universe u v

namespace FaultM

variable {Fault State Other : Type u} {Result Next : Type v}

/-- From these states the two computations return the same and reach related
states. -/
structure AgreeAt (related : State → Other → Prop) (first : FaultM Fault State Result)
    (second : FaultM Fault Other Result) (state : State) (other : Other) : Prop where
  outcome : (first state).1 = (second other).1
  reached : related (first state).2 (second other).2

def Agree (related : State → Other → Prop) (first : FaultM Fault State Result)
    (second : FaultM Fault Other Result) : Prop :=
  ∀ state other, related state other → AgreeAt related first second state other

section Rules

variable {related : State → Other → Prop}
variable {first : FaultM Fault State Result} {second : FaultM Fault Other Result}
variable {state : State} {other : Other}

theorem agreeAt_pure (value : Result) (holds : related state other) :
    AgreeAt related (pure value : FaultM Fault State Result)
      (pure value : FaultM Fault Other Result) state other :=
  ⟨rfl, holds⟩

theorem agree_pure (value : Result) :
    Agree related (pure value : FaultM Fault State Result)
      (pure value : FaultM Fault Other Result) :=
  fun _ _ => agreeAt_pure value

theorem agreeAt_fault (reason : Fault) (holds : related state other) :
    AgreeAt related (fault reason : FaultM Fault State Result)
      (fault reason : FaultM Fault Other Result) state other :=
  ⟨rfl, holds⟩

theorem agree_fault (reason : Fault) :
    Agree related (fault reason : FaultM Fault State Result)
      (fault reason : FaultM Fault Other Result) :=
  fun _ _ => agreeAt_fault reason

theorem agree_modifyState {update : State → State} {otherUpdate : Other → Other}
    (updates : ∀ state other, related state other →
      related (update state) (otherUpdate other)) :
    Agree related (modifyState update : FaultM Fault State PUnit)
      (modifyState otherUpdate : FaultM Fault Other PUnit) :=
  fun state other holds => ⟨rfl, updates state other holds⟩

/-- What follows may start in states of which more is known. -/
theorem agreeAt_bind {next : Result → FaultM Fault State Next}
    {otherNext : Result → FaultM Fault Other Next}
    (begins : AgreeAt related first second state other)
    (goesOn : ∀ value reached otherReached, first state = (.ok value, reached) →
      second other = (.ok value, otherReached) → related reached otherReached →
        AgreeAt related (next value) (otherNext value) reached otherReached) :
    AgreeAt related (first >>= next) (second >>= otherNext) state other := by
  obtain ⟨outcome, reached⟩ := begins
  cases isFirst : first state with
  | mk result last =>
      cases isSecond : second other with
      | mk otherResult otherLast =>
          rw [isFirst, isSecond] at outcome reached
          cases outcome
          cases result with
          | error reason =>
              constructor <;> rw [bind_of_fault isFirst, bind_of_fault isSecond]
              exact reached
          | ok value =>
              constructor <;> rw [bind_of_ok isFirst, bind_of_ok isSecond]
              · exact (goesOn value last otherLast isFirst isSecond reached).outcome
              · exact (goesOn value last otherLast isFirst isSecond reached).reached

theorem agree_bind {next : Result → FaultM Fault State Next}
    {otherNext : Result → FaultM Fault Other Next} (begins : Agree related first second)
    (goesOn : ∀ value, Agree related (next value) (otherNext value)) :
    Agree related (first >>= next) (second >>= otherNext) :=
  fun state other holds =>
    agreeAt_bind (begins state other holds) fun value reached otherReached _ _ =>
      goesOn value reached otherReached

/-- Both computations look at their states. -/
theorem agree_getState {Later : Type u} {next : State → FaultM Fault State Later}
    {otherNext : Other → FaultM Fault Other Later}
    (goesOn : ∀ state other, related state other →
      AgreeAt related (next state) (otherNext other) state other) :
    Agree related (getState >>= next) (getState >>= otherNext) :=
  fun state other holds =>
    ⟨(goesOn state other holds).outcome, (goesOn state other holds).reached⟩

theorem agree_ite {condition : Prop} [Decidable condition]
    {otherFirst : FaultM Fault State Result} {otherSecond : FaultM Fault Other Result}
    (isTrue : Agree related first second) (isFalse : Agree related otherFirst otherSecond) :
    Agree related (if condition then first else otherFirst)
      (if condition then second else otherSecond) := by
  split
  · exact isTrue
  · exact isFalse

/-- A computation on a part that related states have in common. -/
theorem agree_within {Part : Type u} {part : State → Part} {otherPart : Other → Part}
    {put : Part → State → State} {otherPut : Part → Other → Other}
    (computation : FaultM PEmpty Part Result)
    (same : ∀ state other, related state other → part state = otherPart other)
    (puts : ∀ reached state other, related state other →
      related (put reached state) (otherPut reached other)) :
    Agree related (within part put computation : FaultM Fault State Result)
      (within otherPart otherPut computation : FaultM Fault Other Result) := by
  intro state other holds
  have shared := same state other holds
  cases outcome : computation (part state) with
  | mk result reached =>
      cases result with
      | error impossible => exact nomatch impossible
      | ok value =>
          have otherOutcome : computation (otherPart other) = (.ok value, reached) := by
            rw [← shared, outcome]
          constructor <;> rw [within_of_ok outcome, within_of_ok otherOutcome]
          exact puts reached state other holds

end Rules

end FaultM

end MouseHero
