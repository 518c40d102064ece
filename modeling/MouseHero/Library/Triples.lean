import MouseHero.Library.FaultState

/-!
# Triples

A computation that begins where the precondition holds and returns a value
reaches a state in which the postcondition holds of the value.  Nothing is said
of a computation that stops with a fault.
-/

namespace MouseHero

universe u v

namespace FaultM

variable {Fault State : Type u} {Result Next : Type v}

/-- From the precondition, every value is returned with the postcondition. -/
def Triple (pre : State → Prop) (computation : FaultM Fault State Result)
    (post : Result → State → Prop) : Prop :=
  ∀ (state reached : State) (value : Result),
    pre state → computation state = (.ok value, reached) → post value reached

section Triples

variable {pre : State → Prop} {post : Result → State → Prop}

theorem triple_pure {value : Result} (holds : ∀ state, pre state → post value state) :
    Triple pre (pure value : FaultM Fault State Result) post := by
  intro state reached returned before isReturned
  rw [pure_apply] at isReturned
  cases isReturned
  exact holds state before

/-- Sequencing: the postcondition of the first computation is the precondition
of the rest. -/
theorem triple_bind {between : Result → State → Prop}
    {last : Next → State → Prop}
    {first : FaultM Fault State Result}
    {next : Result → FaultM Fault State Next}
    (begins : Triple pre first between)
    (goesOn : ∀ value, Triple (between value) (next value) last) :
    Triple pre (first >>= next) last := by
  intro state reached returned before isReturned
  rw [bind_apply] at isReturned
  cases outcome : first state with
  | mk result middle =>
      rw [outcome] at isReturned
      cases result with
      | error reason => cases isReturned
      | ok value => exact goesOn value _ _ _ (begins _ _ _ before outcome) isReturned

/-- The state that is read is the one the precondition holds of. -/
theorem triple_getState {Later : Type u} {last : Later → State → Prop}
    {next : State → FaultM Fault State Later}
    (goesOn : ∀ state, Triple (fun current => current = state ∧ pre current)
      (next state) last) :
    Triple pre (getState >>= next) last := by
  intro state reached returned before isReturned
  exact goesOn state _ _ _ ⟨rfl, before⟩ isReturned

theorem triple_ite {condition : Prop} [Decidable condition]
    {first second : FaultM Fault State Result}
    (isTrue : condition → Triple pre first post)
    (isFalse : ¬ condition → Triple pre second post) :
    Triple pre (if condition then first else second) post := by
  split
  · exact isTrue ‹_›
  · exact isFalse ‹_›

/-- A fact of the precondition that does not concern the state. -/
theorem triple_assume {fact : Prop} {computation : FaultM Fault State Result}
    (goesOn : fact → Triple pre computation post) :
    Triple (fun state => fact ∧ pre state) computation post :=
  fun state reached value holds returned =>
    goesOn holds.1 state reached value holds.2 returned

theorem Triple.weaken {stronger : State → Prop} {weaker : Result → State → Prop}
    {computation : FaultM Fault State Result}
    (triple : Triple pre computation post)
    (before : ∀ state, stronger state → pre state)
    (after : ∀ value state, post value state → weaker value state) :
    Triple stronger computation weaker := by
  intro state reached value holds returned
  exact after value reached (triple _ _ _ (before state holds) returned)

end Triples

end FaultM

end MouseHero
