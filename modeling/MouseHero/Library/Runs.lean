import Mathlib.Data.Option.Basic

/-!
# Runs of a step function

A step function says what an event does to a state, if the event can happen
there.  A run is a list of events that happen one after another, each of them
allowed in its state.
-/

namespace MouseHero

universe u v

variable {State : Type u} {Event : Type v}

/-- A run from one state to another one. -/
inductive Run (step : State → Event → Option State)
    (allowed : State → Event → Prop) : State → List Event → State → Prop
  | nil (state : State) : Run step allowed state [] state
  | cons {first middle last : State} {event : Event} {events : List Event} :
      allowed first event →
      step first event = some middle →
      Run step allowed middle events last →
      Run step allowed first (event :: events) last

namespace Run

variable {step : State → Event → Option State}
variable {allowed : State → Event → Prop}
variable {first middle last : State} {events later : List Event}

theorem preserves (holds : State → Prop)
    (preserved : ∀ {before after : State} {event : Event},
      allowed before event → step before event = some after →
      holds before → holds after)
    (run : Run step allowed first events last) (begins : holds first) :
    holds last := by
  induction run with
  | nil state => exact begins
  | cons isAllowed steps _ inductionHypothesis =>
      exact inductionHypothesis (preserved isAllowed steps begins)

/-- In a run that keeps to an invariant, every event happens in a state of the
invariant. -/
theorem forall_event (holds : State → Prop) (harmless : Event → Prop)
    (preserved : ∀ {before after : State} {event : Event},
      allowed before event → step before event = some after →
      holds before → harmless event ∧ holds after)
    (run : Run step allowed first events last) (begins : holds first) :
    ∀ event ∈ events, harmless event := by
  induction run with
  | nil state => exact fun event member => absurd member List.not_mem_nil
  | cons isAllowed steps _ inductionHypothesis =>
      obtain ⟨isHarmless, goesOn⟩ := preserved isAllowed steps begins
      exact List.forall_mem_cons.mpr ⟨isHarmless, inductionHypothesis goesOn⟩

theorem append (run : Run step allowed first events middle)
    (next : Run step allowed middle later last) :
    Run step allowed first (events ++ later) last := by
  induction run with
  | nil state => exact next
  | cons isAllowed steps _ inductionHypothesis =>
      exact .cons isAllowed steps (inductionHypothesis next)

theorem single {event : Event} (isAllowed : allowed first event)
    (steps : step first event = some last) :
    Run step allowed first [event] last :=
  .cons isAllowed steps (.nil last)

end Run

/-! ## Computing runs -/

section Computing

variable (step : State → Event → Option State)
variable (allowed : State → Event → Prop)
variable [∀ state event, Decidable (allowed state event)]

/-- The state behind a list of events, if they are a run. -/
def runEvents (state : State) : List Event → Option State
  | [] => some state
  | event :: events =>
      if allowed state event then
        (step state event).bind fun next => runEvents next events
      else none

theorem run_of_runEvents {first last : State} {events : List Event}
    (computed : runEvents step allowed first events = some last) :
    Run step allowed first events last := by
  induction events generalizing first with
  | nil =>
      cases computed
      exact .nil _
  | cons event events inductionHypothesis =>
      rw [runEvents] at computed
      split at computed
      · rename_i isAllowed
        obtain ⟨middle, steps, rest⟩ := Option.bind_eq_some_iff.mp computed
        exact .cons isAllowed steps (inductionHypothesis rest)
      · cases computed

end Computing

end MouseHero
