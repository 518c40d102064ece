import MouseHero.Library.FaultState

/-!
# Computations that keep a record

A computation keeps a record next to the state of another one.  It mirrors the
other one when it reaches the same states and stops with the same faults.
-/

namespace MouseHero

universe u v

namespace FaultM

variable {Fault State Extra : Type u} {Result Other Next Last : Type v}

/-- Run a computation that knows nothing of the record. -/
def unrecorded (computation : FaultM Fault State Result) :
    FaultM Fault (State × Extra) Result :=
  fun pair =>
    match computation pair.1 with
    | (outcome, reached) => (outcome, (reached, pair.2))

/-- Work on the record only. -/
def onRecord (computation : FaultM Fault Extra Result) :
    FaultM Fault (State × Extra) Result :=
  fun pair =>
    match computation pair.2 with
    | (outcome, reached) => (outcome, (pair.1, reached))

/-- From a state and a record, the first computation does what the second one
does; what they return and the record are related. -/
def MirrorsAt (recording : FaultM Fault (State × Extra) Result)
    (plain : FaultM Fault State Other) (state : State) (extra : Extra)
    (post : Result → Other → Extra → Prop) : Prop :=
  match plain state with
  | (.error reason, reached) =>
      ∃ last, recording (state, extra) = (.error reason, (reached, last))
  | (.ok value, reached) =>
      ∃ result last,
        recording (state, extra) = (.ok result, (reached, last)) ∧
          post result value last

theorem bind_pure_unit (computation : FaultM Fault State PUnit) :
    (computation >>= fun _ => pure ⟨⟩) = computation := by
  funext state
  rw [bind_apply]
  cases computation state with
  | mk outcome reached =>
      cases outcome with
      | error reason => rfl
      | ok value => rfl

section Rules

variable {recording : FaultM Fault (State × Extra) Result}
variable {plain : FaultM Fault State Other}
variable {state reached : State} {extra : Extra}
variable {post : Result → Other → Extra → Prop}

theorem MirrorsAt.returned {result : Result} {last : Extra}
    (mirrors : MirrorsAt recording plain state extra post)
    (recorded : recording (state, extra) = (.ok result, (reached, last))) :
    ∃ value, plain state = (.ok value, reached) ∧ post result value last := by
  unfold MirrorsAt at mirrors
  split at mirrors
  · obtain ⟨final, stopped⟩ := mirrors
    rw [stopped] at recorded
    cases recorded
  · rename_i value final isPlain
    obtain ⟨outcome, final, isRecording, holds⟩ := mirrors
    rw [isRecording] at recorded
    cases recorded
    exact ⟨value, isPlain, holds⟩

theorem MirrorsAt.weaken {weaker : Result → Other → Extra → Prop}
    (mirrors : MirrorsAt recording plain state extra post)
    (implies : ∀ result value last, post result value last →
      weaker result value last) :
    MirrorsAt recording plain state extra weaker := by
  unfold MirrorsAt at mirrors ⊢
  split at mirrors
  · exact mirrors
  · obtain ⟨result, last, isRecording, holds⟩ := mirrors
    exact ⟨result, last, isRecording, implies result _ last holds⟩

theorem mirrorsAt_pure {result : Result} {value : Other}
    (holds : post result value extra) :
    MirrorsAt (pure result : FaultM Fault (State × Extra) Result)
      (pure value : FaultM Fault State Other) state extra post :=
  ⟨result, extra, rfl, holds⟩

theorem mirrorsAt_fault (reason : Fault) :
    MirrorsAt (fault reason : FaultM Fault (State × Extra) Result)
      (fault reason : FaultM Fault State Other) state extra post :=
  ⟨extra, rfl⟩

theorem mirrorsAt_bind {next : Result → FaultM Fault (State × Extra) Next}
    {otherNext : Other → FaultM Fault State Last}
    {last : Next → Last → Extra → Prop}
    (begins : MirrorsAt recording plain state extra post)
    (goesOn : ∀ result value reached middle,
      plain state = (.ok value, reached) → post result value middle →
        MirrorsAt (next result) (otherNext value) reached middle last) :
    MirrorsAt (recording >>= next) (plain >>= otherNext) state extra last := by
  unfold MirrorsAt at begins
  cases isPlain : plain state with
  | mk outcome reached =>
      cases outcome with
      | error reason =>
          rw [isPlain] at begins
          obtain ⟨middle, stopped⟩ := begins
          rw [MirrorsAt, bind_of_fault isPlain]
          exact ⟨middle, bind_of_fault stopped⟩
      | ok value =>
          rw [isPlain] at begins
          obtain ⟨result, middle, isRecording, holds⟩ := begins
          rw [MirrorsAt, bind_of_ok isPlain, bind_of_ok isRecording]
          exact goesOn result value reached middle isPlain holds

theorem mirrorsAt_finish {next : Result → FaultM Fault (State × Extra) Next}
    {last : Next → Other → Extra → Prop}
    (begins : MirrorsAt recording plain state extra post)
    (finishes : ∀ result value reached middle, post result value middle →
      MirrorsAt (next result) (pure value : FaultM Fault State Other) reached middle
        last) :
    MirrorsAt (recording >>= next) plain state extra last := by
  unfold MirrorsAt at begins ⊢
  cases isPlain : plain state with
  | mk outcome reached =>
      rw [isPlain] at begins
      cases outcome with
      | error reason =>
          obtain ⟨middle, stopped⟩ := begins
          exact ⟨middle, bind_of_fault stopped⟩
      | ok value =>
          obtain ⟨result, middle, isRecording, holds⟩ := begins
          simp only [bind_of_ok isRecording]
          exact finishes result value reached middle holds

theorem MirrorsAt.and {other : Result → Other → Extra → Prop}
    (mirrors : MirrorsAt recording plain state extra post)
    (also : MirrorsAt recording plain state extra other) :
    MirrorsAt recording plain state extra fun result value last =>
      post result value last ∧ other result value last := by
  unfold MirrorsAt at mirrors also ⊢
  split at mirrors
  · exact mirrors
  · rename_i isPlain
    obtain ⟨result, last, isRecording, holds⟩ := mirrors
    rw [isPlain] at also
    obtain ⟨sameResult, sameLast, isAlso, holdsAlso⟩ := also
    rw [isRecording] at isAlso
    cases isAlso
    exact ⟨result, last, isRecording, holds, holdsAlso⟩

theorem mirrorsAt_onRecord {work : FaultM Fault Extra Result} {middle : Extra}
    {result : Result} {next : Result → FaultM Fault (State × Extra) Next}
    {last : Next → Other → Extra → Prop}
    (works : work extra = (.ok result, middle))
    (goesOn : MirrorsAt (next result) plain state middle last) :
    MirrorsAt (onRecord work >>= next) plain state extra last := by
  have worked : (onRecord work : FaultM Fault (State × Extra) Result)
      (state, extra) = (.ok result, (state, middle)) := by
    rw [onRecord, works]
  rw [MirrorsAt, bind_of_ok worked]
  exact goesOn

theorem mirrorsAt_onRecord_last {work : FaultM Fault Extra Result}
    {middle : Extra} {result : Result} {value : Other}
    (works : work extra = (.ok result, middle)) (holds : post result value middle) :
    MirrorsAt (onRecord work : FaultM Fault (State × Extra) Result)
      (pure value : FaultM Fault State Other) state extra post := by
  have worked : (onRecord work : FaultM Fault (State × Extra) Result)
      (state, extra) = (.ok result, (state, middle)) := by
    rw [onRecord, works]
  exact ⟨result, middle, worked, holds⟩

theorem mirrorsAt_onRecord_fault {work : FaultM Fault Extra Result}
    {middle : Extra} {reason : Fault}
    {next : Result → FaultM Fault (State × Extra) Next}
    {last : Next → Other → Extra → Prop}
    (stops : work extra = (.error reason, middle)) :
    MirrorsAt (onRecord work >>= next) (fault reason : FaultM Fault State Other)
      state extra last := by
  have stopped : (onRecord work : FaultM Fault (State × Extra) Result)
      (state, extra) = (.error reason, (state, middle)) := by
    rw [onRecord, stops]
  exact ⟨middle, bind_of_fault stopped⟩

theorem mirrorsAt_unrecorded (computation : FaultM Fault State Result) :
    MirrorsAt (unrecorded computation) computation state extra
      fun result value last => result = value ∧ last = extra := by
  unfold MirrorsAt unrecorded
  cases computation state with
  | mk outcome reached =>
      cases outcome with
      | error reason => exact ⟨extra, rfl⟩
      | ok value => exact ⟨value, extra, rfl, rfl, rfl⟩

theorem mirrorsAt_unrecorded_bind {computation : FaultM Fault State Result}
    {next : Result → FaultM Fault (State × Extra) Next}
    {otherNext : Result → FaultM Fault State Last}
    {last : Next → Last → Extra → Prop}
    (goesOn : ∀ value reached, computation state = (.ok value, reached) →
      MirrorsAt (next value) (otherNext value) reached extra last) :
    MirrorsAt (unrecorded computation >>= next) (computation >>= otherNext)
      state extra last := by
  refine mirrorsAt_bind (mirrorsAt_unrecorded computation) ?_
  rintro result value reached middle returned ⟨rfl, rfl⟩
  exact goesOn result reached returned

theorem mirrorsAt_ite {condition : Prop} [Decidable condition]
    {otherRecording : FaultM Fault (State × Extra) Result}
    {otherPlain : FaultM Fault State Other}
    (isTrue : condition → MirrorsAt recording plain state extra post)
    (isFalse : ¬ condition →
      MirrorsAt otherRecording otherPlain state extra post) :
    MirrorsAt (if condition then recording else otherRecording)
      (if condition then plain else otherPlain) state extra post := by
  split
  · exact isTrue ‹_›
  · exact isFalse ‹_›

end Rules

end FaultM

end MouseHero
