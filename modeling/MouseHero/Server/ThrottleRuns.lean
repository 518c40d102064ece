import MouseHero.Server.Throttling
import Mathlib.Tactic.Linarith

/-!
# Runs of the throttle

Any sequence of calls of `ya_mouse_throttle_collect` and
`ya_mouse_throttle_flush`, at any readings of the clock.
-/

namespace MouseHero

open CFloat

variable {F : Type} [CFloat F]

/-! ## Runs -/

/-- A call, and what the clock reads in it. -/
inductive ThrottleCall where
  | collect (displacement : Int × Int) (forceFlush : Bool) (now : Timespec)
  | flush (now : Timespec)

namespace ThrottleCall

def now : ThrottleCall → Timespec
  | collect _ _ now => now
  | flush now => now

/-- What the call adds to the accumulators. -/
def collected : ThrottleCall → Int × Int
  | collect displacement _ _ => displacement
  | flush _ => 0

/-- The state after the call, and what it emits. -/
def perform (F : Type) [CFloat F] (state : YAMouseThrottleState) :
    ThrottleCall → YAMouseThrottleState × Option (Int × Int)
  | collect displacement forceFlush now =>
      yaMouseThrottleCollect F state displacement.1 displacement.2 forceFlush now
  | flush now => yaMouseThrottleFlush state now

/-- What a call can do: it only accumulates, or notes the time with nothing to
emit, or emits all that has accumulated. -/
theorem perform_cases (state : YAMouseThrottleState) (call : ThrottleCall) :
    call.perform F state = (state.adding call.collected, none) ∨
      ((state.adding call.collected).accumulated = 0 ∧
        call.perform F state =
          ({ state.adding call.collected with
              lastEmit := call.now, hasLastEmit := true }, none)) ∨
      call.perform F state =
        (.emptiedAt call.now, some (state.accumulated + call.collected)) := by
  cases call with
  | collect displacement forceFlush now =>
      rcases yaMouseThrottleCollect_cases (F := F) state now displacement
          forceFlush with
        ⟨-, performed⟩ | ⟨-, empty, performed⟩ | ⟨-, -, performed⟩
      · exact Or.inl performed
      · exact Or.inr (Or.inl ⟨empty, performed⟩)
      · exact Or.inr (Or.inr performed)
  | flush now =>
      have unchanged : state.adding 0 = state := by
        simp [YAMouseThrottleState.adding]
      rcases yaMouseThrottleFlush_cases state now with
        ⟨-, performed⟩ | ⟨-, performed⟩
      · left
        rw [collected, unchanged]
        exact performed
      · right
        right
        rw [collected, add_zero]
        exact performed

/-- What a call emits and what it leaves is what there was and what it adds. -/
theorem perform_conserves (state : YAMouseThrottleState) (call : ThrottleCall) :
    (call.perform F state).2.getD 0 + (call.perform F state).1.accumulated =
      state.accumulated + call.collected := by
  rcases @perform_cases F _ state call with performed | ⟨-, performed⟩ | performed
  · rw [performed]
    exact zero_add _
  · rw [performed]
    exact zero_add _
  · rw [performed]
    exact add_zero _

end ThrottleCall

/-- The state after the calls, of which the latest is the first. -/
def throttleAfter (F : Type) [CFloat F] (start : YAMouseThrottleState) :
    List ThrottleCall → YAMouseThrottleState
  | [] => start
  | call :: earlier => (call.perform F (throttleAfter F start earlier)).1

/-- The sum of what the calls emit. -/
def totalEmitted (F : Type) [CFloat F] (start : YAMouseThrottleState) :
    List ThrottleCall → Int × Int
  | [] => 0
  | call :: earlier =>
      totalEmitted F start earlier +
        (call.perform F (throttleAfter F start earlier)).2.getD 0

/-- The sum of what they collect. -/
def totalCollected (calls : List ThrottleCall) : Int × Int :=
  (calls.map ThrottleCall.collected).sum

private theorem totalEmitted_add_accumulated (start : YAMouseThrottleState)
    (calls : List ThrottleCall) :
    totalEmitted F start calls + (throttleAfter F start calls).accumulated =
      start.accumulated + totalCollected calls := by
  induction calls with
  | nil => exact (zero_add _).trans (add_zero _).symm
  | cons call earlier inductionHypothesis =>
      have conserves :=
        call.perform_conserves (F := F) (throttleAfter F start earlier)
      rw [totalEmitted, throttleAfter, add_assoc, conserves, ← add_assoc,
        inductionHypothesis, totalCollected, totalCollected, List.map_cons,
        List.sum_cons, add_assoc, add_comm call.collected]

/-! ## The motion of one client -/

/-- The events are those of one client with a protocol before version 3, and
the throttle is empty at first. -/
structure OneClientRun (start : World F) (uid : UInt32)
    (history : List (MotionEvent F)) : Prop where
  empty : start.throttle.accumulated = 0
  serves : start.ServesLegacy uid
  sent : ∀ event ∈ history, event.uid = uid

/-- What has been handed to the filter since the latest stop. -/
def handedSinceStop (start : World F) : List (MotionEvent F) → Int × Int
  | [] => 0
  | event :: earlier =>
      match event.motion with
      | .move _ =>
          handedSinceStop start earlier +
            (event.output (start.afterMotion earlier)).getD 0
      | .stop => 0

/-- The displacements since the latest stop, rounded to whole pixels. -/
def movedSinceStop : List (MotionEvent F) → Int × Int
  | [] => 0
  | event :: earlier =>
      match event.motion with
      | .move _ => movedSinceStop earlier + event.displacement
      | .stop => 0

/-- What an event hands over and what it leaves is what there was and what it
adds. -/
theorem MotionEvent.handle_conserves {event : MotionEvent F} {world : World F}
    (serves : world.ServesLegacy event.uid) :
    (event.output world).getD 0 + (event.handle world).throttle.accumulated =
      world.throttle.accumulated + event.displacement := by
  by_cases empties : event.empties world = true
  · rw [MotionEvent.output_of_empties empties,
      MotionEvent.accumulated_of_empties serves empties, add_zero]
  · obtain ⟨accumulates, silent⟩ :=
      MotionEvent.accumulates_of_not_empties serves empties
    rw [accumulates, silent]
    exact zero_add _

section OneClient

variable {start : World F} {uid : UInt32} {event : MotionEvent F}
variable {history : List (MotionEvent F)}

omit [CFloat F] in
theorem OneClientRun.earlier (run : OneClientRun start uid (event :: history)) :
    OneClientRun start uid history :=
  ⟨run.empty, run.serves, (List.forall_mem_cons.mp run.sent).2⟩

theorem OneClientRun.servesLatest
    (run : OneClientRun start uid (event :: history)) :
    (start.afterMotion history).ServesLegacy event.uid := by
  rw [run.sent event List.mem_cons_self]
  exact run.serves.afterMotion history

/-- Since the latest stop, what has not been handed over is in the throttle. -/
theorem OneClientRun.handed_add_accumulated
    (run : OneClientRun start uid history) :
    handedSinceStop start history +
        (start.afterMotion history).throttle.accumulated =
      movedSinceStop history := by
  induction history with
  | nil => exact (zero_add _).trans run.empty
  | cons event earlier inductionHypothesis =>
      have before := inductionHypothesis run.earlier
      have conserves := MotionEvent.handle_conserves run.servesLatest
      cases motion : event.motion with
      | move request =>
          simp only [handedSinceStop, movedSinceStop, motion]
          rw [← before, add_assoc, World.afterMotion, conserves, add_assoc]
      | stop =>
          have empties : event.empties (start.afterMotion earlier) = true := by
            simp only [MotionEvent.empties, motion]
          simp only [handedSinceStop, movedSinceStop, motion]
          rw [zero_add]
          exact MotionEvent.accumulated_of_empties run.servesLatest empties

end OneClient

/-- The throttle loses nothing and invents nothing: over any calls, and for one
client from each stop to the next. -/
theorem throttle_conserves (F : Type) [CFloat F] :
    (∀ (start : YAMouseThrottleState) (calls : List ThrottleCall),
      start.accumulated = 0 →
        totalEmitted F start calls +
            (throttleAfter F start calls).accumulated =
          totalCollected calls) ∧
      ∀ (start : World F) (uid : UInt32) (stop : MotionEvent F)
          (earlier : List (MotionEvent F)),
        OneClientRun start uid (stop :: earlier) →
          stop.motion = .stop →
            handedSinceStop start earlier +
                (stop.output (start.afterMotion earlier)).getD 0 =
              movedSinceStop earlier := by
  refine ⟨?_, ?_⟩
  · intro start calls empty
    rw [totalEmitted_add_accumulated, empty, zero_add]
  · intro start uid stop earlier run stops
    have flushed : (stop.output (start.afterMotion earlier)).getD 0 =
        (start.afterMotion earlier).throttle.accumulated := by
      simp only [MotionEvent.output, stops]
      exact yaMouseThrottleFlush_output _ _
    rw [flushed]
    exact run.earlier.handed_add_accumulated

/-- Two moves of a client, of which the second one has to wait for the stop. -/
theorem throttle_conserves_stop :
    handedSinceStop World.legacyPair
          [legacyMove 2 100 { sec := 0, nsec := 1000000 },
            legacyMove 2 100 { sec := 0, nsec := 0 }] +
        ((legacyStop 2 { sec := 0, nsec := 2000000 }).output
          (World.legacyPair.afterMotion
            [legacyMove 2 100 { sec := 0, nsec := 1000000 },
              legacyMove 2 100 { sec := 0, nsec := 0 }])).getD 0 =
      movedSinceStop (F := Rat)
        [legacyMove 2 100 { sec := 0, nsec := 1000000 },
          legacyMove 2 100 { sec := 0, nsec := 0 }] := by
  obtain ⟨client, found, version⟩ := legacyPair_version 2 (Or.inr rfl)
  have serves : World.legacyPair.ServesLegacy 2 := by
    refine ⟨client, found, ?_⟩
    rw [version]
    decide
  exact (throttle_conserves Rat).2 World.legacyPair 2 _ _
    ⟨rfl, serves, by decide⟩ rfl

/-! ## The clock -/

/-- A reading of the clock as one number. -/
def Timespec.nanoseconds (time : Timespec) : Int :=
  time.sec * 1000000000 + time.nsec

theorem timespecDiffMs_exact (later earlier : Timespec) :
    timespecDiffMs Rat later earlier =
      ((later.nanoseconds - earlier.nanoseconds : Int) : Rat) / 1000000 := by
  change ((later.sec - earlier.sec : Int) : Rat) * 1000 +
    ((later.nsec - earlier.nsec : Int) : Rat) / 1000000 = _
  simp only [Timespec.nanoseconds]
  push_cast
  ring

theorem timespecDiffMs_le (now : Timespec) {earlier later : Timespec}
    (ordered : earlier.nanoseconds ≤ later.nanoseconds) :
    timespecDiffMs Rat now later ≤ timespecDiffMs Rat now earlier := by
  rw [timespecDiffMs_exact, timespecDiffMs_exact]
  have difference : ((now.nanoseconds - later.nanoseconds : Int) : Rat) ≤
      (now.nanoseconds - earlier.nanoseconds : Int) := by
    exact_mod_cast Int.sub_le_sub_left ordered _
  linarith

theorem elapsed_of_due {state : YAMouseThrottleState} {now : Timespec}
    (known : state.hasLastEmit = true) :
    state.due Rat now = true ↔
      (if manhattan state.accumulated < 3 then 4 else 8) ≤
        timespecDiffMs Rat now state.lastEmit := by
  rw [← getAccumulatedDistance_eq, YAMouseThrottleState.due, known]
  exact decide_eq_true_iff

end MouseHero
