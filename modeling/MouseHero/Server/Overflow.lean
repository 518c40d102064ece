import MouseHero.Server.Subpixels
import MouseHero.Server.ThrottleRuns

/-!
# The range of the accumulators

The accumulators are of type `int`, and only an emission empties them.  How
much fits depends on what arrives in between.
-/

namespace MouseHero

open FaultM CFloat

variable {F : Type} [CFloat F]

/-! ## The accumulators -/

/-- No operation on the accumulators overflows: they are in the range of `int`,
their negations are, and the distance is. -/
structure ThrottleInRange (state : YAMouseThrottleState) : Prop where
  accumDx : -2 ^ 31 < state.accumDx ∧ state.accumDx < 2 ^ 31
  accumDy : -2 ^ 31 < state.accumDy ∧ state.accumDy < 2 ^ 31
  distance : getAccumulatedDistance state < 2 ^ 31

/-- The accumulators are in range whenever an event has been added to them. -/
def NeverOverflows (start : World F) (history : List (MotionEvent F)) : Prop :=
  ∀ event earlier, event :: earlier <:+ history →
    ThrottleInRange
      ((start.afterMotion earlier).throttle.adding event.displacement)

/-- The displacements that have arrived since the throttle was last emptied. -/
def pendingMoves (start : World F) : List (MotionEvent F) → List (Int × Int)
  | [] => []
  | event :: earlier =>
      if event.empties (start.afterMotion earlier) then []
      else event.displacement :: pendingMoves start earlier

theorem throttleInRange_iff {state : YAMouseThrottleState} :
    ThrottleInRange state ↔ manhattan state.accumulated < 2 ^ 31 := by
  rw [← getAccumulatedDistance_eq]
  constructor
  · exact ThrottleInRange.distance
  · intro distance
    have sum : getAccumulatedDistance state =
        state.accumDx.natAbs + state.accumDy.natAbs := rfl
    refine ⟨?_, ?_, distance⟩ <;> omega

section Run

variable {start : World F} {history : List (MotionEvent F)}

theorem LegacyRun.accumulated_eq_sum (run : LegacyRun start history) :
    (start.afterMotion history).throttle.accumulated =
      (pendingMoves start history).sum := by
  induction history with
  | nil => exact run.empty
  | cons event earlier inductionHypothesis =>
      have before := inductionHypothesis run.earlier
      have serves :=
        (run.serves event List.mem_cons_self).afterMotion earlier
      by_cases empties : event.empties (start.afterMotion earlier) = true
      · rw [pendingMoves, if_pos empties]
        exact MotionEvent.accumulated_of_empties serves empties
      · rw [pendingMoves, if_neg empties, List.sum_cons, add_comm, ← before]
        exact (MotionEvent.accumulates_of_not_empties serves empties).1

/-- Nothing overflows if and only if the sums of what arrives between two
emissions fit. -/
theorem LegacyRun.neverOverflows_iff (run : LegacyRun start history) :
    NeverOverflows start history ↔
      ∀ event earlier, event :: earlier <:+ history →
        manhattan ((pendingMoves start earlier).sum + event.displacement) <
          2 ^ 31 := by
  have accumulated {event : MotionEvent F} {earlier : List (MotionEvent F)}
      (reached : event :: earlier <:+ history) :
      ((start.afterMotion earlier).throttle.adding
          event.displacement).accumulated =
        (pendingMoves start earlier).sum + event.displacement := by
    have before := (run.of_suffix reached).earlier.accumulated_eq_sum
    rw [← before]
    rfl
  constructor
  · intro inRange event earlier reached
    have fits := throttleInRange_iff.mp (inRange event earlier reached)
    rwa [accumulated reached] at fits
  · intro fits event earlier reached
    have small := fits event earlier reached
    rw [← accumulated reached] at small
    exact throttleInRange_iff.mpr small

end Run

/-! ## How many moves fit -/

private theorem toInt_eq_truncate (value : Rat) : toInt value = truncate value := by
  change (if value < 0 then -⌊-value⌋ else ⌊value⌋) = truncate value
  unfold truncate
  rcases lt_trichotomy value 0 with negative | rfl | positive
  · rw [if_pos negative, if_neg negative.le.not_gt, Int.floor_neg, neg_neg]
  · simp
  · rw [if_neg positive.le.not_gt, if_pos positive]

/-- A move is at most the greatest `int` of hundredths, rounded. -/
theorem abs_roundPixels_le (hundredths : Int32) :
    |roundPixels (pixels hundredths : Rat)| ≤ 21474836 := by
  have lower : (-2 ^ 31 : Rat) ≤ hundredths.toInt := by
    exact_mod_cast hundredths.le_toInt
  have upper : (hundredths.toInt : Rat) ≤ 2 ^ 31 - 1 := by
    have bound := hundredths.toInt_lt
    have bound : hundredths.toInt ≤ 2 ^ 31 - 1 := by omega
    exact_mod_cast bound
  have value : (pixels hundredths : Rat) = hundredths.toInt / 100 := rfl
  have rounded : roundPixels (pixels hundredths : Rat) =
      truncate (if 0 ≤ (pixels hundredths : Rat) then
        pixels hundredths + 1 / 2 else pixels hundredths - 1 / 2) := by
    rw [roundPixels, toInt_eq_truncate]
    have test : le (constant 0) (pixels hundredths : Rat) =
        decide (0 ≤ (pixels hundredths : Rat)) := rfl
    rw [test]
    simp only [decide_eq_true_eq]
    rfl
  rw [rounded, value]
  generalize (hundredths.toInt : Rat) = number at *
  have near := abs_truncate_le
    (if 0 ≤ number / 100 then number / 100 + 1 / 2 else number / 100 - 1 / 2)
  have small : |(truncate (if 0 ≤ number / 100 then number / 100 + 1 / 2
      else number / 100 - 1 / 2) : Rat)| < 21474837 := by
    apply near.trans_lt
    rw [abs_lt]
    split <;> constructor <;> linarith
  have smallInt : |truncate (if 0 ≤ number / 100 then number / 100 + 1 / 2
      else number / 100 - 1 / 2)| < 21474837 := by
    exact_mod_cast small
  exact Int.lt_add_one_iff.mp smallInt

theorem manhattan_displacement_le (event : MotionEvent Rat) :
    manhattan event.displacement ≤ 42949672 := by
  cases motion : event.motion with
  | move request =>
      have x := abs_roundPixels_le request.lparam
      have y := abs_roundPixels_le request.rparam
      simp only [manhattan, MotionEvent.displacement, motion]
      omega
  | stop =>
      simp only [manhattan, MotionEvent.displacement, motion]
      decide

theorem manhattan_add_le (first second : Int × Int) :
    manhattan (first + second) ≤ manhattan first + manhattan second := by
  have x := abs_add_le first.1 second.1
  have y := abs_add_le first.2 second.2
  simp only [manhattan, Prod.fst_add, Prod.snd_add]
  omega

private theorem manhattan_pendingMoves_le (start : World Rat)
    (history : List (MotionEvent Rat)) :
    manhattan (pendingMoves start history).sum ≤
      (pendingMoves start history).length * 42949672 := by
  induction history with
  | nil => simp [pendingMoves, manhattan]
  | cons event earlier inductionHypothesis =>
      rw [pendingMoves]
      split
      · decide
      · rw [List.sum_cons, List.length_cons, Nat.cast_add, Nat.cast_one]
        have together := manhattan_add_le event.displacement
          (pendingMoves start earlier).sum
        have single := manhattan_displacement_le event
        omega

theorem length_pendingMoves_le (start : World F)
    (history : List (MotionEvent F)) :
    (pendingMoves start history).length ≤ history.length := by
  induction history with
  | nil => exact Nat.le_refl 0
  | cons event earlier inductionHypothesis =>
      rw [pendingMoves]
      split
      · exact Nat.zero_le _
      · exact Nat.succ_le_succ inductionHypothesis

theorem LegacyRun.neverOverflows_of_few {start : World Rat}
    {history : List (MotionEvent Rat)} (run : LegacyRun start history)
    (few : ∀ event earlier, event :: earlier <:+ history →
      (pendingMoves start earlier).length < 50) :
    NeverOverflows start history := by
  rw [run.neverOverflows_iff]
  intro event earlier reached
  have count := few event earlier reached
  have together := manhattan_add_le (pendingMoves start earlier).sum
    event.displacement
  have before := manhattan_pendingMoves_le start earlier
  have latest := manhattan_displacement_le event
  omega

/-- The accumulators do not overflow if and only if the sums of what arrives
between two emissions fit.  They do if these are at most 50 moves. -/
theorem LegacyRun.accumulators_inRange {start : World Rat}
    {history : List (MotionEvent Rat)} (run : LegacyRun start history) :
    (NeverOverflows start history ↔
      ∀ event earlier, event :: earlier <:+ history →
        manhattan ((pendingMoves start earlier).sum + event.displacement) <
          2 ^ 31) ∧
      ((∀ event earlier, event :: earlier <:+ history →
          (pendingMoves start earlier).length < 50) →
        NeverOverflows start history) :=
  ⟨run.neverOverflows_iff, run.neverOverflows_of_few⟩

/-! ## A burst -/

/-- A move by the greatest `int` in both directions, at a fixed time. -/
def burstMove : MotionEvent Rat where
  bev := none
  event := {
    header := {
      type := YAEventType.mouseMove.code, direction := REQUEST, index := 1,
      uid := 1 }
    param := some (.common { lparam := 2147483647, rparam := 2147483647 })
    paramLen := 8 }
  time := { sec := 0, nsec := 0 }
  motion := .move { lparam := 2147483647, rparam := 2147483647 }
  carries := by
    rintro request ⟨⟩
    exact ⟨rfl, rfl⟩

/-- The first move is emitted, and the others at the same time accumulate. -/
def burst (count : Nat) : List (MotionEvent Rat) :=
  List.replicate count burstMove ++ [burstMove]

theorem burst_run (count : Nat) : LegacyRun World.legacyPair (burst count) := by
  apply legacyPair_run
  simp [burst, MotionEvent.uid, burstMove]

private theorem burstMove_displacement :
    burstMove.displacement = (21474836, 21474836) := by
  decide +kernel

private theorem burst_first :
    (World.legacyPair.afterMotion [burstMove]).throttle =
      .emptiedAt { sec := 0, nsec := 0 } := by
  decide +kernel

/-- The throttle in the middle of the burst. -/
def burstThrottle (count : Nat) : YAMouseThrottleState where
  lastEmit := { sec := 0, nsec := 0 }
  hasLastEmit := true
  accumDx := count * 21474836
  accumDy := count * 21474836

/-- At the time of the latest emission it is too early for another one. -/
theorem burstThrottle_early (count : Nat) :
    ¬ (burstThrottle count).due Rat { sec := 0, nsec := 0 } = true := by
  have noTime : timespecDiffMs Rat { sec := 0, nsec := 0 }
      (burstThrottle count).lastEmit = 0 := by
    rw [timespecDiffMs_exact]
    simp [burstThrottle]
  rw [elapsed_of_due rfl, noTime]
  split <;> norm_num

theorem burstThrottle_adding (count : Nat) :
    (burstThrottle count).adding burstMove.displacement =
      burstThrottle (count + 1) := by
  rw [burstMove_displacement]
  simp only [burstThrottle, YAMouseThrottleState.adding, Nat.cast_add,
    Nat.cast_one, add_mul, one_mul]

private theorem burst_throttle (count : Nat) :
    (World.legacyPair.afterMotion (burst count)).throttle =
      burstThrottle count := by
  induction count with
  | zero => exact burst_first
  | succ count inductionHypothesis =>
      have serves := ((burst_run (count + 1)).serves burstMove
        List.mem_cons_self).afterMotion (burst count)
      have added : (World.legacyPair.afterMotion (burst count)).throttle.adding
          burstMove.displacement = burstThrottle (count + 1) := by
        rw [inductionHypothesis, burstThrottle_adding]
      have early : ¬ ((World.legacyPair.afterMotion
          (burst count)).throttle.adding burstMove.displacement).due Rat
            burstMove.time = true := by
        rw [added]
        exact burstThrottle_early (count + 1)
      have collected := yaMouseThrottleCollect_early early
      have handled :
          (burstMove.handle (World.legacyPair.afterMotion
            (burst count))).throttle =
              (World.legacyPair.afterMotion (burst count)).throttle.adding
                burstMove.displacement :=
        (MotionEvent.handle_throttle serves).trans (congrArg Prod.fst collected)
      exact handled.trans added

/-- 49 moves behind an emission fit. -/
theorem burst_inRange : NeverOverflows World.legacyPair (burst 49) := by
  refine (burst_run 49).accumulators_inRange.2 ?_
  intro event earlier reached
  have fewer := reached.length_le
  have length : (burst 49).length = 50 := rfl
  have pending := length_pendingMoves_le World.legacyPair earlier
  rw [List.length_cons, length] at fewer
  omega

/-- 51 moves behind an emission overflow the distance. -/
theorem burst_overflows :
    LegacyRun World.legacyPair (burst 51) ∧
      ¬ NeverOverflows World.legacyPair (burst 51) := by
  refine ⟨burst_run 51, ?_⟩
  intro inRange
  have latest := inRange burstMove (burst 50) List.suffix_rfl
  rw [burst_throttle, burstThrottle_adding] at latest
  exact absurd latest.distance (by decide)

end MouseHero
