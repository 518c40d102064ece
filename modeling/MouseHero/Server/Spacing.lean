import MouseHero.Input.ThrottleWords
import MouseHero.Server.ThrottleRuns

/-!
# The spacing of the emissions

Any sequence of calls on the throttle whose accumulators are words, at readings
of the clock that do not go back.
-/

namespace MouseHero

open CFloat

/-! ## Calls -/

/-- A call, and what the clock reads in it. -/
inductive WordCall where
  | collect (displacement : Int32 × Int32) (forceFlush : Bool) (now : Timespec)
  | flush (now : Timespec)

namespace WordCall

def now : WordCall → Timespec
  | collect _ _ now => now
  | flush now => now

/-- The state after the call, and what it emits. -/
def perform (F : Type) [CFloat F] (words : YAMouseThrottleWords) :
    WordCall → YAMouseThrottleWords × Option (Int32 × Int32)
  | collect displacement forceFlush now =>
      yaMouseThrottleCollectWords F words displacement.1 displacement.2 forceFlush
        now
  | flush now => yaMouseThrottleFlushWords words now

variable {F : Type} [CFloat F]

/-- A call that emits nothing leaves the reference time or sets it, and one that
emits sets it. -/
theorem perform_reference (words : YAMouseThrottleWords) (call : WordCall) :
    ((call.perform F words).2 = none ∧
        (call.perform F words).1.lastEmit = words.lastEmit ∧
        (call.perform F words).1.hasLastEmit = words.hasLastEmit) ∨
      ((call.perform F words).1.lastEmit = call.now ∧
        (call.perform F words).1.hasLastEmit = true) := by
  cases call with
  | collect displacement forceFlush now =>
      rw [perform, yaMouseThrottleCollectWords_eq]
      split
      · exact Or.inl ⟨rfl, rfl, rfl⟩
      split
      · exact Or.inr ⟨rfl, rfl⟩
      · exact Or.inr ⟨rfl, rfl⟩
  | flush now =>
      rw [perform, yaMouseThrottleFlushWords_eq]
      split
      · exact Or.inl ⟨rfl, rfl, rfl⟩
      · exact Or.inr ⟨rfl, rfl⟩

end WordCall

/-- The readings of the clock do not go back. -/
def MonotoneClock (calls : List WordCall) : Prop :=
  (calls.map WordCall.now).Pairwise fun later earlier =>
    earlier.nanoseconds ≤ later.nanoseconds

instance (calls : List WordCall) : Decidable (MonotoneClock calls) :=
  inferInstanceAs (Decidable (List.Pairwise _ _))

/-- The state after the calls, of which the latest is the first. -/
def wordsAfter (F : Type) [CFloat F] (start : YAMouseThrottleWords) :
    List WordCall → YAMouseThrottleWords
  | [] => start
  | call :: earlier => (call.perform F (wordsAfter F start earlier)).1

/-- When the latest call that emitted has been made. -/
def lastEmission (F : Type) [CFloat F] (start : YAMouseThrottleWords) :
    List WordCall → Option Timespec
  | [] => none
  | call :: earlier =>
      if (call.perform F (wordsAfter F start earlier)).2.isSome then
        some call.now
      else lastEmission F start earlier

/-! ## Spacing -/

/-- The spacing of the emissions.  One that is not forced comes at least 4 ms
after the previous one, or 8 ms if it is of 3 pixels or more; and 8 ms after
the reference time, whatever has accumulated is emitted. -/
structure Spaced (start : YAMouseThrottleWords) (earlier : List WordCall)
    (displacement : Int32 × Int32) (now : Timespec) : Prop where
  apart :
    ∀ emitted previous,
      ((WordCall.collect displacement false now).perform Rat
          (wordsAfter Rat start earlier)).2 = some emitted →
        lastEmission Rat start earlier = some previous →
          4 ≤ timespecDiffMs Rat now previous ∧
            (3 ≤ manhattan (wordValues emitted) →
              8 ≤ timespecDiffMs Rat now previous)
  prompt :
    ((wordsAfter Rat start earlier).adding displacement).accumulated ≠ 0 →
      8 ≤ timespecDiffMs Rat now (wordsAfter Rat start earlier).lastEmit →
        ((WordCall.collect displacement false now).perform Rat
            (wordsAfter Rat start earlier)).2.isSome

/-- The distance that is compared has wrapped, at a time at which only a small
one may be emitted. -/
structure DistanceWraps (start : YAMouseThrottleWords) (earlier : List WordCall)
    (displacement : Int32 × Int32) (now : Timespec) : Prop where
  distance :
    2 ^ 31 ≤ manhattan (wordValues
      ((wordsAfter Rat start earlier).adding displacement).accumulated)
  waited : 4 ≤ timespecDiffMs Rat now (wordsAfter Rat start earlier).lastEmit
  early :
    ∃ previous, lastEmission Rat start earlier = some previous ∧
      timespecDiffMs Rat now previous < 8

section Spacing

variable {start words : YAMouseThrottleWords} {calls : List WordCall}
variable {displacement emitted : Int32 × Int32} {now : Timespec}

private theorem lastEmission_mem {F : Type} [CFloat F] {previous : Timespec}
    (emission : lastEmission F start calls = some previous) :
    previous ∈ calls.map WordCall.now := by
  induction calls with
  | nil => cases emission
  | cons call earlier inductionHypothesis =>
      rw [List.map_cons, List.mem_cons]
      rw [lastEmission] at emission
      split at emission
      · exact Or.inl (Option.some.inj emission).symm
      · exact Or.inr (inductionHypothesis emission)

/-- The reference time is that of the latest emission, or a later one. -/
theorem lastEmission_le {F : Type} [CFloat F] (monotone : MonotoneClock calls)
    {previous : Timespec} (emission : lastEmission F start calls = some previous) :
    (wordsAfter F start calls).hasLastEmit = true ∧
      previous.nanoseconds ≤ (wordsAfter F start calls).lastEmit.nanoseconds := by
  induction calls with
  | nil => cases emission
  | cons call earlier inductionHypothesis =>
      obtain ⟨latest, monotoneEarlier⟩ := List.pairwise_cons.mp monotone
      rw [wordsAfter]
      rcases @WordCall.perform_reference F _ (wordsAfter F start earlier) call with
        ⟨silent, sameTime, sameFlag⟩ | ⟨time, flag⟩
      · rw [lastEmission, silent] at emission
        rw [sameTime, sameFlag]
        exact inductionHypothesis monotoneEarlier emission
      · rw [time, flag]
        refine ⟨rfl, ?_⟩
        rcases List.mem_cons.mp (lastEmission_mem emission) with same | member
        · exact le_of_eq (congrArg Timespec.nanoseconds same)
        · exact latest previous member

theorem words_due_iff (known : words.hasLastEmit = true) :
    words.due Rat now = true ↔
      (if getAccumulatedDistanceWord words < 3 then 4 else 8) ≤
        timespecDiffMs Rat now words.lastEmit := by
  rw [YAMouseThrottleWords.due, known]
  exact decide_eq_true_iff

/-- What is emitted without force has accumulated, and it is time. -/
theorem collect_emits_iff :
    (yaMouseThrottleCollectWords Rat words displacement.1 displacement.2 false
        now).2 = some emitted ↔
      (words.adding displacement).due Rat now = true ∧
        (words.adding displacement).accumulated = emitted ∧ emitted ≠ 0 := by
  have empty : (words.adding displacement).accumDx = 0 ∧
      (words.adding displacement).accumDy = 0 ↔
        (words.adding displacement).accumulated = 0 :=
    Prod.mk_eq_zero.symm
  rw [yaMouseThrottleCollectWords_eq, Bool.false_or]
  simp only [empty]
  cases due : (words.adding displacement).due Rat now with
  | false => simp
  | true =>
      by_cases nothing : (words.adding displacement).accumulated = 0
      · simp only [nothing, Bool.not_true, Bool.false_eq_true, if_true, if_false,
          reduceCtorEq, true_and, false_iff]
        exact fun ⟨same, different⟩ => different same.symm
      · simp only [nothing, Bool.not_true, Bool.false_eq_true, if_false,
          Option.some.injEq, true_and]
        exact ⟨fun same => ⟨same, same ▸ nothing⟩, And.left⟩

/-- After 8 ms, all that has accumulated is emitted. -/
theorem collect_prompt
    (notEmpty : (words.adding displacement).accumulated ≠ 0)
    (waited : 8 ≤ timespecDiffMs Rat now words.lastEmit) :
    (yaMouseThrottleCollectWords Rat words displacement.1 displacement.2 false
      now).2.isSome := by
  have due : (words.adding displacement).due Rat now = true := by
    cases known : (words.adding displacement).hasLastEmit with
    | false =>
        rw [YAMouseThrottleWords.due, known]
        rfl
    | true =>
        refine (words_due_iff known).mpr (le_trans ?_ waited)
        split <;> norm_num
  rw [collect_emits_iff.mpr ⟨due, rfl, notEmpty⟩]
  rfl

/-- What is emitted after an emission is apart from it, unless the distance wraps
in between. -/
theorem collect_apart_iff {previous : Timespec}
    (known : words.hasLastEmit = true)
    (reference : previous.nanoseconds ≤ words.lastEmit.nanoseconds) :
    (∀ emitted,
      (yaMouseThrottleCollectWords Rat words displacement.1 displacement.2 false
          now).2 = some emitted →
        4 ≤ timespecDiffMs Rat now previous ∧
          (3 ≤ manhattan (wordValues emitted) →
            8 ≤ timespecDiffMs Rat now previous)) ↔
      ¬ (2 ^ 31 ≤ manhattan (wordValues (words.adding displacement).accumulated) ∧
        4 ≤ timespecDiffMs Rat now words.lastEmit ∧
        timespecDiffMs Rat now previous < 8) := by
  have longer := timespecDiffMs_le now reference
  have distance := getAccumulatedDistanceWord_lt_iff (words.adding displacement)
  have knownAdded : (words.adding displacement).hasLastEmit = true := known
  have due := @words_due_iff (words.adding displacement) now knownAdded
  rw [show (words.adding displacement).lastEmit = words.lastEmit from rfl] at due
  simp only [collect_emits_iff]
  generalize (words.adding displacement).accumulated = sums at *
  constructor
  · intro apart late
    obtain ⟨wraps, waited, early⟩ := late
    rw [if_pos (distance.mpr (Or.inr wraps))] at due
    have notEmpty : sums ≠ 0 := by
      intro isZero
      rw [isZero] at wraps
      exact absurd wraps (by decide)
    have large : 3 ≤ manhattan (wordValues sums) :=
      le_trans (by norm_num) wraps
    have far := (apart sums ⟨due.mpr waited, rfl, notEmpty⟩).2 large
    exact absurd far (not_le.mpr early)
  · intro fits emitted emits
    obtain ⟨isDue, rfl, -⟩ := emits
    have waited := due.mp isDue
    have least : 4 ≤ timespecDiffMs Rat now words.lastEmit := by
      refine le_trans ?_ waited
      split <;> norm_num
    refine ⟨least.trans longer, fun large => ?_⟩
    by_contra early
    have small : ¬ 2 ^ 31 ≤ manhattan (wordValues sums) := fun wraps =>
      fits ⟨wraps, least, not_le.mp early⟩
    rw [if_neg fun low => (distance.mp low).elim (not_lt.mpr large) small] at waited
    exact early (waited.trans longer)

/-- In every run with a monotone clock the next collect keeps the spacing if and
only if its distance does not wrap in between. -/
theorem throttle_spaced_iff
    (monotone : MonotoneClock (.collect displacement false now :: calls)) :
    Spaced start calls displacement now ↔
      ¬ DistanceWraps start calls displacement now := by
  have monotoneCalls : MonotoneClock calls := (List.pairwise_cons.mp monotone).2
  constructor
  · intro spaced wraps
    obtain ⟨distance, waited, previous, emission, early⟩ := wraps
    obtain ⟨known, reference⟩ := lastEmission_le monotoneCalls emission
    exact (collect_apart_iff known reference).mp
      (fun emitted isEmitted => spaced.apart emitted previous isEmitted emission)
      ⟨distance, waited, early⟩
  · intro fits
    refine ⟨?_, collect_prompt⟩
    intro emitted previous isEmitted emission
    obtain ⟨known, reference⟩ := lastEmission_le monotoneCalls emission
    refine (collect_apart_iff known reference).mpr ?_ emitted isEmitted
    intro wraps
    obtain ⟨distance, waited, early⟩ := wraps
    exact fits ⟨distance, waited, previous, emission, early⟩

end Spacing

/-- Two displacements at an interval of 8 ms. -/
theorem throttle_spaced_pair :
    Spaced .initial [.collect (5, 0) false { sec := 0, nsec := 0 }] (3, 0)
      { sec := 0, nsec := 8000000 } := by
  refine (throttle_spaced_iff (by decide)).mpr ?_
  intro wraps
  exact absurd wraps.distance (by decide +kernel)

/-- A displacement of 3000000000 pixels is emitted 5 ms after another one. -/
theorem wrappedDistance_notSpaced :
    MonotoneClock
        [.collect (1500000000, 1500000000) false { sec := 0, nsec := 5000000 },
          .collect (1, 0) false { sec := 0, nsec := 0 }] ∧
      ¬ Spaced .initial [.collect (1, 0) false { sec := 0, nsec := 0 }]
        (1500000000, 1500000000) { sec := 0, nsec := 5000000 } := by
  refine ⟨by decide, fun spaced => ?_⟩
  have far := (spaced.apart (1500000000, 1500000000) { sec := 0, nsec := 0 }
    (by decide +kernel) (by decide +kernel)).2 (by decide)
  exact absurd far (by decide +kernel)

end MouseHero
