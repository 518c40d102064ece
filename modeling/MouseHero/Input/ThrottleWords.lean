import MouseHero.Input.MouseThrottle

/-!
# The mouse throttle on machine words

The functions of `ya_mouse_throttle.c` with accumulators of type `int`, whose
sums wrap.  As long as nothing leaves the range, they do what the functions on
integers do.
-/

namespace MouseHero

open CFloat

/-! ## The functions -/

/-- `YAMouseThrottleState`, with its accumulators as words. -/
structure YAMouseThrottleWords where
  lastEmit : Timespec
  hasLastEmit : Bool
  accumDx : Int32
  accumDy : Int32
  deriving DecidableEq, Repr

/-- The initial value of `g_mouse_throttle`. -/
def YAMouseThrottleWords.initial : YAMouseThrottleWords where
  lastEmit := { sec := 0, nsec := 0 }
  hasLastEmit := false
  accumDx := 0
  accumDy := 0

/-- `dx < 0 ? -dx : dx`. -/
def magnitude (value : Int32) : Int32 :=
  if value < 0 then -value else value

/-- `get_accumulated_distance`. -/
def getAccumulatedDistanceWord (words : YAMouseThrottleWords) : Int32 :=
  magnitude words.accumDx + magnitude words.accumDy

/-- `ya_mouse_throttle_reset`. -/
def yaMouseThrottleResetWords (words : YAMouseThrottleWords) :
    YAMouseThrottleWords :=
  { words with accumDx := 0, accumDy := 0, hasLastEmit := false }

/-- `ya_mouse_throttle_collect`: the emitted displacement, if there is one. -/
def yaMouseThrottleCollectWords (F : Type) [CFloat F]
    (words : YAMouseThrottleWords) (dx dy : Int32) (forceFlush : Bool)
    (now : Timespec) : YAMouseThrottleWords × Option (Int32 × Int32) :=
  let words :=
    { words with accumDx := words.accumDx + dx, accumDy := words.accumDy + dy }
  let threshold : F :=
    if getAccumulatedDistanceWord words < 3 then constant 4 else constant 8
  let shouldEmit :=
    forceFlush || !words.hasLastEmit ||
      le threshold (timespecDiffMs F now words.lastEmit)
  if !shouldEmit then
    (words, none)
  else if words.accumDx = 0 ∧ words.accumDy = 0 then
    ({ words with lastEmit := now, hasLastEmit := true }, none)
  else
    ({ lastEmit := now, hasLastEmit := true, accumDx := 0, accumDy := 0 },
      some (words.accumDx, words.accumDy))

/-- `ya_mouse_throttle_flush`. -/
def yaMouseThrottleFlushWords (words : YAMouseThrottleWords) (now : Timespec) :
    YAMouseThrottleWords × Option (Int32 × Int32) :=
  if words.accumDx = 0 ∧ words.accumDy = 0 then
    (words, none)
  else
    ({ lastEmit := now, hasLastEmit := true, accumDx := 0, accumDy := 0 },
      some (words.accumDx, words.accumDy))

/-! ## The distance -/

/-- The values of two words. -/
def wordValues (words : Int32 × Int32) : Int × Int :=
  (words.1.toInt, words.2.toInt)

/-- What the throttle has accumulated. -/
def YAMouseThrottleWords.accumulated (words : YAMouseThrottleWords) :
    Int32 × Int32 :=
  (words.accumDx, words.accumDy)

theorem word_emod (value : Int) : value.bmod (2 ^ 32) % 2 ^ 32 = value % 2 ^ 32 :=
  Int.bmod_emod

private theorem magnitude_emod (value : Int32) :
    (magnitude value).toInt % 2 ^ 32 = |value.toInt| % 2 ^ 32 := by
  unfold magnitude
  split
  · rename_i negative
    have below : value.toInt < 0 := Int32.lt_iff_toInt_lt.mp negative
    rw [Int32.toInt_neg, word_emod, abs_of_neg below]
  · rename_i notNegative
    have above : 0 ≤ value.toInt :=
      not_lt.mp fun below => notNegative (Int32.lt_iff_toInt_lt.mpr below)
    rw [abs_of_nonneg above]

private theorem getAccumulatedDistanceWord_emod (words : YAMouseThrottleWords) :
    (getAccumulatedDistanceWord words).toInt % 2 ^ 32 =
      manhattan (wordValues words.accumulated) % 2 ^ 32 := by
  rw [getAccumulatedDistanceWord, Int32.toInt_add, word_emod, Int.add_emod,
    magnitude_emod, magnitude_emod, ← Int.add_emod]
  rfl

/-- A sum from 2^31 on is negative as a word, or zero. -/
theorem getAccumulatedDistanceWord_lt_iff (words : YAMouseThrottleWords) :
    getAccumulatedDistanceWord words < 3 ↔
      manhattan (wordValues words.accumulated) < 3 ∨
        2 ^ 31 ≤ manhattan (wordValues words.accumulated) := by
  have same := getAccumulatedDistanceWord_emod words
  have upper := Int32.toInt_lt (getAccumulatedDistanceWord words)
  have lower := Int32.le_toInt (getAccumulatedDistanceWord words)
  have x := Int32.le_toInt words.accumDx
  have xUpper := Int32.toInt_lt words.accumDx
  have y := Int32.le_toInt words.accumDy
  have yUpper := Int32.toInt_lt words.accumDy
  have sum : manhattan (wordValues words.accumulated) =
      |words.accumDx.toInt| + |words.accumDy.toInt| := rfl
  have xSize : |words.accumDx.toInt| ≤ 2 ^ 31 := abs_le.mpr ⟨by omega, by omega⟩
  have ySize : |words.accumDy.toInt| ≤ 2 ^ 31 := abs_le.mpr ⟨by omega, by omega⟩
  have xPositive := abs_nonneg words.accumDx.toInt
  have yPositive := abs_nonneg words.accumDy.toInt
  rw [Int32.lt_iff_toInt_lt]
  have three : (3 : Int32).toInt = 3 := rfl
  rw [three]
  omega

/-! ## One call -/

/-- The throttle with another displacement in it. -/
def YAMouseThrottleWords.adding (words : YAMouseThrottleWords)
    (displacement : Int32 × Int32) : YAMouseThrottleWords :=
  { words with
    accumDx := words.accumDx + displacement.1
    accumDy := words.accumDy + displacement.2 }

/-- With what is in the throttle, it is time to emit. -/
def YAMouseThrottleWords.due (F : Type) [CFloat F]
    (words : YAMouseThrottleWords) (now : Timespec) : Bool :=
  let threshold : F :=
    if getAccumulatedDistanceWord words < 3 then constant 4 else constant 8
  !words.hasLastEmit || le threshold (timespecDiffMs F now words.lastEmit)

/-- The throttle that has emitted at this time. -/
def YAMouseThrottleWords.emptiedAt (now : Timespec) : YAMouseThrottleWords where
  lastEmit := now
  hasLastEmit := true
  accumDx := 0
  accumDy := 0

/-- `ya_mouse_throttle_collect` on the sums. -/
theorem yaMouseThrottleCollectWords_eq {F : Type} [CFloat F]
    (words : YAMouseThrottleWords) (displacement : Int32 × Int32)
    (forceFlush : Bool) (now : Timespec) :
    let added := words.adding displacement
    yaMouseThrottleCollectWords F words displacement.1 displacement.2 forceFlush
        now =
      if !(forceFlush || added.due F now) then (added, none)
      else if added.accumDx = 0 ∧ added.accumDy = 0 then
        ({ added with lastEmit := now, hasLastEmit := true }, none)
      else (.emptiedAt now, some added.accumulated) := by
  intro added
  rw [YAMouseThrottleWords.due, ← Bool.or_assoc]
  rfl

theorem yaMouseThrottleFlushWords_eq (words : YAMouseThrottleWords)
    (now : Timespec) :
    yaMouseThrottleFlushWords words now =
      if words.accumDx = 0 ∧ words.accumDy = 0 then (words, none)
      else (.emptiedAt now, some words.accumulated) :=
  rfl

/-! ## Words in range -/

/-- The throttle whose accumulators are integers. -/
def YAMouseThrottleWords.toState (words : YAMouseThrottleWords) :
    YAMouseThrottleState where
  lastEmit := words.lastEmit
  hasLastEmit := words.hasLastEmit
  accumDx := words.accumDx.toInt
  accumDy := words.accumDy.toInt

/-- The words of two integers. -/
def toWords (displacement : Int × Int) : Int32 × Int32 :=
  (Int32.ofInt displacement.1, Int32.ofInt displacement.2)

/-- A sum in the range of `int` does not wrap. -/
theorem toInt_add_ofInt {word : Int32} {value : Int}
    (fits : |word.toInt + value| < 2 ^ 31) :
    (word + Int32.ofInt value).toInt = word.toInt + value := by
  obtain ⟨lower, upper⟩ := abs_lt.mp fits
  have reduced : (Int32.ofInt value).toInt % 2 ^ 32 = value % 2 ^ 32 := by
    rw [Int32.toInt_ofInt]
    exact word_emod value
  have wrapped : (word + Int32.ofInt value).toInt % 2 ^ 32 =
      (word.toInt + value) % 2 ^ 32 := by
    rw [Int32.toInt_add, word_emod, Int.add_emod, reduced, ← Int.add_emod]
  have least := Int32.le_toInt (word + Int32.ofInt value)
  have greatest := Int32.toInt_lt (word + Int32.ofInt value)
  omega

theorem toState_empty_iff (words : YAMouseThrottleWords) :
    words.accumDx = 0 ∧ words.accumDy = 0 ↔
      words.toState.accumDx = 0 ∧ words.toState.accumDy = 0 :=
  and_congr Int32.toInt_inj.symm Int32.toInt_inj.symm

section InRange

variable {F : Type} [CFloat F] {words : YAMouseThrottleWords}

private theorem due_of_fits (fits : manhattan words.toState.accumulated < 2 ^ 31)
    (now : Timespec) : words.due F now = words.toState.due F now := by
  have distance : getAccumulatedDistanceWord words < 3 ↔
      getAccumulatedDistance words.toState < 3 := by
    rw [getAccumulatedDistanceWord_lt_iff, getAccumulatedDistance_eq]
    exact or_iff_left (not_le.mpr fits)
  simp only [YAMouseThrottleWords.due, distance]
  rfl

/-- While the sums fit, words are collected as integers are. -/
theorem yaMouseThrottleCollectWords_of_fits {displacement : Int × Int}
    (fits : manhattan (words.toState.adding displacement).accumulated < 2 ^ 31)
    (forceFlush : Bool) (now : Timespec) :
    let onWords := yaMouseThrottleCollectWords F words (toWords displacement).1
      (toWords displacement).2 forceFlush now
    (onWords.1.toState, onWords.2.map wordValues) =
      yaMouseThrottleCollect F words.toState displacement.1 displacement.2
        forceFlush now := by
  have sumX : |words.accumDx.toInt + displacement.1| < 2 ^ 31 :=
    (le_add_of_nonneg_right (abs_nonneg _)).trans_lt fits
  have sumY : |words.accumDy.toInt + displacement.2| < 2 ^ 31 :=
    (le_add_of_nonneg_left (abs_nonneg _)).trans_lt fits
  have same : (words.adding (toWords displacement)).toState =
      words.toState.adding displacement := by
    simp only [YAMouseThrottleWords.toState, YAMouseThrottleWords.adding,
      YAMouseThrottleState.adding, toWords, toInt_add_ofInt sumX,
      toInt_add_ofInt sumY]
  rw [← same] at fits
  intro onWords
  rw [show onWords = _ from yaMouseThrottleCollectWords_eq _ _ _ _,
    yaMouseThrottleCollect_eq, ← same, due_of_fits fits]
  simp only [toState_empty_iff]
  split
  · rfl
  split
  · rfl
  · rfl

theorem yaMouseThrottleFlushWords_toState (now : Timespec) :
    let onWords := yaMouseThrottleFlushWords words now
    (onWords.1.toState, onWords.2.map wordValues) =
      yaMouseThrottleFlush words.toState now := by
  intro onWords
  rw [show onWords = _ from yaMouseThrottleFlushWords_eq _ _, yaMouseThrottleFlush]
  simp only [toState_empty_iff]
  split
  · rfl
  · rfl

end InRange

end MouseHero
