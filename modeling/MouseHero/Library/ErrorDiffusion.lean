import Mathlib.Algebra.Order.Ring.Abs
import Mathlib.Tactic.Abel

/-!
# Error diffusion

Amounts are put out in whole units.  What a unit is too coarse for is carried
over to the next amount, until a reset drops it.  If a quantizer is off by less
than a unit, nothing is lost between two resets, and less than a unit at each
of them.
-/

namespace MouseHero.ErrorDiffusion

/-- An amount, or a reset of what is carried over. -/
inductive Input (Amount : Type) where
  | amount (value : Amount)
  | reset

variable {Amount : Type} [Ring Amount] (quantizer : Amount → Int)

/-- What is carried over after an input. -/
def carry (carried : Amount) : Input Amount → Amount
  | .amount value => carried + value - quantizer (carried + value)
  | .reset => 0

/-- The units that are put out for an input. -/
def step (carried : Amount) : Input Amount → Int
  | .amount value => quantizer (carried + value)
  | .reset => 0

/-! The inputs have the latest one first. -/

/-- What is carried over after all inputs. -/
def residue : List (Input Amount) → Amount
  | [] => 0
  | input :: earlier => carry quantizer (residue earlier) input

/-- All units that have been put out. -/
def emitted : List (Input Amount) → Int
  | [] => 0
  | input :: earlier =>
      emitted earlier + step quantizer (residue quantizer earlier) input

/-- The units that have been put out since the latest reset. -/
def emittedSince : List (Input Amount) → Int
  | [] => 0
  | .amount value :: earlier =>
      emittedSince earlier +
        step quantizer (residue quantizer earlier) (.amount value)
  | .reset :: _ => 0

def resets : List (Input Amount) → Nat
  | [] => 0
  | .amount _ :: earlier => resets earlier
  | .reset :: earlier => resets earlier + 1

/-- The sum of all amounts. -/
def requested : List (Input Amount) → Amount
  | [] => 0
  | .amount value :: earlier => requested earlier + value
  | .reset :: earlier => requested earlier

/-- The sum of the amounts since the latest reset. -/
def requestedSince : List (Input Amount) → Amount
  | [] => 0
  | .amount value :: earlier => requestedSince earlier + value
  | .reset :: _ => 0

theorem emittedSince_add_residue (inputs : List (Input Amount)) :
    (emittedSince quantizer inputs : Amount) + residue quantizer inputs =
      requestedSince inputs := by
  induction inputs with
  | nil => simp [emittedSince, residue, requestedSince]
  | cons input earlier inductionHypothesis =>
      cases input with
      | amount value =>
          rw [emittedSince, residue, requestedSince, step, carry,
            ← inductionHypothesis, Int.cast_add]
          abel
      | reset => simp [emittedSince, residue, carry, requestedSince]

section Bounds

variable [LinearOrder Amount] [IsStrictOrderedRing Amount]
variable {quantizer : Amount → Int}
variable (near : ∀ value, |value - quantizer value| < 1)

include near

theorem abs_residue_lt (inputs : List (Input Amount)) :
    |residue quantizer inputs| < 1 := by
  cases inputs with
  | nil => simp [residue]
  | cons input earlier =>
      cases input with
      | amount value => exact near _
      | reset => simp [residue, carry]

omit near in
/-- Nothing negative is carried over from amounts that are not. -/
theorem residue_nonneg (rounds : ∀ value, 0 ≤ value → 0 ≤ value - quantizer value)
    (inputs : List (Input Amount))
    (nonnegative : ∀ value, .amount value ∈ inputs → 0 ≤ value) :
    0 ≤ residue quantizer inputs := by
  induction inputs with
  | nil => exact le_refl _
  | cons input earlier inductionHypothesis =>
      cases input with
      | amount value =>
          have carried := inductionHypothesis fun other member =>
            nonnegative other (List.mem_cons_of_mem _ member)
          exact rounds _ (add_nonneg carried (nonnegative value List.mem_cons_self))
      | reset => exact le_refl _

theorem abs_lost_le (inputs : List (Input Amount)) :
    |requested inputs - emitted quantizer inputs - residue quantizer inputs| ≤
      resets inputs := by
  induction inputs with
  | nil => simp [requested, emitted, residue, resets]
  | cons input earlier inductionHypothesis =>
      cases input with
      | amount value =>
          have same : requested (.amount value :: earlier) -
                emitted quantizer (.amount value :: earlier) -
                residue quantizer (.amount value :: earlier) =
              requested earlier - emitted quantizer earlier -
                residue quantizer earlier := by
            rw [requested, emitted, residue, step, carry, Int.cast_add]
            abel
          rw [same]
          exact inductionHypothesis
      | reset =>
          have dropped : requested (.reset :: earlier) -
                emitted quantizer (.reset :: earlier) -
                residue quantizer (.reset :: earlier) =
              requested earlier - emitted quantizer earlier -
                residue quantizer earlier + residue quantizer earlier := by
            rw [requested, emitted, residue, step, carry, Int.add_zero]
            abel
          have carried := abs_residue_lt near earlier
          rw [dropped, resets, Nat.cast_add, Nat.cast_one]
          exact (abs_add_le _ _).trans
            (add_le_add inductionHypothesis carried.le)

/-- Over all inputs, the units differ from the amounts by less than the number
of resets and one. -/
theorem abs_emitted_sub_requested_lt (inputs : List (Input Amount)) :
    |(emitted quantizer inputs : Amount) - requested inputs| <
      resets inputs + 1 := by
  have lost := abs_lost_le near inputs
  have carried := abs_residue_lt near inputs
  have split : requested inputs - (emitted quantizer inputs : Amount) =
      requested inputs - emitted quantizer inputs -
        residue quantizer inputs + residue quantizer inputs := by
    abel
  rw [abs_sub_comm, split]
  exact (abs_add_le _ _).trans_lt (add_lt_add_of_le_of_lt lost carried)

/-- A quantizer towards zero puts out at most a unit more than the amount. -/
theorem abs_step_lt (towards : ∀ value, |(quantizer value : Amount)| ≤ |value|)
    (earlier : List (Input Amount)) (value : Amount) :
    |(step quantizer (residue quantizer earlier) (.amount value) : Amount)| <
      1 + |value| := by
  have carried := abs_residue_lt near earlier
  calc |(step quantizer (residue quantizer earlier) (.amount value) : Amount)|
      ≤ |residue quantizer earlier + value| := towards _
    _ ≤ |residue quantizer earlier| + |value| := abs_add_le _ _
    _ < 1 + |value| := by simpa using carried

end Bounds

end MouseHero.ErrorDiffusion
