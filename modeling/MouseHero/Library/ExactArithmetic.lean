import MouseHero.Library.CFloat
import Mathlib.Algebra.Order.Floor.Ring
import Mathlib.Tactic.Linarith

/-!
# Exact arithmetic

Which of C's floating-point operations compute without rounding, over an ordered
field.  A square root may be any value that is not negative.
-/

namespace MouseHero

/-! ## Truncation -/

section Truncation

variable {K : Type} [Field K] [LinearOrder K] [IsStrictOrderedRing K]
variable [FloorRing K] {value : K}

/-- Rounding towards zero. -/
def towardsZero (value : K) : Int :=
  if 0 < value then ⌊value⌋ else ⌈value⌉

theorem towardsZero_of_nonneg (nonnegative : 0 ≤ value) :
    towardsZero value = ⌊value⌋ := by
  rw [towardsZero]
  split
  · rfl
  · rename_i notPositive
    rw [le_antisymm (not_lt.mp notPositive) nonnegative, Int.ceil_zero,
      Int.floor_zero]

theorem abs_towardsZero_le (value : K) : |(towardsZero value : K)| ≤ |value| := by
  unfold towardsZero
  split
  · rename_i positive
    have nonnegative : (0 : K) ≤ ⌊value⌋ := by
      exact_mod_cast Int.floor_nonneg.mpr positive.le
    rw [abs_of_nonneg nonnegative, abs_of_pos positive]
    exact Int.floor_le value
  · rename_i nonpositive
    have notPositive : (⌈value⌉ : K) ≤ 0 := by
      exact_mod_cast Int.ceil_le.mpr (by simpa using not_lt.mp nonpositive)
    rw [abs_of_nonpos notPositive, abs_of_nonpos (not_lt.mp nonpositive)]
    exact neg_le_neg (Int.le_ceil value)

theorem abs_sub_towardsZero_lt (value : K) : |value - towardsZero value| < 1 := by
  rw [abs_lt]
  unfold towardsZero
  have below := Int.floor_le value
  have above := Int.lt_floor_add_one value
  have atLeast := Int.le_ceil value
  have lessThan := Int.ceil_lt_add_one value
  split <;> constructor <;> linarith

theorem towardsZero_eq_zero (small : |value| < 1) : towardsZero value = 0 := by
  obtain ⟨above, below⟩ := abs_lt.mp small
  unfold towardsZero
  split
  · rename_i positive
    exact Int.floor_eq_zero_iff.mpr ⟨positive.le, below⟩
  · rename_i nonpositive
    rw [Int.ceil_eq_zero_iff]
    exact ⟨above, not_lt.mp nonpositive⟩

theorem sub_towardsZero_nonneg (nonnegative : 0 ≤ value) :
    0 ≤ value - towardsZero value := by
  rw [towardsZero_of_nonneg nonnegative]
  exact sub_nonneg.mpr (Int.floor_le value)

theorem towardsZero_intCast (value : Int) : towardsZero (value : K) = value := by
  rw [towardsZero]
  split
  · exact Int.floor_intCast value
  · exact Int.ceil_intCast value

end Truncation

/-! ## The range of `int` -/

section Range

variable {K : Type} [Field K] [LinearOrder K]

/-- The value fits into `int`. -/
def FitsInt (value : K) : Prop :=
  ((-2 ^ 31 : Int) : K) ≤ value ∧ value ≤ ((2 ^ 31 - 1 : Int) : K)

instance (value : K) : Decidable (FitsInt value) :=
  inferInstanceAs (Decidable (_ ∧ _))

variable [IsStrictOrderedRing K] {amount value rest : K}

omit [IsStrictOrderedRing K] in
theorem fitsInt_iff : FitsInt value ↔ -2 ^ 31 ≤ value ∧ value ≤ 2 ^ 31 - 1 := by
  rw [FitsInt]
  norm_num

theorem FitsInt.of_between (fits : FitsInt amount)
    (between : 0 ≤ value ∧ value ≤ amount ∨ amount ≤ value ∧ value ≤ 0) :
    FitsInt value := by
  obtain ⟨lower, upper⟩ := fits
  rcases between with ⟨nonnegative, below⟩ | ⟨above, nonpositive⟩
  · exact ⟨le_trans (by norm_num) nonnegative, below.trans upper⟩
  · exact ⟨lower.trans above, nonpositive.trans (by norm_num)⟩

variable [FloorRing K]

theorem fitsInt_intCast_iff {number : Int} :
    FitsInt (number : K) ↔ -2 ^ 31 ≤ number ∧ number ≤ 2 ^ 31 - 1 := by
  rw [FitsInt, Int.cast_le, Int.cast_le]

/-- The whole part fits if and only if the value is less than one away from what
fits. -/
theorem fitsInt_towardsZero_iff :
    FitsInt (towardsZero value : K) ↔ -2 ^ 31 - 1 < value ∧ value < 2 ^ 31 := by
  rw [fitsInt_intCast_iff, towardsZero]
  split
  · rename_i positive
    have floored : 0 ≤ ⌊value⌋ := Int.floor_nonneg.mpr positive.le
    have most : ⌊value⌋ ≤ 2 ^ 31 - 1 ↔ value < 2 ^ 31 := by
      rw [Int.le_sub_one_iff, Int.floor_lt]
      norm_num
    rw [most]
    constructor
    · intro bounds
      exact ⟨lt_trans (by norm_num) positive, bounds.2⟩
    · intro bounds
      exact ⟨le_trans (by norm_num) floored, bounds.2⟩
  · rename_i nonpositive
    have raised : ⌈value⌉ ≤ 0 := Int.ceil_le.mpr (by simpa using not_lt.mp nonpositive)
    have least : (-2 ^ 31 : Int) ≤ ⌈value⌉ ↔ -2 ^ 31 - 1 < value := by
      rw [← Int.sub_one_lt_iff, Int.lt_ceil]
      norm_num
    rw [least]
    constructor
    · intro bounds
      exact ⟨bounds.1, lt_of_le_of_lt (not_lt.mp nonpositive) (by norm_num)⟩
    · intro bounds
      exact ⟨bounds.1, raised.trans (by norm_num)⟩

theorem FitsInt.towardsZero_add (fits : FitsInt amount) (small : |rest| < 1) :
    FitsInt (towardsZero (rest + amount) : K) := by
  obtain ⟨above, below⟩ := abs_lt.mp small
  obtain ⟨lower, upper⟩ := fitsInt_iff.mp fits
  exact fitsInt_towardsZero_iff.mpr ⟨by linarith, by linarith⟩

/-- Behind the range, some rest below one leads out of it. -/
theorem exists_rest_of_not_fitsInt (big : ¬ FitsInt amount) :
    ∃ rest : K,
      |rest| < 1 ∧ 1 ≤ |rest + amount| ∧
        ¬ FitsInt (towardsZero (rest + amount) : K) := by
  rw [fitsInt_iff, not_and_or, not_le, not_le] at big
  rcases big with below | above
  · refine ⟨min 0 (-2 ^ 31 - 1 - amount), ?_, ?_, ?_⟩
    · rw [abs_lt]
      exact ⟨lt_min (by norm_num) (by linarith),
        lt_of_le_of_lt (min_le_left _ _) (by norm_num)⟩
    all_goals have most := min_le_right 0 (-2 ^ 31 - 1 - amount)
    · rw [le_abs]
      exact Or.inr (by linarith)
    · rw [fitsInt_towardsZero_iff]
      intro bounds
      linarith [bounds.1]
  · refine ⟨max 0 (2 ^ 31 - amount), ?_, ?_, ?_⟩
    · rw [abs_lt]
      exact ⟨lt_of_lt_of_le (by norm_num) (le_max_left _ _),
        max_lt (by norm_num) (by linarith)⟩
    all_goals have least := le_max_right 0 (2 ^ 31 - amount)
    · rw [le_abs]
      exact Or.inl (by linarith)
    · rw [fitsInt_towardsZero_iff]
      intro bounds
      linarith [bounds.2]

end Range

/-! ## Operations without rounding -/

namespace CFloat

/-- The operations of a program compute in the field. -/
structure Exact {K : Type} [Field K] [LinearOrder K] [FloorRing K]
    (arithmetic : CFloat K) : Prop where
  single : ∀ value, arithmetic.single value = value
  singleOfInt : ∀ value, arithmetic.singleOfInt value = value
  constant : ∀ value, arithmetic.constant value = value
  add : ∀ left right, arithmetic.add left right = left + right
  sub : ∀ left right, arithmetic.sub left right = left - right
  mul : ∀ left right, arithmetic.mul left right = left * right
  lt : ∀ left right, arithmetic.lt left right = decide (left < right)
  le : ∀ left right, arithmetic.le left right = decide (left ≤ right)
  fabs : ∀ value, arithmetic.fabs value = |value|
  floor : ∀ value, arithmetic.floor value = ⌊value⌋
  ceil : ∀ value, arithmetic.ceil value = ⌈value⌉
  toInt : ∀ value : Int, arithmetic.toInt value = value
  sqrt : ∀ value, 0 ≤ arithmetic.sqrt value
  pow : ∀ value, arithmetic.pow value 1 = value

section Operands

variable {K : Type} [Field K] [LinearOrder K] [FloorRing K]
variable {arithmetic : CFloat K} (isExact : Exact arithmetic)

include isExact

theorem Exact.addf (left right : K) : CFloat.addf left right = left + right := by
  rw [CFloat.addf, isExact.single, isExact.add]

theorem Exact.subf (left right : K) : CFloat.subf left right = left - right := by
  rw [CFloat.subf, isExact.single, isExact.sub]

theorem Exact.mulf (left right : K) : CFloat.mulf left right = left * right := by
  rw [CFloat.mulf, isExact.single, isExact.mul]

theorem Exact.constantf (value : Rat) : (CFloat.constantf value : K) = value := by
  rw [CFloat.constantf, isExact.single, isExact.constant]

theorem Exact.powf (value : K) : CFloat.powf value 1 = value := by
  rw [CFloat.powf, isExact.single, isExact.pow]

end Operands

theorem exact_exact : Exact exact where
  single _ := rfl
  singleOfInt _ := rfl
  constant _ := rfl
  add _ _ := rfl
  sub _ _ := rfl
  mul _ _ := rfl
  lt _ _ := rfl
  le _ _ := rfl
  fabs value := by
    change (if value < 0 then -value else value) = |value|
    split
    · rename_i negative
      exact (abs_of_neg negative).symm
    · rename_i nonnegative
      exact (abs_of_nonneg (not_lt.mp nonnegative)).symm
  floor _ := rfl
  ceil _ := rfl
  toInt value := by
    change (if (value : Rat) < 0 then -⌊-(value : Rat)⌋ else ⌊(value : Rat)⌋) =
      value
    rw [← Int.cast_neg, Int.floor_intCast, Int.floor_intCast, neg_neg, ite_self]
  sqrt value := div_nonneg (Nat.cast_nonneg _) (Nat.cast_nonneg _)
  pow value := by
    change value ^ ⌊(1 : Rat)⌋.toNat = value
    rw [Int.floor_one]
    exact pow_one value

/-! ## Conversions within the range -/

/-- The arithmetic with conversions to `int` that always truncate. -/
abbrev truncating {K : Type} [Field K] [LinearOrder K] [FloorRing K]
    (arithmetic : CFloat K) : CFloat K :=
  { arithmetic with toInt := towardsZero }

/-- The operations compute in the field, and squares have their roots.  What is
converted to `int` has to fit: nothing is said about other conversions. -/
structure ExactWithin {K : Type} [Field K] [LinearOrder K] [FloorRing K]
    (arithmetic : CFloat K) : Prop where
  exact : Exact arithmetic.truncating
  toInt : ∀ value : Int, FitsInt (value : K) → arithmetic.toInt value = value
  root : ∀ value, 0 ≤ value → arithmetic.sqrt (value * value) = value
  fmax : ∀ left right, arithmetic.fmax left right = max left right

theorem ExactWithin.constantf {K : Type} [Field K] [LinearOrder K] [FloorRing K]
    {arithmetic : CFloat K} (isExact : ExactWithin arithmetic) (value : Rat) :
    (CFloat.constantf value : K) = value :=
  isExact.exact.constantf value

theorem Exact.truncating {K : Type} [Field K] [LinearOrder K]
    [IsStrictOrderedRing K] [FloorRing K] {arithmetic : CFloat K}
    (isExact : Exact arithmetic) : Exact arithmetic.truncating :=
  { isExact with toInt := towardsZero_intCast }

theorem exactWithin_exact : ExactWithin exact where
  exact := exact_exact.truncating
  toInt value _ := exact_exact.toInt value
  root value nonnegative := by
    change (Nat.sqrt (value * value).num.toNat : Rat) / Nat.sqrt (value * value).den =
      value
    have numerator : 0 ≤ value.num := Rat.num_nonneg.mpr nonnegative
    rw [Rat.mul_self_num, Rat.mul_self_den, Int.toNat_mul numerator numerator,
      Nat.sqrt_eq, Nat.sqrt_eq]
    have lifted : ((value.num.toNat : Nat) : Rat) = value.num := by
      exact_mod_cast Int.toNat_of_nonneg numerator
    rw [lifted, Rat.num_div_den]
  fmax _ _ := rfl

end CFloat

end MouseHero
