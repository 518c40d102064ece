import MouseHero.Input.FilterLimits

/-!
# The range of the mouse filter

The values that the filter converts to `int`.  A displacement is safe for every
velocity exactly if three times what the scale makes of it fits, since three is
the highest gain.
-/

namespace MouseHero

open CFloat

/-! ## Conversions -/

section Conversions

variable {F : Type} [CFloat F]

/-- The value that is converted to `int` for the whole pixels, if there are
any. -/
def converted (frac : F) : Option F :=
  if le (constantf 1) (fabs frac) then
    some (if lt (constantf 0) frac then floor frac else ceil frac)
  else
    none

/-- The values that a call of `ya_mouse_filter_process` converts to `int`. -/
def conversions (ctx : YaMouseFilter F) (inDx inDy : Int) : List F :=
  if !ctx.algorithmsEnabled then []
  else
    let (fracX, fracY) := accumulatedFrac ctx inDx inDy
    (converted fracX).toList ++ (converted fracY).toList

/-- The pixels are what the conversion makes of the value. -/
theorem quantize_eq_converted (frac : F) :
    quantize frac =
      match converted frac with
      | none => (0, frac)
      | some value => (toInt value, subf frac (singleOfInt (toInt value))) := by
  unfold quantize converted
  split <;> rfl

end Conversions

variable {K : Type} [Field K] [LinearOrder K] [IsStrictOrderedRing K] [FloorRing K]

/-! ## Calls in exact arithmetic -/

section Calls

variable (call : FilterCall K) {ctx : YaMouseFilter K}

omit [IsStrictOrderedRing K] in
theorem converted_of_exact {arithmetic : CFloat K}
    (isExact : CFloat.Exact arithmetic) (value : K) :
    converted value = if 1 ≤ |value| then some (towardsZero value : K) else none := by
  have rounded : (if arithmetic.lt (CFloat.constantf 0) value then
      arithmetic.floor value else arithmetic.ceil value) = (towardsZero value : K) := by
    rw [isExact.lt, isExact.floor, isExact.ceil, isExact.constantf, towardsZero,
      Rat.cast_zero, apply_ite (Int.cast (R := K))]
    simp only [decide_eq_true_eq]
  rw [converted, rounded, isExact.le, isExact.fabs, isExact.constantf, Rat.cast_one]
  simp only [decide_eq_true_eq]

omit [IsStrictOrderedRing K] in
/-- On each axis that has gathered a pixel, the whole pixels are converted. -/
theorem FilterCall.mem_conversions_iff (enabled : ctx.algorithmsEnabled = true)
    {value : K} :
    value ∈ @conversions K call.arithmetic ctx call.inDx call.inDy ↔
      ∃ axis, 1 ≤ |call.sum axis ctx| ∧ towardsZero (call.sum axis ctx) = value := by
  have onAxis (sum : K) : value ∈ (@converted K call.arithmetic sum).toList ↔
      1 ≤ |sum| ∧ towardsZero sum = value := by
    rw [@converted_of_exact K _ _ _ call.arithmetic call.exact, Option.mem_toList]
    split <;> simp [*]
  unfold conversions
  rw [enabled, call.accumulatedFrac_eq]
  simp only [Bool.not_true, Bool.false_eq_true, if_false, List.mem_append, onAxis]
  constructor
  · rintro (onX | onY)
    · exact ⟨.x, onX⟩
    · exact ⟨.y, onY⟩
  · rintro ⟨axis, onAxis⟩
    cases axis with
    | x => exact Or.inl onAxis
    | y => exact Or.inr onAxis

/-- A gain does not lead out of the range of the highest one. -/
theorem FilterCall.displacement_fits (scaled : 0 ≤ ctx.pointerScale) {axis : Axis}
    (fits : FitsInt (ctx.pointerScale * ((3 * axis.input call : Int) : K))) :
    FitsInt (call.displacement axis ctx) := by
  have tripled : ctx.pointerScale * ((3 * axis.input call : Int) : K) =
      3 * ctx.pointerScale * axis.input call := by
    push_cast
    ring
  have positive : 0 ≤ ctx.pointerScale * call.gain ctx :=
    mul_nonneg scaled (zero_le_one.trans (call.one_le_gain ctx))
  have most : ctx.pointerScale * call.gain ctx ≤ 3 * ctx.pointerScale := by
    rw [mul_comm 3]
    exact mul_le_mul_of_nonneg_left (call.gain_le_three ctx) scaled
  rw [tripled] at fits
  refine fits.of_between ?_
  rw [displacement, mul_comm (axis.input call : K)]
  rcases le_total 0 (axis.input call : K) with nonnegative | nonpositive
  · exact Or.inl ⟨mul_nonneg positive nonnegative,
      mul_le_mul_of_nonneg_right most nonnegative⟩
  · exact Or.inr ⟨mul_le_mul_of_nonpos_right most nonpositive,
      mul_nonpos_of_nonneg_of_nonpos positive nonpositive⟩

end Calls

/-! ## One call -/

/-- Less than a pixel is carried over on each axis. -/
def YaMouseFilter.Subpixel (ctx : YaMouseFilter K) : Prop :=
  |ctx.fracX| < 1 ∧ |ctx.fracY| < 1

/-- With the highest gain, the displacement fits into `int`. -/
def FitsTripled (scale : K) (inDx inDy : Int) : Prop :=
  FitsInt (scale * ((3 * inDx : Int) : K)) ∧ FitsInt (scale * ((3 * inDy : Int) : K))

instance (scale : K) (inDx inDy : Int) : Decidable (FitsTripled scale inDx inDy) :=
  inferInstanceAs (Decidable (_ ∧ _))

omit [IsStrictOrderedRing K] [FloorRing K] in
theorem YaMouseFilter.Subpixel.residue_lt {ctx : YaMouseFilter K}
    (small : ctx.Subpixel) (axis : Axis) : |axis.residue ctx| < 1 := by
  cases axis with
  | x => exact small.1
  | y => exact small.2

section Call

variable [arithmetic : CFloat K]
variable {ctx : YaMouseFilter K} {inDx inDy : Int} {scale : K}

/-- The call with conversions that always truncate. -/
def truncatingCall (isExact : CFloat.ExactWithin arithmetic) (inDx inDy : Int) :
    FilterCall K where
  arithmetic := arithmetic.truncating
  exact := isExact.exact
  inDx := inDx
  inDy := inDy

private theorem quantize_truncating (isExact : CFloat.ExactWithin arithmetic) {frac : K}
    (fits : ∀ value ∈ converted frac, FitsInt value) :
    quantize frac = @quantize K arithmetic.truncating frac := by
  have same : @converted K arithmetic.truncating frac = converted frac := rfl
  rw [quantize_eq_converted, @quantize_eq_converted K arithmetic.truncating, same]
  have whole := converted_of_exact isExact.exact frac
  rw [same] at whole
  cases isConverted : converted frac with
  | none => rfl
  | some value =>
      rw [isConverted] at whole
      have truncated : value = towardsZero frac := by
        split at whole
        · exact Option.some.inj whole
        · cases whole
      have inRange := fits value isConverted
      rw [truncated] at inRange ⊢
      have agrees : toInt (towardsZero frac : K) =
          towardsZero (towardsZero frac : K) := by
        rw [towardsZero_intCast]
        exact isExact.toInt _ inRange
      simp only [agrees]
      rfl

private theorem process_truncating (isExact : CFloat.ExactWithin arithmetic)
    (fits : ∀ value ∈ conversions ctx inDx inDy, FitsInt value) :
    yaMouseFilterProcess ctx inDx inDy =
      @yaMouseFilterProcess K arithmetic.truncating ctx inDx inDy := by
  cases enabled : ctx.algorithmsEnabled with
  | false => simp only [yaMouseFilterProcess, enabled, Bool.not_false, if_true]
  | true =>
      simp only [conversions, enabled, Bool.not_true, Bool.false_eq_true, if_false,
        List.mem_append, Option.mem_toList] at fits
      rw [yaMouseFilterProcess_parts enabled,
        @yaMouseFilterProcess_parts K arithmetic.truncating ctx enabled,
        quantize_truncating isExact fun value member => fits value (Or.inl member),
        quantize_truncating isExact fun value member => fits value (Or.inr member)]
      rfl

/-- A displacement that fits even with the highest gain is safe. -/
theorem conversions_fit (isExact : CFloat.ExactWithin arithmetic)
    (scaled : 0 ≤ ctx.pointerScale) (small : ctx.Subpixel)
    (fits : FitsTripled ctx.pointerScale inDx inDy) :
    ∀ value ∈ conversions ctx inDx inDy, FitsInt value := by
  cases enabled : ctx.algorithmsEnabled with
  | false => simp [conversions, enabled]
  | true =>
      intro value member
      let call := truncatingCall isExact inDx inDy
      obtain ⟨axis, -, rfl⟩ := (call.mem_conversions_iff enabled).mp member
      have onAxis :
          FitsInt (ctx.pointerScale * ((3 * axis.input call : Int) : K)) := by
        cases axis with
        | x => exact fits.1
        | y => exact fits.2
      exact (call.displacement_fits scaled onAxis).towardsZero_add
        (small.residue_lt axis)

/-- With conversions that fit, a call carries less than a pixel over. -/
theorem process_subpixel (isExact : CFloat.ExactWithin arithmetic)
    (small : ctx.Subpixel)
    (fits : ∀ value ∈ conversions ctx inDx inDy, FitsInt value) :
    (yaMouseFilterProcess ctx inDx inDy).1.Subpixel := by
  rw [process_truncating isExact fits]
  cases enabled : ctx.algorithmsEnabled with
  | false =>
      simp only [yaMouseFilterProcess, enabled, Bool.not_false, if_true,
        apply_ite Prod.fst, ite_self]
      exact small
  | true =>
      have processed := (truncatingCall isExact inDx inDy).process_eq ctx enabled
      change @yaMouseFilterProcess K arithmetic.truncating ctx inDx inDy = _ at processed
      rw [processed]
      exact ⟨abs_sub_towardsZero_lt _, abs_sub_towardsZero_lt _⟩

/-- The filter of a fast pointer: with the displacement in the averages, the
velocity is 102 pixels along the first axis. -/
def fastest (scale : K) (inDx inDy : Int) (restX restY : K) : YaMouseFilter K where
  pointerScale := scale
  algorithmsEnabled := true
  vex := ((1020 - 3 * inDx : Int) : K) / ((7 : Int) : K)
  vey := ((-3 * inDy : Int) : K) / ((7 : Int) : K)
  fracX := restX
  fracY := restY

private theorem gain_fastest (isExact : CFloat.ExactWithin arithmetic) (restX restY : K) :
    (truncatingCall isExact inDx inDy).gain
      (fastest scale inDx inDy restX restY) = 3 := by
  have alongX : 3 / 10 * (inDx : K) +
      (1 - 3 / 10) * (((1020 - 3 * inDx : Int) : K) / ((7 : Int) : K)) = 102 := by
    push_cast
    ring
  have alongY : 3 / 10 * (inDy : K) +
      (1 - 3 / 10) * (((-3 * inDy : Int) : K) / ((7 : Int) : K)) = 0 := by
    push_cast
    ring
  have speed : arithmetic.sqrt (102 * 102) = (102 : K) :=
    isExact.root 102 (by norm_num)
  have boosted : 1 + 2 / 100 * max (102 - 2) 0 = (3 : K) := by norm_num
  change min 3 (1 + 2 / 100 * max (arithmetic.sqrt (_ * _ + _ * _) - 2) 0) = 3
  simp only [truncatingCall, fastest, alongX, alongY, mul_zero, add_zero]
  rw [speed, boosted, min_self]

/-- A displacement is safe for every velocity and every rest exactly if it fits
with the highest gain. -/
theorem conversions_fit_iff (isExact : CFloat.ExactWithin arithmetic)
    (scaled : 0 ≤ scale) :
    (∀ ctx : YaMouseFilter K, ctx.algorithmsEnabled = true →
        ctx.pointerScale = scale → ctx.Subpixel →
        ∀ value ∈ conversions ctx inDx inDy, FitsInt value) ↔
      FitsTripled scale inDx inDy := by
  constructor
  · intro safe
    let call := truncatingCall isExact inDx inDy
    have onAxis (axis : Axis) :
        FitsInt (scale * ((3 * axis.input call : Int) : K)) := by
      by_contra big
      obtain ⟨rest, small, whole, outside⟩ := exists_rest_of_not_fitsInt big
      let ctx := fastest scale inDx inDy (if axis = .x then rest else 0)
        (if axis = .y then rest else 0)
      have sum : call.sum axis ctx =
          rest + scale * ((3 * axis.input call : Int) : K) := by
        rw [FilterCall.sum, FilterCall.displacement, gain_fastest isExact]
        push_cast
        cases axis with
        | x | y =>
            simp only [ctx, fastest, Axis.residue, if_true]
            ring
      have subpixel : ctx.Subpixel := by
        cases axis with
        | x => exact ⟨small, by simp [ctx, fastest]⟩
        | y => exact ⟨by simp [ctx, fastest], small⟩
      refine outside (safe ctx rfl rfl subpixel _ ?_)
      refine (call.mem_conversions_iff rfl).mpr ⟨axis, ?_⟩
      rw [sum]
      exact ⟨whole, rfl⟩
    exact ⟨onAxis .x, onAxis .y⟩
  · rintro fits ctx - rfl small
    exact conversions_fit isExact scaled small fits

end Call

/-! ## The operations -/

/-- The scale is not negative, and less than a pixel is carried over. -/
structure YaMouseFilter.Regular (ctx : YaMouseFilter K) : Prop where
  scaled : 0 ≤ ctx.pointerScale
  subpixel : ctx.Subpixel

section Operations

variable [arithmetic : CFloat K] (isExact : CFloat.ExactWithin arithmetic)
variable {ctx : YaMouseFilter K}

include isExact

theorem constantf_zero_subpixel : |(constantf 0 : K)| < 1 := by
  rw [isExact.constantf, Rat.cast_zero, abs_zero]
  exact zero_lt_one

theorem regular_create : (yaMouseFilterCreate : YaMouseFilter K).Regular where
  scaled := by
    rw [yaMouseFilterCreate, isExact.constantf, Rat.cast_one]
    exact zero_le_one
  subpixel := ⟨constantf_zero_subpixel isExact, constantf_zero_subpixel isExact⟩

theorem YaMouseFilter.Regular.resetState (regular : ctx.Regular) :
    (yaMouseFilterResetState ctx).Regular where
  scaled := regular.scaled
  subpixel := ⟨constantf_zero_subpixel isExact, constantf_zero_subpixel isExact⟩

/-- Whatever the sensitivity is, the scale is at least a tenth. -/
theorem YaMouseFilter.Regular.setPointerScale (regular : ctx.Regular)
    (sensitivity : K) : (yaMouseFilterSetPointerScale ctx sensitivity).Regular := by
  refine ⟨?_, regular.subpixel⟩
  rw [yaMouseFilterSetPointerScale, isExact.fmax, isExact.constantf]
  exact le_max_of_le_left (by norm_num)

theorem YaMouseFilter.Regular.process (regular : ctx.Regular) {inDx inDy : Int}
    (fits : FitsTripled ctx.pointerScale inDx inDy) :
    (yaMouseFilterProcess ctx inDx inDy).1.Regular := by
  have converts := conversions_fit isExact regular.scaled regular.subpixel fits
  have kept := congrArg YaMouseFilter.pointerScale
    (yaMouseFilterProcess_reset ctx inDx inDy)
  refine ⟨?_, process_subpixel isExact regular.subpixel converts⟩
  rw [show (yaMouseFilterProcess ctx inDx inDy).1.pointerScale = _ from kept]
  exact regular.scaled

end Operations

end MouseHero
