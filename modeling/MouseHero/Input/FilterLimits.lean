import MouseHero.Input.MouseFilter
import MouseHero.Library.ErrorDiffusion
import MouseHero.Library.ExactArithmetic

/-!
# Limits of the mouse filter

What the filter puts out for whole inputs, in exact arithmetic: at least what
the scale makes of them and at most three times as much, up to a pixel.
-/

namespace MouseHero

open ErrorDiffusion

variable {K : Type} [Field K] [LinearOrder K] [IsStrictOrderedRing K] [FloorRing K]

/-! ## Calls -/

/-- An axis of the mouse. -/
inductive Axis where
  | x
  | y
  deriving DecidableEq, Repr

/-- A call of `ya_mouse_filter_process`.  Each call has its own arithmetic, so
that every square root may have another value. -/
structure FilterCall (K : Type) [Field K] [LinearOrder K] [FloorRing K] where
  arithmetic : CFloat K
  exact : CFloat.Exact arithmetic
  inDx : Int
  inDy : Int

namespace FilterCall

/-- The filter behind the call. -/
def after (call : FilterCall K) (ctx : YaMouseFilter K) : YaMouseFilter K :=
  (@yaMouseFilterProcess K call.arithmetic ctx call.inDx call.inDy).1

/-- The steps that the call writes. -/
def steps (call : FilterCall K) (ctx : YaMouseFilter K) : List YaMouseStep :=
  (@yaMouseFilterProcess K call.arithmetic ctx call.inDx call.inDy).2

end FilterCall

namespace Axis

def input (axis : Axis) (call : FilterCall K) : Int :=
  match axis with
  | x => call.inDx
  | y => call.inDy

def output : Axis → YaMouseStep → Int
  | x, step => step.dx
  | y, step => step.dy

def residue : Axis → YaMouseFilter K → K
  | x, ctx => ctx.fracX
  | y, ctx => ctx.fracY

end Axis

/-! The calls have the latest one first. -/

/-- The filter behind some calls. -/
def filterBehind (ctx : YaMouseFilter K) : List (FilterCall K) → YaMouseFilter K
  | [] => ctx
  | call :: earlier => call.after (filterBehind ctx earlier)

/-- All that the calls put out on an axis. -/
def totalOutput (axis : Axis) (ctx : YaMouseFilter K) :
    List (FilterCall K) → Int
  | [] => 0
  | call :: earlier =>
      totalOutput axis ctx earlier +
        ((call.steps (filterBehind ctx earlier)).map axis.output).sum

/-- The gain of a call, as the filter computes it. -/
def FilterCall.gain (call : FilterCall K) (ctx : YaMouseFilter K) : K :=
  let vex : K := 3 / 10 * call.inDx + (1 - 3 / 10) * ctx.vex
  let vey : K := 3 / 10 * call.inDy + (1 - 3 / 10) * ctx.vey
  let speed := call.arithmetic.sqrt (vex * vex + vey * vey)
  min 3 (1 + 2 / 100 * max (speed - 2) 0)

/-- The displacement that a call adds on an axis. -/
def FilterCall.displacement (axis : Axis) (call : FilterCall K)
    (ctx : YaMouseFilter K) : K :=
  axis.input call * (ctx.pointerScale * call.gain ctx)

/-! ## One call -/

section Call

variable (call : FilterCall K) (ctx : YaMouseFilter K)

theorem FilterCall.one_le_gain : 1 ≤ call.gain ctx := by
  have boost (excess : K) : 0 ≤ 2 / 100 * max excess 0 :=
    mul_nonneg (by norm_num) (le_max_right _ _)
  exact le_min (by norm_num) (le_add_of_nonneg_right (boost _))

omit [IsStrictOrderedRing K] in
theorem FilterCall.gain_le_three : call.gain ctx ≤ 3 :=
  min_le_left _ _

theorem quantize_of_exact {arithmetic : CFloat K}
    (isExact : CFloat.Exact arithmetic) (value : K) :
    quantize value = (towardsZero value, value - towardsZero value) := by
  have rounded : arithmetic.toInt
      (if arithmetic.lt (CFloat.constantf 0) value then arithmetic.floor value
        else arithmetic.ceil value) = towardsZero value := by
    rw [isExact.lt, isExact.floor, isExact.ceil, isExact.constantf, towardsZero,
      Rat.cast_zero]
    simp only [decide_eq_true_eq]
    split <;> exact isExact.toInt _
  simp only [quantize]
  rw [rounded, isExact.le, isExact.fabs, isExact.constantf, isExact.subf,
    isExact.singleOfInt, Rat.cast_one]
  by_cases large : 1 ≤ |value|
  · rw [if_pos (by simpa using large)]
  · rw [if_neg (by simpa using large), towardsZero_eq_zero (not_le.mp large),
      Int.cast_zero, sub_zero]

/-- What has accumulated before whole pixels are taken out. -/
def FilterCall.sum (axis : Axis) (call : FilterCall K) (ctx : YaMouseFilter K) : K :=
  axis.residue ctx + call.displacement axis ctx

omit [IsStrictOrderedRing K] in
theorem FilterCall.averages_eq :
    @averages K call.arithmetic ctx call.inDx call.inDy =
      (3 / 10 * call.inDx + (1 - 3 / 10) * ctx.vex,
        3 / 10 * call.inDy + (1 - 3 / 10) * ctx.vey) := by
  obtain ⟨arithmetic, isExact, inDx, inDy⟩ := call
  have three : (CFloat.constantf (3 / 10) : K) = 3 / 10 := by
    rw [isExact.constantf]
    norm_num
  have one : (CFloat.constantf 1 : K) = 1 := by
    rw [isExact.constantf, Rat.cast_one]
  simp only [averages, three, one, isExact.addf, isExact.subf, isExact.mulf,
    isExact.singleOfInt]

omit [IsStrictOrderedRing K] in
theorem FilterCall.accumulatedFrac_eq :
    @accumulatedFrac K call.arithmetic ctx call.inDx call.inDy =
      (call.sum .x ctx, call.sum .y ctx) := by
  have velocities := call.averages_eq ctx
  obtain ⟨arithmetic, isExact, inDx, inDy⟩ := call
  have hundredths : (CFloat.constantf (2 / 100) : K) = 2 / 100 := by
    rw [isExact.constantf]
    norm_num
  have zero : (CFloat.constantf 0 : K) = 0 := by
    rw [isExact.constantf, Rat.cast_zero]
  have one : (CFloat.constantf 1 : K) = 1 := by
    rw [isExact.constantf, Rat.cast_one]
  have two : (CFloat.constantf 2 : K) = 2 := by
    rw [isExact.constantf, Rat.cast_ofNat]
  have most : (CFloat.constantf 3 : K) = 3 := by
    rw [isExact.constantf, Rat.cast_ofNat]
  simp only [accumulatedFrac, velocities, hundredths, zero, one, two, most,
    isExact.addf, isExact.subf, isExact.mulf, isExact.singleOfInt, isExact.powf,
    isExact.lt, decide_eq_true_eq, one_mul, CFloat.sqrtf, isExact.single, sum,
    displacement, gain, Axis.input, Axis.residue, min_def_lt, max_def_lt]

theorem FilterCall.process_eq (enabled : ctx.algorithmsEnabled = true) :
    @yaMouseFilterProcess K call.arithmetic ctx call.inDx call.inDy =
      let sumX := call.sum .x ctx
      let sumY := call.sum .y ctx
      ({ ctx with
          vex := 3 / 10 * call.inDx + (1 - 3 / 10) * ctx.vex
          vey := 3 / 10 * call.inDy + (1 - 3 / 10) * ctx.vey
          fracX := sumX - towardsZero sumX
          fracY := sumY - towardsZero sumY },
        if towardsZero sumX = 0 ∧ towardsZero sumY = 0 then []
        else [{ dx := towardsZero sumX, dy := towardsZero sumY }]) := by
  rw [@yaMouseFilterProcess_parts K call.arithmetic ctx enabled, call.averages_eq,
    call.accumulatedFrac_eq, quantize_of_exact call.exact, quantize_of_exact call.exact]

theorem FilterCall.after_residue (enabled : ctx.algorithmsEnabled = true)
    (axis : Axis) :
    axis.residue (call.after ctx) =
      carry towardsZero (axis.residue ctx)
        (.amount (call.displacement axis ctx)) := by
  rw [after, call.process_eq ctx enabled]
  cases axis with
  | x | y => rfl

theorem FilterCall.steps_output (enabled : ctx.algorithmsEnabled = true)
    (axis : Axis) :
    ((call.steps ctx).map axis.output).sum =
      step towardsZero (axis.residue ctx)
        (.amount (call.displacement axis ctx)) := by
  rw [steps, call.process_eq ctx enabled]
  simp only
  split
  · rename_i zero
    cases axis with
    | x => exact zero.1.symm
    | y => exact zero.2.symm
  · cases axis with
    | x | y => exact add_zero _

theorem FilterCall.after_scale (enabled : ctx.algorithmsEnabled = true) :
    (call.after ctx).pointerScale = ctx.pointerScale ∧
      (call.after ctx).algorithmsEnabled = true := by
  rw [after, call.process_eq ctx enabled]
  exact ⟨rfl, enabled⟩

/-- At most one step is written, and none on an axis without a whole pixel. -/
theorem FilterCall.steps_limit (enabled : ctx.algorithmsEnabled = true) :
    (call.steps ctx).length ≤ 1 ∧
      ∀ axis, |axis.residue ctx + call.displacement axis ctx| < 1 →
        ∀ step ∈ call.steps ctx, axis.output step = 0 := by
  rw [steps, call.process_eq ctx enabled]
  simp only
  split
  · exact ⟨Nat.zero_le 1, fun _ _ step member => absurd member List.not_mem_nil⟩
  · refine ⟨Nat.le_refl 1, fun axis small step member => ?_⟩
    rw [List.mem_singleton.mp member]
    cases axis with
    | x | y => exact towardsZero_eq_zero small

end Call

/-! ## All calls -/

section Calls

variable {ctx : YaMouseFilter K} {calls : List (FilterCall K)} {axis : Axis}

/-- The displacements of the calls on an axis. -/
def displacements (axis : Axis) (ctx : YaMouseFilter K) :
    List (FilterCall K) → List (Input K)
  | [] => []
  | call :: earlier =>
      .amount (call.displacement axis (filterBehind ctx earlier)) ::
        displacements axis ctx earlier

theorem filterBehind_scale (enabled : ctx.algorithmsEnabled = true) :
    (filterBehind ctx calls).pointerScale = ctx.pointerScale ∧
      (filterBehind ctx calls).algorithmsEnabled = true := by
  induction calls with
  | nil => exact ⟨rfl, enabled⟩
  | cons call earlier inductionHypothesis =>
      obtain ⟨same, isEnabled⟩ := inductionHypothesis
      obtain ⟨kept, stays⟩ := call.after_scale _ isEnabled
      exact ⟨kept.trans same, stays⟩

theorem filterBehind_residue (enabled : ctx.algorithmsEnabled = true)
    (reset : axis.residue ctx = 0) :
    axis.residue (filterBehind ctx calls) =
      residue towardsZero (displacements axis ctx calls) := by
  induction calls with
  | nil => exact reset
  | cons call earlier inductionHypothesis =>
      rw [filterBehind, call.after_residue _ (filterBehind_scale enabled).2,
        inductionHypothesis, displacements, residue]

private theorem totalOutput_eq (enabled : ctx.algorithmsEnabled = true)
    (reset : axis.residue ctx = 0) :
    totalOutput axis ctx calls =
      emittedSince towardsZero (displacements axis ctx calls) := by
  induction calls with
  | nil => rfl
  | cons call earlier inductionHypothesis =>
      rw [totalOutput, call.steps_output _ (filterBehind_scale enabled).2,
        filterBehind_residue enabled reset, inductionHypothesis, displacements,
        emittedSince]

/-- What is put out and what is carried over is what has been added. -/
theorem totalOutput_add_residue (enabled : ctx.algorithmsEnabled = true)
    (reset : axis.residue ctx = 0) :
    (totalOutput axis ctx calls : K) + axis.residue (filterBehind ctx calls) =
      requestedSince (displacements axis ctx calls) := by
  rw [totalOutput_eq enabled reset, filterBehind_residue enabled reset]
  exact emittedSince_add_residue _ _

/-- The sum of the inputs on an axis. -/
def inputSum (axis : Axis) (calls : List (FilterCall K)) : Int :=
  (calls.map axis.input).sum

/-- The sum of the sizes of the inputs on an axis. -/
def inputSizes (axis : Axis) (calls : List (FilterCall K)) : Int :=
  (calls.map fun call => |axis.input call|).sum

/-- A displacement lies between the scaled input and three times as much. -/
theorem abs_displacement_le (call : FilterCall K) (axis : Axis)
    (scaled : 0 ≤ ctx.pointerScale) :
    |call.displacement axis ctx| ≤ 3 * ctx.pointerScale * |(axis.input call : K)| := by
  have most := call.gain_le_three ctx
  have least := call.one_le_gain ctx
  have bound : ctx.pointerScale * call.gain ctx ≤ ctx.pointerScale * 3 :=
    mul_le_mul_of_nonneg_left most scaled
  have positive : 0 ≤ ctx.pointerScale * call.gain ctx :=
    mul_nonneg scaled (zero_le_one.trans least)
  rw [FilterCall.displacement, abs_mul, abs_of_nonneg positive]
  calc |(axis.input call : K)| * (ctx.pointerScale * call.gain ctx)
      ≤ |(axis.input call : K)| * (ctx.pointerScale * 3) :=
        mul_le_mul_of_nonneg_left bound (abs_nonneg _)
    _ = 3 * ctx.pointerScale * |(axis.input call : K)| := by ring

theorem displacement_bounds (call : FilterCall K) (axis : Axis)
    (scaled : 0 ≤ ctx.pointerScale) (nonnegative : 0 ≤ axis.input call) :
    ctx.pointerScale * axis.input call ≤ call.displacement axis ctx ∧
      call.displacement axis ctx ≤ 3 * ctx.pointerScale * axis.input call := by
  have input : (0 : K) ≤ axis.input call := Int.cast_nonneg nonnegative
  have most := abs_displacement_le call axis scaled
  have least := mul_le_mul_of_nonneg_left (call.one_le_gain ctx)
    (mul_nonneg scaled input)
  rw [abs_of_nonneg input] at most
  refine ⟨?_, (le_abs_self _).trans most⟩
  rw [FilterCall.displacement]
  calc ctx.pointerScale * axis.input call
      = ctx.pointerScale * axis.input call * 1 := by ring
    _ ≤ ctx.pointerScale * axis.input call * call.gain ctx := least
    _ = axis.input call * (ctx.pointerScale * call.gain ctx) := by ring

private theorem abs_requestedSince_le (enabled : ctx.algorithmsEnabled = true)
    (scaled : 0 ≤ ctx.pointerScale) :
    |requestedSince (displacements axis ctx calls)| ≤
      3 * ctx.pointerScale * inputSizes axis calls := by
  induction calls with
  | nil => simp [displacements, requestedSince, inputSizes]
  | cons call earlier inductionHypothesis =>
      have same := (@filterBehind_scale K _ _ _ _ ctx earlier enabled).1
      have added := @abs_displacement_le K _ _ _ _ (filterBehind ctx earlier) call
        axis (by rwa [same])
      rw [same] at added
      rw [displacements, requestedSince, inputSizes, List.map_cons, List.sum_cons,
        Int.cast_add, Int.cast_abs, mul_add, add_comm (3 * _ * _)]
      exact (abs_add_le _ _).trans (add_le_add inductionHypothesis added)

private theorem requestedSince_bounds (enabled : ctx.algorithmsEnabled = true)
    (scaled : 0 ≤ ctx.pointerScale)
    (nonnegative : ∀ call ∈ calls, 0 ≤ axis.input call) :
    ctx.pointerScale * inputSum axis calls ≤
        requestedSince (displacements axis ctx calls) ∧
      requestedSince (displacements axis ctx calls) ≤
        3 * ctx.pointerScale * inputSum axis calls := by
  induction calls with
  | nil => simp [displacements, requestedSince, inputSum]
  | cons call earlier inductionHypothesis =>
      obtain ⟨here, others⟩ := List.forall_mem_cons.mp nonnegative
      obtain ⟨least, most⟩ := inductionHypothesis others
      have same := (@filterBehind_scale K _ _ _ _ ctx earlier enabled).1
      obtain ⟨addsLeast, addsMost⟩ := @displacement_bounds K _ _ _ _
        (filterBehind ctx earlier) call axis (by rwa [same]) here
      rw [same] at addsLeast addsMost
      rw [displacements, requestedSince, inputSum, List.map_cons, List.sum_cons,
        Int.cast_add, mul_add, mul_add, add_comm (ctx.pointerScale * _),
        add_comm (3 * _ * _)]
      exact ⟨add_le_add least addsLeast, add_le_add most addsMost⟩

private theorem displacements_nonneg (enabled : ctx.algorithmsEnabled = true)
    (scaled : 0 ≤ ctx.pointerScale)
    (nonnegative : ∀ call ∈ calls, 0 ≤ axis.input call) (value : K)
    (member : .amount value ∈ displacements axis ctx calls) : 0 ≤ value := by
  induction calls with
  | nil => cases member
  | cons call earlier inductionHypothesis =>
      obtain ⟨here, others⟩ := List.forall_mem_cons.mp nonnegative
      rcases List.mem_cons.mp member with isLatest | isEarlier
      · have same := (@filterBehind_scale K _ _ _ _ ctx earlier enabled).1
        have least := (@displacement_bounds K _ _ _ _ (filterBehind ctx earlier) call
          axis (by rwa [same]) here).1
        obtain rfl := Input.amount.inj isLatest
        rw [same] at least
        exact (mul_nonneg scaled (Int.cast_nonneg here)).trans least
      · exact inductionHypothesis others isEarlier

end Calls

/-- From a filter without a rest, with the algorithms and a scale of at least a
tenth: what is put out on an axis is less than a pixel more than three times
the scaled inputs.  For inputs that are not negative it is at most that, and
less than a pixel below the scaled inputs.  Every call writes at most one step,
and none on an axis that has not gathered a pixel. -/
theorem yaMouseFilterProcess_limits (ctx : YaMouseFilter K)
    (enabled : ctx.algorithmsEnabled = true) (scaled : 1 / 10 ≤ ctx.pointerScale)
    (axis : Axis) (reset : axis.residue ctx = 0) (calls : List (FilterCall K)) :
    |(totalOutput axis ctx calls : K)| <
        1 + 3 * ctx.pointerScale * inputSizes axis calls ∧
      ((∀ call ∈ calls, 0 ≤ axis.input call) →
        ctx.pointerScale * inputSum axis calls - 1 < totalOutput axis ctx calls ∧
          (totalOutput axis ctx calls : K) ≤
            3 * ctx.pointerScale * inputSum axis calls) ∧
      ∀ later call earlier, calls = later ++ call :: earlier →
        (call.steps (filterBehind ctx earlier)).length ≤ 1 ∧
          (|axis.residue (filterBehind ctx earlier) +
              call.displacement axis (filterBehind ctx earlier)| < 1 →
            ∀ step ∈ call.steps (filterBehind ctx earlier), axis.output step = 0) := by
  have positive : 0 ≤ ctx.pointerScale := le_trans (by norm_num) scaled
  have whole := @totalOutput_add_residue K _ _ _ _ ctx calls axis enabled reset
  have rest := abs_residue_lt abs_sub_towardsZero_lt (displacements axis ctx calls)
  rw [← filterBehind_residue enabled reset] at rest
  refine ⟨?_, ?_, ?_⟩
  · have sum := @abs_requestedSince_le K _ _ _ _ ctx calls axis enabled positive
    have split : (totalOutput axis ctx calls : K) =
        requestedSince (displacements axis ctx calls) -
          axis.residue (filterBehind ctx calls) := eq_sub_of_add_eq whole
    rw [split]
    calc |requestedSince (displacements axis ctx calls) -
          axis.residue (filterBehind ctx calls)|
        ≤ |requestedSince (displacements axis ctx calls)| +
            |axis.residue (filterBehind ctx calls)| := abs_sub _ _
      _ < 1 + 3 * ctx.pointerScale * inputSizes axis calls := by linarith
  · intro nonnegative
    obtain ⟨least, most⟩ := requestedSince_bounds enabled positive nonnegative
    have kept := residue_nonneg (fun _ => sub_towardsZero_nonneg) _
      (displacements_nonneg enabled positive nonnegative)
    rw [← filterBehind_residue enabled reset] at kept
    have below := (abs_lt.mp rest).2
    exact ⟨by linarith, by linarith⟩
  · intro later call earlier _
    obtain ⟨once, none⟩ := call.steps_limit _ (filterBehind_scale enabled).2
    exact ⟨once, none axis⟩

/-- Three pixels to the right. -/
def threeRight : FilterCall Rat where
  arithmetic := CFloat.exact
  exact := CFloat.exact_exact
  inDx := 3
  inDy := 0

theorem yaMouseFilterProcess_limits_threeRight :
    (yaMouseFilterCreate : YaMouseFilter Rat).pointerScale *
          inputSum .x [threeRight, threeRight] - 1 <
        totalOutput .x yaMouseFilterCreate [threeRight, threeRight] ∧
      (totalOutput .x yaMouseFilterCreate [threeRight, threeRight] : Rat) ≤
        3 * (yaMouseFilterCreate : YaMouseFilter Rat).pointerScale *
          inputSum .x [threeRight, threeRight] :=
  (yaMouseFilterProcess_limits yaMouseFilterCreate rfl (by decide +kernel) .x rfl
    [threeRight, threeRight]).2.1 (by decide)

end MouseHero
