import MouseHero.Library.CFloat

/-!
# The mouse filter

`ya_mouse_filter.c`: the per-client state that turns displacements into whole
pixel steps.  The setters of the source that ignore their arguments are left
out.
-/

namespace MouseHero

open CFloat

variable {F : Type} [CFloat F]

/-- `ya_mouse_filter_t`. -/
structure YaMouseFilter (F : Type) where
  pointerScale : F
  algorithmsEnabled : Bool
  vex : F
  vey : F
  fracX : F
  fracY : F
  deriving DecidableEq, Repr

/-- `ya_mouse_step_t`. -/
structure YaMouseStep where
  dx : Int
  dy : Int
  deriving DecidableEq, Repr

/-- `ya_mouse_filter_create`, when the allocation succeeds. -/
def yaMouseFilterCreate : YaMouseFilter F where
  pointerScale := constantf 1
  algorithmsEnabled := true
  vex := constantf 0
  vey := constantf 0
  fracX := constantf 0
  fracY := constantf 0

/-- `ya_mouse_filter_reset_state`. -/
def yaMouseFilterResetState (ctx : YaMouseFilter F) : YaMouseFilter F :=
  { ctx with
    vex := constantf 0
    vey := constantf 0
    fracX := constantf 0
    fracY := constantf 0 }

/-- `ya_mouse_filter_set_pointer_scale`. -/
def yaMouseFilterSetPointerScale (ctx : YaMouseFilter F) (sensitivity : F) :
    YaMouseFilter F :=
  { ctx with pointerScale := fmax (constantf (1 / 10)) sensitivity }

/-- `ya_mouse_filter_set_algorithms_enabled`. -/
def yaMouseFilterSetAlgorithmsEnabled (ctx : YaMouseFilter F)
    (enabled : Bool) : YaMouseFilter F :=
  { ctx with algorithmsEnabled := enabled }

/-- The whole pixels of an accumulated displacement, rounded towards zero,
and the remainder. -/
def quantize (frac : F) : Int × F :=
  if le (constantf 1) (fabs frac) then
    let pixels :=
      toInt (if lt (constantf 0) frac then floor frac else ceil frac)
    (pixels, subf frac (singleOfInt pixels))
  else
    (0, frac)

/-- `ya_mouse_filter_process`: the new state and the steps it puts out. -/
def yaMouseFilterProcess (ctx : YaMouseFilter F) (inDx inDy : Int) :
    YaMouseFilter F × List YaMouseStep :=
  if !ctx.algorithmsEnabled then
    if inDx = 0 ∧ inDy = 0 then (ctx, [])
    else (ctx, [{ dx := inDx, dy := inDy }])
  else
    let fx : F := singleOfInt inDx
    let fy : F := singleOfInt inDy
    let alphaV := constantf (3 / 10)
    let vex :=
      addf (mulf alphaV fx) (mulf (subf (constantf 1) alphaV) ctx.vex)
    let vey :=
      addf (mulf alphaV fy) (mulf (subf (constantf 1) alphaV) ctx.vey)
    let speed := sqrtf (addf (mulf vex vex) (mulf vey vey))
    let excess := subf speed (constantf 2)
    let dv := if lt excess (constantf 0) then constantf 0 else excess
    let boosted :=
      mulf (constantf 1)
        (addf (constantf 1)
          (mulf (constantf (2 / 100)) (powf dv (constantf 1))))
    let gain := if lt (constantf 3) boosted then constantf 3 else boosted
    let (qx, fracX) :=
      quantize (addf ctx.fracX (mulf fx (mulf ctx.pointerScale gain)))
    let (qy, fracY) :=
      quantize (addf ctx.fracY (mulf fy (mulf ctx.pointerScale gain)))
    let ctx := { ctx with vex, vey, fracX, fracY }
    if qx = 0 ∧ qy = 0 then (ctx, [])
    else (ctx, [{ dx := qx, dy := qy }])

/-! ## The parts of a call -/

/-- The averages of the velocity with another displacement in them. -/
def averages (ctx : YaMouseFilter F) (inDx inDy : Int) : F × F :=
  let alphaV := constantf (3 / 10)
  (addf (mulf alphaV (singleOfInt inDx))
      (mulf (subf (constantf 1) alphaV) ctx.vex),
    addf (mulf alphaV (singleOfInt inDy))
      (mulf (subf (constantf 1) alphaV) ctx.vey))

/-- `frac_x` and `frac_y` with the displacement in them, before whole pixels are
taken out. -/
def accumulatedFrac (ctx : YaMouseFilter F) (inDx inDy : Int) : F × F :=
  let (vex, vey) := averages ctx inDx inDy
  let speed := sqrtf (addf (mulf vex vex) (mulf vey vey))
  let excess := subf speed (constantf 2)
  let dv := if lt excess (constantf 0) then constantf 0 else excess
  let boosted :=
    mulf (constantf 1)
      (addf (constantf 1) (mulf (constantf (2 / 100)) (powf dv (constantf 1))))
  let gain := if lt (constantf 3) boosted then constantf 3 else boosted
  (addf ctx.fracX (mulf (singleOfInt inDx) (mulf ctx.pointerScale gain)),
    addf ctx.fracY (mulf (singleOfInt inDy) (mulf ctx.pointerScale gain)))

/-- A call takes the whole pixels out of what has accumulated. -/
theorem yaMouseFilterProcess_parts {ctx : YaMouseFilter F}
    (enabled : ctx.algorithmsEnabled = true) (inDx inDy : Int) :
    yaMouseFilterProcess ctx inDx inDy =
      let (vex, vey) := averages ctx inDx inDy
      let (qx, fracX) := quantize (accumulatedFrac ctx inDx inDy).1
      let (qy, fracY) := quantize (accumulatedFrac ctx inDx inDy).2
      ({ ctx with vex, vey, fracX, fracY },
        if qx = 0 ∧ qy = 0 then [] else [{ dx := qx, dy := qy }]) := by
  simp only [yaMouseFilterProcess, enabled, Bool.not_true, Bool.false_eq_true,
    if_false]
  exact (apply_ite (Prod.mk _) _ _ _).symm

/-- Processing a displacement changes nothing that is not reset. -/
theorem yaMouseFilterProcess_reset (filter : YaMouseFilter F) (dx dy : Int) :
    yaMouseFilterResetState (yaMouseFilterProcess filter dx dy).1 =
      yaMouseFilterResetState filter := by
  cases enabled : filter.algorithmsEnabled with
  | false =>
      simp only [yaMouseFilterProcess, enabled, Bool.not_false, if_true,
        apply_ite Prod.fst, ite_self]
  | true =>
      rw [yaMouseFilterProcess_parts enabled]
      rfl

end MouseHero
