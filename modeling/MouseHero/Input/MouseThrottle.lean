import MouseHero.Library.CFloat
import Mathlib.Algebra.Order.Group.Unbundled.Abs
import Mathlib.Algebra.Order.Ring.Int

/-!
# The mouse throttle

`ya_mouse_throttle.c`: one accumulator for the displacements of all clients,
emitted at most every few milliseconds.  The reading of the monotonic clock is
an argument.
-/

namespace MouseHero

open CFloat

section Functions

variable (F : Type) [CFloat F]

/-- `struct timespec`. -/
structure Timespec where
  sec : Int
  nsec : Int
  deriving DecidableEq, Repr

/-- `YAMouseThrottleState`. -/
structure YAMouseThrottleState where
  lastEmit : Timespec
  hasLastEmit : Bool
  accumDx : Int
  accumDy : Int
  deriving DecidableEq, Repr

/-- The initial value of `g_mouse_throttle`. -/
def YAMouseThrottleState.initial : YAMouseThrottleState where
  lastEmit := { sec := 0, nsec := 0 }
  hasLastEmit := false
  accumDx := 0
  accumDy := 0

/-- `timespec_diff_ms`. -/
def timespecDiffMs (lhs rhs : Timespec) : F :=
  add (mul (ofInt (lhs.sec - rhs.sec)) (constant 1000))
    (div (ofInt (lhs.nsec - rhs.nsec)) (constant 1000000))

/-- `get_accumulated_distance`. -/
def getAccumulatedDistance (state : YAMouseThrottleState) : Int :=
  state.accumDx.natAbs + state.accumDy.natAbs

/-- `ya_mouse_throttle_reset`. -/
def yaMouseThrottleReset (state : YAMouseThrottleState) :
    YAMouseThrottleState :=
  { state with accumDx := 0, accumDy := 0, hasLastEmit := false }

/-- `ya_mouse_throttle_collect`: the emitted displacement, if there is one. -/
def yaMouseThrottleCollect (state : YAMouseThrottleState) (dx dy : Int)
    (forceFlush : Bool) (now : Timespec) :
    YAMouseThrottleState × Option (Int × Int) :=
  let state :=
    { state with accumDx := state.accumDx + dx, accumDy := state.accumDy + dy }
  let threshold : F :=
    if getAccumulatedDistance state < 3 then constant 4 else constant 8
  let shouldEmit :=
    forceFlush || !state.hasLastEmit ||
      le threshold (timespecDiffMs F now state.lastEmit)
  if !shouldEmit then
    (state, none)
  else if state.accumDx = 0 ∧ state.accumDy = 0 then
    ({ state with lastEmit := now, hasLastEmit := true }, none)
  else
    ({ lastEmit := now, hasLastEmit := true, accumDx := 0, accumDy := 0 },
      some (state.accumDx, state.accumDy))

/-- `ya_mouse_throttle_flush`. -/
def yaMouseThrottleFlush (state : YAMouseThrottleState) (now : Timespec) :
    YAMouseThrottleState × Option (Int × Int) :=
  if state.accumDx = 0 ∧ state.accumDy = 0 then
    (state, none)
  else
    ({ lastEmit := now, hasLastEmit := true, accumDx := 0, accumDy := 0 },
      some (state.accumDx, state.accumDy))

end Functions

variable {F : Type} [CFloat F]

/-! ## What has accumulated -/

/-- What the throttle has accumulated. -/
def YAMouseThrottleState.accumulated (state : YAMouseThrottleState) :
    Int × Int :=
  (state.accumDx, state.accumDy)

/-- The sum of the two distances, in pixels. -/
def manhattan (displacement : Int × Int) : Int :=
  |displacement.1| + |displacement.2|

/-- The throttle with another displacement in it. -/
def YAMouseThrottleState.adding (state : YAMouseThrottleState)
    (displacement : Int × Int) : YAMouseThrottleState :=
  { state with
    accumDx := state.accumDx + displacement.1
    accumDy := state.accumDy + displacement.2 }

/-- With what is in the throttle, it is time to emit. -/
def YAMouseThrottleState.due (F : Type) [CFloat F]
    (state : YAMouseThrottleState) (now : Timespec) : Bool :=
  let threshold : F :=
    if getAccumulatedDistance state < 3 then constant 4 else constant 8
  !state.hasLastEmit || le threshold (timespecDiffMs F now state.lastEmit)

section Throttle

variable {state : YAMouseThrottleState} {displacement : Int × Int}
variable {now : Timespec}

theorem getAccumulatedDistance_eq (state : YAMouseThrottleState) :
    getAccumulatedDistance state = manhattan state.accumulated := by
  simp [getAccumulatedDistance, manhattan, YAMouseThrottleState.accumulated]

theorem yaMouseThrottleCollect_due
    (due : (state.adding displacement).due F now = true) :
    let collected :=
      yaMouseThrottleCollect F state displacement.1 displacement.2 false now
    collected.1.accumulated = 0 ∧
      collected.2.getD 0 = state.accumulated + displacement := by
  have ready : ¬ (!(state.adding displacement).due F now) = true := by
    simp [due]
  simp only [yaMouseThrottleCollect]
  rw [if_neg (by exact ready)]
  split
  · rename_i none
    have empty : state.accumulated + displacement = 0 := Prod.ext none.1 none.2
    exact ⟨empty, empty.symm⟩
  · exact ⟨rfl, rfl⟩

theorem yaMouseThrottleCollect_early
    (early : ¬ (state.adding displacement).due F now = true) :
    yaMouseThrottleCollect F state displacement.1 displacement.2 false now =
      (state.adding displacement, none) := by
  have waits : (!(state.adding displacement).due F now) = true := by
    simpa using early
  exact if_pos waits

omit [CFloat F] in
theorem yaMouseThrottleFlush_output (state : YAMouseThrottleState)
    (now : Timespec) :
    (yaMouseThrottleFlush state now).2.getD 0 = state.accumulated := by
  unfold yaMouseThrottleFlush
  split
  · rename_i none
    exact (Prod.ext none.1 none.2).symm
  · rfl

end Throttle

/-! ## One call -/

/-- The throttle that has emitted at this time. -/
def YAMouseThrottleState.emptiedAt (now : Timespec) : YAMouseThrottleState where
  lastEmit := now
  hasLastEmit := true
  accumDx := 0
  accumDy := 0

section Call

variable (state : YAMouseThrottleState) (now : Timespec)

omit [CFloat F] in
theorem accumulated_eq_zero_iff :
    state.accumulated = 0 ↔ state.accumDx = 0 ∧ state.accumDy = 0 :=
  Prod.mk_eq_zero

/-- `ya_mouse_throttle_collect` on the sums. -/
theorem yaMouseThrottleCollect_eq (displacement : Int × Int) (forceFlush : Bool) :
    let added := state.adding displacement
    yaMouseThrottleCollect F state displacement.1 displacement.2 forceFlush now =
      if !(forceFlush || added.due F now) then (added, none)
      else if added.accumDx = 0 ∧ added.accumDy = 0 then
        ({ added with lastEmit := now, hasLastEmit := true }, none)
      else (.emptiedAt now, some added.accumulated) := by
  intro added
  rw [YAMouseThrottleState.due, ← Bool.or_assoc]
  rfl

/-- The three ways through `ya_mouse_throttle_collect`. -/
theorem yaMouseThrottleCollect_cases (displacement : Int × Int)
    (forceFlush : Bool) :
    let added := state.adding displacement
    let collected :=
      yaMouseThrottleCollect F state displacement.1 displacement.2 forceFlush now
    (¬ (forceFlush || added.due F now) = true ∧ collected = (added, none)) ∨
      ((forceFlush || added.due F now) = true ∧ added.accumulated = 0 ∧
        collected = ({ added with lastEmit := now, hasLastEmit := true }, none)) ∨
      ((forceFlush || added.due F now) = true ∧ added.accumulated ≠ 0 ∧
        collected = (.emptiedAt now, some added.accumulated)) := by
  intro added collected
  have unfolded := @yaMouseThrottleCollect_eq F _ state now displacement forceFlush
  rw [show collected = _ from unfolded, Ne, accumulated_eq_zero_iff]
  by_cases emits : (forceFlush || added.due F now) = true
  · right
    rw [emits]
    by_cases empty : added.accumDx = 0 ∧ added.accumDy = 0
    · exact Or.inl ⟨rfl, empty, if_pos empty⟩
    · exact Or.inr ⟨rfl, empty, if_neg empty⟩
  · rw [Bool.not_eq_true] at emits
    rw [emits]
    exact Or.inl ⟨by decide, rfl⟩

omit [CFloat F] in
/-- The two ways through `ya_mouse_throttle_flush`. -/
theorem yaMouseThrottleFlush_cases :
    (state.accumulated = 0 ∧ yaMouseThrottleFlush state now = (state, none)) ∨
      (state.accumulated ≠ 0 ∧
        yaMouseThrottleFlush state now =
          (.emptiedAt now, some state.accumulated)) := by
  rw [Ne, accumulated_eq_zero_iff]
  by_cases empty : state.accumDx = 0 ∧ state.accumDy = 0
  · exact Or.inl ⟨empty, if_pos empty⟩
  · exact Or.inr ⟨empty, if_neg empty⟩

end Call

end MouseHero
