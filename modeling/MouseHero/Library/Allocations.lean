import Mathlib.Algebra.Order.Ring.Nat
import Mathlib.Data.List.Basic

/-!
# Calls for memory

What `malloc` and `realloc` answer is a parameter.  The calls are recorded, and a
computation can be asked whether all those that it made were granted.
-/

namespace MouseHero

/-- A call of `malloc` or `realloc`. -/
structure Allocation where
  size : Nat
  granted : Bool

/-- The largest size of an object. -/
abbrev PTRDIFF_MAX : Nat := 2 ^ 63 - 1

/-- What the calls answer, by their number and the size that is asked for: a null
pointer, or the bytes that a new block happens to have.  No block is larger than
an object can be. -/
structure Allocator where
  answer : Nat → Nat → Option (Nat → UInt8)
  bounded : ∀ number size, PTRDIFF_MAX < size → answer number size = none

/-- A value of type `size_t`. -/
def sizeT (value : Nat) : Nat :=
  value % 2 ^ 64

theorem sizeT_of_lt {value : Nat} (small : value < 2 ^ 64) : sizeT value = value :=
  Nat.mod_eq_of_lt small

theorem Allocator.le_of_some {allocator : Allocator} {number size : Nat}
    {fresh : Nat → UInt8} (answered : allocator.answer number size = some fresh) :
    size ≤ PTRDIFF_MAX := by
  by_contra huge
  rw [allocator.bounded _ _ (by omega)] at answered
  cases answered

/-! ## Granted calls -/

/-- All these calls were granted. -/
def AllGranted (calls : List Allocation) : Prop :=
  ∀ call ∈ calls, call.granted = true

/-- The calls for memory since the earlier ones, and whether all are granted. -/
def CallsSince (earlier calls : List Allocation) (granted : Bool) : Prop :=
  ∃ recent, calls = recent ++ earlier ∧ (AllGranted recent ↔ granted = true)

section Granted

variable {earlier middle calls : List Allocation}

theorem allGranted_cons {call : Allocation} :
    AllGranted (call :: calls) ↔ call.granted = true ∧ AllGranted calls :=
  List.forall_mem_cons

theorem callsSince_refl (earlier : List Allocation) :
    CallsSince earlier earlier true :=
  ⟨[], rfl, iff_of_true (fun _ member => absurd member List.not_mem_nil) rfl⟩

theorem CallsSince.asked {more : List Allocation} {granted : Bool}
    (since : CallsSince earlier calls true)
    (asked : ∃ size, more = { size, granted } :: calls) :
    CallsSince earlier more granted := by
  obtain ⟨recent, rfl, all⟩ := since
  obtain ⟨size, rfl⟩ := asked
  refine ⟨{ size, granted } :: recent, rfl, ?_⟩
  rw [allGranted_cons]
  exact and_iff_left (all.mpr rfl)

theorem CallsSince.trans {firstGranted secondGranted : Bool}
    (first : CallsSince earlier middle firstGranted)
    (second : CallsSince middle calls secondGranted) :
    CallsSince earlier calls (firstGranted && secondGranted) := by
  obtain ⟨recent, rfl, all⟩ := first
  obtain ⟨later, rfl, allLater⟩ := second
  refine ⟨later ++ recent, (List.append_assoc ..).symm, ?_⟩
  rw [Bool.and_eq_true, ← all, ← allLater, AllGranted, List.forall_mem_append]
  exact and_comm

end Granted

end MouseHero
