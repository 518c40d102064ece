import Mathlib.Data.Finset.Basic

/-!
# A ledger of allocations

Each object that is allocated gets an address of its own, and the ledger knows
the addresses in use.
-/

namespace MouseHero

/-- The next address, and the addresses in use. -/
structure Ledger where
  next : Nat
  live : Finset Nat
  bounded : ∀ address ∈ live, address < next

namespace Ledger

/-- Nothing is in use. -/
def empty : Ledger where
  next := 0
  live := ∅
  bounded := by simp

/-- Take the next address. -/
def allocate (ledger : Ledger) : Ledger where
  next := ledger.next + 1
  live := insert ledger.next ledger.live
  bounded := by
    intro address member
    rcases Finset.mem_insert.mp member with rfl | old
    · exact Nat.lt_succ_self _
    · exact Nat.lt_succ_of_lt (ledger.bounded address old)

/-- Give an address back. -/
def release (ledger : Ledger) (address : Nat) : Ledger where
  next := ledger.next
  live := ledger.live.erase address
  bounded := fun other member =>
    ledger.bounded other (Finset.mem_of_mem_erase member)

variable {ledger : Ledger} {address other : Nat}

@[simp]
theorem next_allocate (ledger : Ledger) :
    ledger.allocate.next = ledger.next + 1 :=
  rfl

@[simp]
theorem mem_allocate :
    address ∈ ledger.allocate.live ↔ address = ledger.next ∨ address ∈ ledger.live :=
  Finset.mem_insert

@[simp]
theorem mem_release :
    address ∈ (ledger.release other).live ↔ address ≠ other ∧ address ∈ ledger.live :=
  Finset.mem_erase

theorem next_notMem (ledger : Ledger) : ledger.next ∉ ledger.live :=
  fun member => lt_irrefl _ (ledger.bounded _ member)

/-- An address that is taken and given back later, when the rest is in use that was
in use before. -/
theorem live_release_next {later : Ledger} (same : later.live = ledger.allocate.live) :
    (later.release ledger.next).live = ledger.live :=
  calc (later.release ledger.next).live
      = later.live.erase ledger.next := rfl
    _ = (insert ledger.next ledger.live).erase ledger.next := by
        rw [same]
        rfl
    _ = ledger.live := Finset.erase_insert ledger.next_notMem

end Ledger

end MouseHero
