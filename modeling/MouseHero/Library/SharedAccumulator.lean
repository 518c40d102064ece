import Mathlib.Algebra.BigOperators.Group.Finset.Piecewise

/-!
# Shared accumulators

Several owners deposit into one accumulator.  An operation that drains it hands
over all that it holds, whoever has deposited it.  No amount is lost, and an
owner gets back its own deposits as long as what is drained has been deposited
by the one who drains.
-/

namespace MouseHero.SharedAccumulator

open Finset

variable {Owner Amount : Type}

/-- A deposit, which may be followed by handing over to the depositor all that
has accumulated. -/
structure Operation (Owner Amount : Type) where
  owner : Owner
  amount : Amount
  drains : Bool

variable [AddCommGroup Amount]

/-! The operations have the latest one first. -/

/-- What the accumulator holds. -/
def contents : List (Operation Owner Amount) → Amount
  | [] => 0
  | operation :: earlier =>
      if operation.drains then 0 else contents earlier + operation.amount

section Contents

variable {operation : Operation Owner Amount}
variable {earlier : List (Operation Owner Amount)}

theorem contents_of_drains (drains : operation.drains = true) :
    contents (operation :: earlier) = 0 :=
  if_pos drains

theorem contents_of_not_drains (keeps : ¬ operation.drains = true) :
    contents (operation :: earlier) = contents earlier + operation.amount :=
  if_neg keeps

end Contents

variable [DecidableEq Owner]

/-- What has been handed over to an owner. -/
def handed (owner : Owner) : List (Operation Owner Amount) → Amount
  | [] => 0
  | operation :: earlier =>
      handed owner earlier +
        if operation.drains ∧ operation.owner = owner then
          contents earlier + operation.amount
        else 0

/-- What an owner has deposited. -/
def deposited (owner : Owner) : List (Operation Owner Amount) → Amount
  | [] => 0
  | operation :: earlier =>
      deposited owner earlier +
        if operation.owner = owner then operation.amount else 0

/-- What an owner has deposited since the accumulator was drained. -/
def pending (owner : Owner) : List (Operation Owner Amount) → Amount
  | [] => 0
  | operation :: earlier =>
      if operation.drains then 0
      else
        pending owner earlier +
          if operation.owner = owner then operation.amount else 0

/-- Nobody drains what another owner has deposited. -/
def Unmixed : List (Operation Owner Amount) → Prop
  | [] => True
  | operation :: earlier =>
      (operation.drains →
        ∀ other, other ≠ operation.owner → pending other earlier = 0) ∧
      Unmixed earlier

section Drains

variable {operation : Operation Owner Amount}
variable {earlier : List (Operation Owner Amount)}

theorem pending_of_drains (owner : Owner) (drains : operation.drains = true) :
    pending owner (operation :: earlier) = 0 :=
  if_pos drains

theorem pending_of_not_drains (owner : Owner)
    (keeps : ¬ operation.drains = true) :
    pending owner (operation :: earlier) =
      pending owner earlier +
        if operation.owner = owner then operation.amount else 0 :=
  if_neg keeps

theorem handed_of_not_drains (owner : Owner)
    (keeps : ¬ operation.drains = true) :
    handed owner (operation :: earlier) = handed owner earlier := by
  rw [handed, if_neg fun both => keeps both.1, add_zero]

theorem handed_of_ne {owner : Owner} (different : operation.owner ≠ owner) :
    handed owner (operation :: earlier) = handed owner earlier := by
  rw [handed, if_neg fun both => different both.2, add_zero]

theorem handed_of_drains (drains : operation.drains = true) :
    handed operation.owner (operation :: earlier) =
      handed operation.owner earlier +
        (contents earlier + operation.amount) := by
  rw [handed, if_pos ⟨drains, rfl⟩]

end Drains

/-! ## All owners -/

/-- The operations are those of the owners. -/
def OwnedBy (owners : Finset Owner)
    (operations : List (Operation Owner Amount)) : Prop :=
  ∀ operation ∈ operations, operation.owner ∈ owners

omit [AddCommGroup Amount] [DecidableEq Owner] in
theorem OwnedBy.earlier {owners : Finset Owner}
    {operation : Operation Owner Amount}
    {earlier : List (Operation Owner Amount)}
    (owned : OwnedBy owners (operation :: earlier)) : OwnedBy owners earlier :=
  fun other member => owned other (List.mem_cons_of_mem operation member)

section Sums

variable {owners : Finset Owner} {operations : List (Operation Owner Amount)}

theorem sum_pending (owned : OwnedBy owners operations) :
    ∑ owner ∈ owners, pending owner operations = contents operations := by
  induction operations with
  | nil => exact sum_const_zero
  | cons operation earlier inductionHypothesis =>
      by_cases drains : operation.drains = true
      · rw [contents_of_drains drains]
        exact sum_eq_zero fun owner _ => pending_of_drains owner drains
      · have member := owned operation List.mem_cons_self
        simp only [pending_of_not_drains _ drains]
        rw [contents_of_not_drains drains, sum_add_distrib,
          inductionHypothesis owned.earlier, sum_ite_eq, if_pos member]

theorem sum_handed (owned : OwnedBy owners operations) :
    ∑ owner ∈ owners, handed owner operations + contents operations =
      ∑ owner ∈ owners, deposited owner operations := by
  induction operations with
  | nil => exact add_zero _
  | cons operation earlier inductionHypothesis =>
      have member := owned operation List.mem_cons_self
      have balance := inductionHypothesis owned.earlier
      simp only [deposited]
      rw [sum_add_distrib, sum_ite_eq, if_pos member, ← balance]
      by_cases drains : operation.drains = true
      · simp only [handed, drains, true_and]
        rw [sum_add_distrib, sum_ite_eq, if_pos member,
          contents_of_drains drains, add_zero, add_assoc]
      · simp only [handed_of_not_drains _ drains]
        rw [contents_of_not_drains drains, add_assoc]

end Sums

/-! ## One owner -/

section Balance

variable {operations : List (Operation Owner Amount)}

theorem pending_of_not_mem {owner : Owner}
    (absent : owner ∉ operations.map Operation.owner) :
    pending owner operations = 0 := by
  induction operations with
  | nil => rfl
  | cons operation earlier inductionHypothesis =>
      rw [List.map_cons, List.mem_cons, not_or] at absent
      by_cases drains : operation.drains = true
      · exact pending_of_drains owner drains
      · rw [pending_of_not_drains owner drains, if_neg (Ne.symm absent.1),
          inductionHypothesis absent.2, add_zero]

theorem contents_eq_pending {owner : Owner}
    (others : ∀ other, other ≠ owner → pending other operations = 0) :
    contents operations = pending owner operations := by
  let owners := insert owner (operations.map Operation.owner).toFinset
  have owned : OwnedBy owners operations := by
    intro operation member
    exact mem_insert_of_mem
      (List.mem_toFinset.mpr (List.mem_map_of_mem member))
  rw [← sum_pending owned]
  exact sum_eq_single_of_mem owner (mem_insert_self _ _)
    fun other _ different => others other different

/-- Every owner has got back its deposits, except for what is pending. -/
theorem handed_add_pending (unmixed : Unmixed operations) (owner : Owner) :
    handed owner operations + pending owner operations =
      deposited owner operations := by
  induction operations with
  | nil => exact add_zero _
  | cons operation earlier inductionHypothesis =>
      obtain ⟨own, unmixedEarlier⟩ := unmixed
      have balance := inductionHypothesis unmixedEarlier
      rw [deposited, ← balance]
      by_cases drains : operation.drains = true
      · rw [pending_of_drains owner drains, add_zero]
        by_cases same : operation.owner = owner
        · cases same
          rw [handed_of_drains drains, contents_eq_pending (own drains),
            if_pos rfl, add_assoc]
        · rw [handed_of_ne same, own drains owner (Ne.symm same), if_neg same,
            add_zero, add_zero]
      · rw [handed_of_not_drains owner drains,
          pending_of_not_drains owner drains, add_assoc]

/-- The accounts balance at every point exactly if nothing is mixed. -/
theorem unmixed_iff :
    Unmixed operations ↔
      ∀ rest, rest <:+ operations → ∀ owner,
        handed owner rest + pending owner rest = deposited owner rest := by
  induction operations with
  | nil =>
      refine iff_of_true trivial fun rest suffix owner => ?_
      rw [List.suffix_nil.mp suffix]
      exact add_zero _
  | cons operation earlier inductionHypothesis =>
      constructor
      · intro unmixed rest suffix owner
        rcases List.suffix_cons_iff.mp suffix with rfl | before
        · exact handed_add_pending unmixed owner
        · exact inductionHypothesis.mp unmixed.2 rest before owner
      · intro balances
        have before : Unmixed earlier :=
          inductionHypothesis.mpr fun rest suffix =>
            balances rest (suffix.trans (List.suffix_cons operation earlier))
        refine ⟨fun drains other different => ?_, before⟩
        have first := handed_add_pending before other
        have last := balances _ List.suffix_rfl other
        rw [handed_of_ne (Ne.symm different), pending_of_drains other drains,
          deposited, if_neg (Ne.symm different), add_zero, add_zero] at last
        rw [last] at first
        exact add_eq_left.mp first

end Balance

end MouseHero.SharedAccumulator
