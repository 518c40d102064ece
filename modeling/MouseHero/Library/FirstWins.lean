import Mathlib.Data.Finset.Card
import Mathlib.Data.List.Nodup

/-!
# Tables in which the first one wins

A scan puts entries into a table unless their key is in it already or the table
is full.  If there is room for all keys, a search in the table finds what a
search in the scanned entries finds.
-/

namespace MouseHero.FirstWins

variable {Entry Key : Type} [DecidableEq Key] (key : Entry → Key)
variable (capacity : Nat)

/-- Put an entry behind the others. -/
def enrol (table : List Entry) (entry : Entry) : List Entry :=
  if table.any (fun other => key other = key entry) = false ∧
      table.length < capacity then
    table ++ [entry]
  else table

/-- The table after a scan. -/
def enrolAll (entries : List Entry) : List Entry :=
  entries.foldl (enrol key capacity) []

/-- The first entry with a key. -/
def first (wanted : Key) (entries : List Entry) : Option Entry :=
  entries.find? fun entry => key entry = wanted

/-- There is room for all keys. -/
def Fits (entries : List Entry) : Prop :=
  (entries.map key).toFinset.card ≤ capacity

variable {key capacity}
variable {entries table : List Entry} {entry : Entry}

theorem enrolAll_append (entries : List Entry) (entry : Entry) :
    enrolAll key capacity (entries ++ [entry]) =
      enrol key capacity (enrolAll key capacity entries) entry :=
  List.foldl_concat ..

theorem any_eq_false_iff :
    table.any (fun other => key other = key entry) = false ↔
      key entry ∉ table.map key := by
  simp [List.any_eq_false]

theorem nodup_enrol (nodup : (table.map key).Nodup) :
    ((enrol key capacity table entry).map key).Nodup := by
  rw [enrol]
  split
  · rename_i enrolled
    rw [List.map_append, List.map_singleton]
    exact (List.nodup_append_comm.trans List.nodup_cons).mpr
      ⟨any_eq_false_iff.mp enrolled.1, nodup⟩
  · exact nodup

theorem nodup_enrolAll (entries : List Entry) :
    ((enrolAll key capacity entries).map key).Nodup := by
  induction entries using List.reverseRecOn with
  | nil => exact List.nodup_nil
  | append_singleton entries entry inductionHypothesis =>
      rw [enrolAll_append]
      exact nodup_enrol inductionHypothesis

theorem length_enrolAll_le (entries : List Entry) :
    (enrolAll key capacity entries).length ≤ capacity := by
  induction entries using List.reverseRecOn with
  | nil => exact Nat.zero_le _
  | append_singleton entries entry inductionHypothesis =>
      rw [enrolAll_append, enrol]
      split
      · rename_i enrolled
        rw [List.length_append]
        exact enrolled.2
      · exact inductionHypothesis

theorem enrolAll_subset (entries : List Entry) :
    enrolAll key capacity entries ⊆ entries := by
  induction entries using List.reverseRecOn with
  | nil => exact List.Subset.refl _
  | append_singleton entries entry inductionHypothesis =>
      have before := List.Subset.trans inductionHypothesis
        (List.subset_append_left entries [entry])
      rw [enrolAll_append, enrol]
      split
      · exact List.append_subset.mpr
          ⟨before, List.subset_append_right entries [entry]⟩
      · exact before

theorem Fits.before (fits : Fits key capacity (entries ++ [entry])) :
    Fits key capacity entries := by
  refine (Finset.card_le_card ?_).trans fits
  rw [List.map_append, List.toFinset_append]
  exact Finset.subset_union_left

/-- A table with room for all keys is not full in front of a new one. -/
theorem length_lt_capacity (fits : Fits key capacity (entries ++ [entry]))
    (isNew : key entry ∉ (enrolAll key capacity entries).map key) :
    (enrolAll key capacity entries).length < capacity := by
  have distinct : (key entry :: (enrolAll key capacity entries).map key).Nodup :=
    List.nodup_cons.mpr ⟨isNew, nodup_enrolAll entries⟩
  have scanned : key entry :: (enrolAll key capacity entries).map key ⊆
      (entries ++ [entry]).map key := by
    rw [List.map_append]
    refine List.cons_subset.mpr
      ⟨List.mem_append_right _ (List.mem_singleton_self _), ?_⟩
    exact List.Subset.trans (List.map_subset key (enrolAll_subset entries))
      (List.subset_append_left _ _)
  have count := List.toFinset_card_of_nodup distinct
  rw [List.length_cons, List.length_map] at count
  have bound : (key entry ::
        (enrolAll key capacity entries).map key).toFinset.card ≤
      ((entries ++ [entry]).map key).toFinset.card := by
    apply Finset.card_le_card
    intro other member
    exact List.mem_toFinset.mpr (scanned (List.mem_toFinset.mp member))
  rw [count] at bound
  exact bound.trans fits

theorem first_append (wanted : Key) (entries : List Entry) (entry : Entry) :
    first key wanted (entries ++ [entry]) =
      (first key wanted entries).or (first key wanted [entry]) :=
  List.find?_append ..

theorem first_isSome_iff (wanted : Key) :
    (first key wanted table).isSome = true ↔ wanted ∈ table.map key := by
  simp [first, List.find?_isSome]

/-- With room for all keys, the table answers as the scan does. -/
theorem first_enrolAll (fits : Fits key capacity entries) (wanted : Key) :
    first key wanted (enrolAll key capacity entries) =
      first key wanted entries := by
  induction entries using List.reverseRecOn with
  | nil => rfl
  | append_singleton entries entry inductionHypothesis =>
      have before := inductionHypothesis fits.before
      rw [enrolAll_append, enrol, first_append, ← before]
      by_cases isNew : key entry ∉ (enrolAll key capacity entries).map key
      · have room := length_lt_capacity fits isNew
        rw [if_pos ⟨any_eq_false_iff.mpr isNew, room⟩, first_append]
      · rw [if_neg fun enrolled => isNew (any_eq_false_iff.mp enrolled.1)]
        -- The entry is not the first one with its key.
        by_cases same : key entry = wanted
        · rw [same, not_not, ← first_isSome_iff] at isNew
          rw [Option.or_of_isSome isNew]
        · have other : first key wanted [entry] = none := by
            simp [first, same]
          rw [other, Option.or_none]

end MouseHero.FirstWins
