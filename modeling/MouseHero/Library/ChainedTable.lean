import Mathlib.Data.List.Find
import Mathlib.Data.List.Perm.Basic

/-!
# Hash tables with chaining

A table maps every slot to a chain of entries.  It refines a list of entries,
the newest first, when each chain holds the entries of its slot in the order
of the list.  Insertion at the head of a chain, updates that keep the slot and
deletion keep the refinement, and a lookup in one chain is a lookup in the
list.
-/

namespace MouseHero.ChainedTable

variable {Entry Slot : Type} [DecidableEq Slot] {hash : Entry → Slot}
variable {chains : Slot → List Entry} {entries : List Entry}

/-- Every chain holds the entries of its slot, in the order of the list. -/
def Refines (hash : Entry → Slot) (chains : Slot → List Entry)
    (entries : List Entry) : Prop :=
  ∀ slot, chains slot = entries.filter fun entry => hash entry = slot

/-- Put an entry at the head of its chain. -/
def insert (hash : Entry → Slot) (chains : Slot → List Entry)
    (entry : Entry) : Slot → List Entry := fun slot =>
  if slot = hash entry then entry :: chains slot else chains slot

/-- Change entries in place. -/
def update (change : Entry → Entry) (chains : Slot → List Entry) :
    Slot → List Entry := fun slot =>
  (chains slot).map change

/-- Unlink the first entry of a chain that satisfies the test. -/
def unlink (test : Entry → Bool) (slot : Slot)
    (chains : Slot → List Entry) : Slot → List Entry := fun other =>
  if other = slot then (chains other).eraseP test else chains other

theorem refines_empty : Refines hash (fun _ => []) [] :=
  fun _ => rfl

theorem Refines.insert (refines : Refines hash chains entries)
    (entry : Entry) :
    Refines hash (insert hash chains entry) (entry :: entries) := by
  intro slot
  by_cases same : slot = hash entry
  · simp [ChainedTable.insert, same, refines (hash entry)]
  · have other : hash entry ≠ slot := fun equal => same equal.symm
    simp [ChainedTable.insert, same, other, refines slot]

theorem Refines.update (refines : Refines hash chains entries)
    {change : Entry → Entry}
    (keepsSlot : ∀ entry ∈ entries, hash (change entry) = hash entry) :
    Refines hash (update change chains) (entries.map change) := by
  intro slot
  have sameTest :
      entries.filter (fun entry => hash (change entry) = slot) =
        entries.filter (fun entry => hash entry = slot) :=
    List.filter_congr fun entry member => by rw [keepsSlot entry member]
  rw [ChainedTable.update, refines slot, List.filter_map, ← sameTest]
  rfl

theorem Refines.mem_iff (refines : Refines hash chains entries)
    {entry : Entry} {slot : Slot} :
    entry ∈ chains slot ↔ entry ∈ entries ∧ hash entry = slot := by
  simp [refines slot]

/-- Deleting the first entry that satisfies a test, when at most one does. -/
theorem eraseP_eq_filter {test : Entry → Bool} {list : List Entry}
    (unique :
      list.Pairwise fun first second => ¬ (test first ∧ test second)) :
    list.eraseP test = list.filter fun entry => !test entry := by
  induction list with
  | nil => rfl
  | cons head tail inductionHypothesis =>
      rw [List.pairwise_cons] at unique
      cases matching : test head with
      | true =>
          have others : ∀ entry ∈ tail, (!test entry) = true := by
            intro entry member
            have := unique.1 entry member
            simp only [matching, true_and] at this
            simpa using this
          simp [matching, List.filter_eq_self.mpr others]
      | false => simp [matching, inductionHypothesis unique.2]

/-- Unlinking an entry from the chain of its slot deletes it from the list. -/
theorem Refines.unlink (refines : Refines hash chains entries)
    {test : Entry → Bool} {slot : Slot}
    (unique :
      entries.Pairwise fun first second => ¬ (test first ∧ test second))
    (inSlot : ∀ entry ∈ entries, test entry → hash entry = slot) :
    Refines hash (unlink test slot chains)
      (entries.filter fun entry => !test entry) := by
  intro other
  rw [ChainedTable.unlink, List.filter_filter]
  by_cases same : other = slot
  · rw [if_pos same, refines other,
      eraseP_eq_filter (unique.sublist List.filter_sublist),
      List.filter_filter]
    apply List.filter_congr
    intro entry _
    exact Bool.and_comm _ _
  · rw [if_neg same, refines other]
    apply List.filter_congr
    intro entry member
    cases matching : test entry with
    | true =>
        have elsewhere : hash entry ≠ other := by
          rw [inSlot entry member matching]
          exact Ne.symm same
        simp [elsewhere]
    | false => simp

theorem find?_eq_some_iff_of_unique {test : Entry → Bool}
    {list : List Entry} {entry : Entry}
    (unique :
      ∀ first ∈ list, ∀ second ∈ list,
        test first → test second → first = second) :
    list.find? test = some entry ↔ entry ∈ list ∧ test entry := by
  constructor
  · intro found
    exact ⟨List.mem_of_find?_eq_some found, List.find?_some found⟩
  · rintro ⟨member, matching⟩
    cases found : list.find? test with
    | none => exact absurd matching (List.find?_eq_none.mp found entry member)
    | some other =>
        rw [unique other (List.mem_of_find?_eq_some found) entry member
          (List.find?_some found) matching]

/-- The order of the entries does not matter to such a lookup. -/
theorem find?_perm_of_unique {test : Entry → Bool}
    {first second : List Entry} (perm : first.Perm second)
    (unique :
      ∀ left ∈ second, ∀ right ∈ second,
        test left → test right → left = right) :
    first.find? test = second.find? test := by
  apply Option.ext
  intro entry
  rw [find?_eq_some_iff_of_unique unique, find?_eq_some_iff_of_unique, perm.mem_iff]
  intro left leftMember right rightMember
  exact unique left (perm.mem_iff.mp leftMember) right
    (perm.mem_iff.mp rightMember)

/-- A lookup in the chain of a slot that determines the sought entries. -/
theorem Refines.find? (refines : Refines hash chains entries)
    {test : Entry → Bool} {slot : Slot}
    (inSlot : ∀ entry ∈ entries, test entry → hash entry = slot) :
    (chains slot).find? test = entries.find? test := by
  rw [refines slot, List.find?_filter]
  apply List.find?_congr
  intro entry member
  cases matching : test entry with
  | true => simp [inSlot entry member matching]
  | false => simp

theorem flatMap_single {slots : List Slot} {slot : Slot}
    (nodup : slots.Nodup) (member : slot ∈ slots) (entry : Entry) :
    (slots.flatMap fun other => if slot = other then [entry] else []) =
      [entry] := by
  induction slots with
  | nil => cases member
  | cons head tail inductionHypothesis =>
      rw [List.nodup_cons] at nodup
      by_cases same : slot = head
      · have elsewhere :
            (tail.flatMap fun other => if slot = other then [entry] else []) =
              [] := by
          rw [List.flatMap_eq_nil_iff]
          intro other otherMember
          have different : slot ≠ other := by
            rintro rfl
            exact nodup.1 (same ▸ otherMember)
          rw [if_neg different]
        rw [List.flatMap_cons, elsewhere, if_pos same, List.append_nil]
      · have inTail : slot ∈ tail := by
          rcases List.mem_cons.mp member with equal | inTail
          · exact absurd equal same
          · exact inTail
        rw [List.flatMap_cons, if_neg same, List.nil_append,
          inductionHypothesis nodup.2 inTail]

theorem flatMap_insert_perm {slots : List Slot} {entry : Entry}
    (nodup : slots.Nodup) (member : hash entry ∈ slots)
    (chains : Slot → List Entry) :
    (slots.flatMap (insert hash chains entry)).Perm
      (entry :: slots.flatMap chains) := by
  have split :
      insert hash chains entry = fun slot =>
        (if hash entry = slot then [entry] else []) ++ chains slot := by
    funext slot
    by_cases same : slot = hash entry
    · simp [insert, same]
    · simp [insert, same, Ne.symm same]
  rw [split]
  refine (List.flatMap_append_perm slots _ _).symm.trans ?_
  rw [flatMap_single nodup member]
  exact List.Perm.refl _

theorem Refines.perm (refines : Refines hash chains entries)
    {slots : List Slot} (nodup : slots.Nodup)
    (complete : ∀ slot, slot ∈ slots) :
    (slots.flatMap chains).Perm entries := by
  have chainsEq :
      chains = fun slot => entries.filter fun entry => hash entry = slot :=
    funext refines
  subst chainsEq
  clear refines
  induction entries with
  | nil => simp
  | cons entry rest inductionHypothesis =>
      have split :
          (fun slot =>
              (entry :: rest).filter fun other => hash other = slot) =
            fun slot =>
              (if hash entry = slot then [entry] else []) ++
                rest.filter fun other => hash other = slot := by
        funext slot
        by_cases same : hash entry = slot <;> simp [same]
      rw [split]
      refine (List.flatMap_append_perm slots _ _).symm.trans ?_
      rw [flatMap_single nodup (complete _)]
      exact inductionHypothesis.cons entry

end MouseHero.ChainedTable
