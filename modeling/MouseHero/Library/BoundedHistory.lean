import Mathlib.Data.List.DropRight

/-!
# Bounded histories

A history that keeps its newest entries only: an entry is added at the end, and
once the history is full, its oldest entry makes room.
-/

namespace MouseHero

namespace BoundedHistory

universe u

variable {Entry : Type u} {capacity : Nat}

/-- Add an entry behind the others. -/
def push (capacity : Nat) (entries : List Entry) (entry : Entry) : List Entry :=
  if entries.length < capacity then entries ++ [entry]
  else entries.tail ++ [entry]

theorem length_rtake (count : Nat) (entries : List Entry) :
    (entries.rtake count).length = min count entries.length := by
  rw [List.rtake, List.length_drop]
  omega

theorem rtake_of_length_le {entries : List Entry} (short : entries.length ≤ capacity) :
    entries.rtake capacity = entries := by
  rw [List.rtake, Nat.sub_eq_zero_of_le short, List.drop_zero]

theorem rtake_eq_tail {entries : List Entry} (large : capacity < entries.length) :
    entries.rtake capacity = (entries.rtake (capacity + 1)).tail := by
  rw [List.rtake, List.rtake, List.tail_drop]
  congr 1
  omega

/-- Pushing entry after entry keeps the newest ones of all that were pushed. -/
theorem push_rtake (positive : 0 < capacity) (history : List Entry) (entry : Entry) :
    push capacity (history.rtake capacity) entry =
      (history ++ [entry]).rtake capacity := by
  obtain ⟨before, rfl⟩ := Nat.exists_eq_succ_of_ne_zero (Nat.ne_of_gt positive)
  rw [List.rtake_concat_succ, push, length_rtake]
  by_cases short : history.length < before + 1
  · rw [if_pos (by omega), rtake_of_length_le (Nat.le_of_lt short),
      rtake_of_length_le (Nat.le_of_lt_succ short)]
  · have dropped : history.rtake before = (history.rtake (before + 1)).tail :=
      rtake_eq_tail (by omega)
    rw [if_neg (by omega), dropped]

end BoundedHistory

end MouseHero
