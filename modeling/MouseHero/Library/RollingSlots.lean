import Mathlib.Logic.Function.Basic

/-!
# Rolling slots

A history of symbols is spread over numbered slots, the newest symbols in slot
zero.  Before slot zero is begun anew, every slot is shifted to the next number,
from the oldest one down; what the last slot held is given up.

The slots below a count hold an end of the history, in order.  A shift into an
empty slot keeps all of it, and a shift into the last slot keeps an end of it.
-/

namespace MouseHero

namespace RollingSlots

universe u

variable {Symbol : Type u}

/-- The slots by their numbers; a slot that was never used is empty. -/
abbrev Slots (Symbol : Type u) := Nat → Option (List Symbol)

/-- The symbols of the slots below a count, the oldest slot first. -/
def joined (slots : Slots Symbol) : Nat → List Symbol
  | 0 => []
  | count + 1 => (slots count).getD [] ++ joined slots count

/-- Move a slot to the next number. -/
def shift (slots : Slots Symbol) (number : Nat) : Slots Symbol :=
  match slots number with
  | none => slots
  | some content =>
      Function.update (Function.update slots number none) (number + 1)
        (some content)

/-- Add symbols to slot zero. -/
def append (slots : Slots Symbol) (added : List Symbol) : Slots Symbol :=
  Function.update slots 0 (some ((slots 0).getD [] ++ added))

/-! ## What the operations leave alone -/

section Frames

variable {slots other : Slots Symbol} {number index count : Nat}

theorem joined_congr (same : ∀ index < count, slots index = other index) :
    joined slots count = joined other count := by
  induction count with
  | zero => rfl
  | succ count inductionHypothesis =>
      rw [joined, joined, same count (Nat.lt_succ_self count),
        inductionHypothesis fun index less => same index (Nat.lt_succ_of_lt less)]

theorem shift_of_empty (empty : slots number = none) : shift slots number = slots := by
  rw [shift, empty]

theorem shift_of_some {content : List Symbol} (found : slots number = some content) :
    shift slots number =
      Function.update (Function.update slots number none) (number + 1)
        (some content) := by
  rw [shift, found]

theorem shift_self (slots : Slots Symbol) (number : Nat) :
    shift slots number number = none := by
  cases found : slots number with
  | none => rw [shift_of_empty found, found]
  | some content =>
      rw [shift_of_some found,
        Function.update_of_ne (Nat.ne_of_lt (Nat.lt_succ_self number)),
        Function.update_self]

theorem shift_of_ne (differs : index ≠ number) (next : index ≠ number + 1) :
    shift slots number index = slots index := by
  cases found : slots number with
  | none => rw [shift_of_empty found]
  | some content =>
      rw [shift_of_some found, Function.update_of_ne next,
        Function.update_of_ne differs]

end Frames

/-! ## The joined symbols -/

section Joined

variable {slots : Slots Symbol} {number count : Nat}

theorem joined_succ_of_empty (empty : slots number = none) :
    joined slots (number + 1) = joined slots number := by
  rw [joined, empty]
  rfl

/-- Both slots of a shift together: the content of the second one is given up. -/
theorem joined_shift_pair (slots : Slots Symbol) (number : Nat) :
    joined (shift slots number) (number + 2) =
      if slots number = none then joined slots (number + 2)
      else joined slots (number + 1) := by
  cases found : slots number with
  | none => rw [shift_of_empty found, if_pos rfl]
  | some content =>
      have below : joined (shift slots number) number = joined slots number :=
        joined_congr fun index less => shift_of_ne (by omega) (by omega)
      have second : shift slots number (number + 1) = some content := by
        rw [shift_of_some found, Function.update_self]
      rw [if_neg (Option.some_ne_none content), joined,
        joined_succ_of_empty (shift_self ..), below,
        second, joined, found]

theorem joined_shift (free : slots (number + 1) = none) (inside : number + 1 < count) :
    joined (shift slots number) count = joined slots count := by
  induction count with
  | zero => exact absurd inside (Nat.not_lt_zero _)
  | succ count inductionHypothesis =>
      by_cases isPair : count = number + 1
      · subst isPair
        rw [joined_shift_pair]
        split
        · rfl
        · exact (joined_succ_of_empty free).symm
      · rw [joined, joined, inductionHypothesis (by omega),
          shift_of_ne (by omega) isPair]

theorem joined_shift_last (slots : Slots Symbol) (number : Nat) :
    joined (shift slots number) (number + 2) <:+ joined slots (number + 2) := by
  rw [joined_shift_pair]
  split
  · exact List.suffix_rfl
  · exact List.suffix_append ..

theorem joined_append (added : List Symbol) (positive : 0 < count) :
    joined (append slots added) count = joined slots count ++ added := by
  induction count with
  | zero => exact absurd positive (Nat.lt_irrefl 0)
  | succ count inductionHypothesis =>
      cases count with
      | zero =>
          rw [joined, joined, append, Function.update_self]
          simp [joined]
      | succ count =>
          rw [joined, inductionHypothesis (Nat.succ_pos count), append,
            Function.update_of_ne (Nat.succ_ne_zero count), ← List.append_assoc]
          rfl

end Joined

/-! ## Histories -/

/-- The slots below the count hold an end of the history, and all of it as long as
it is whole. -/
structure Holds (slots : Slots Symbol) (count : Nat) (history : List Symbol)
    (whole : Prop) : Prop where
  isSuffix : joined slots count <:+ history
  isWhole : whole → joined slots count = history

namespace Holds

variable {slots : Slots Symbol} {count number : Nat} {history added : List Symbol}
variable {whole later : Prop}

theorem weaken (holds : Holds slots count history whole) (weaker : later → whole) :
    Holds slots count history later where
  isSuffix := holds.isSuffix
  isWhole := fun isLater => holds.isWhole (weaker isLater)

theorem append (holds : Holds slots count history whole) (positive : 0 < count) :
    Holds (RollingSlots.append slots added) count (history ++ added) whole where
  isSuffix := by
    rw [joined_append added positive]
    obtain ⟨front, parts⟩ := holds.isSuffix
    exact ⟨front, by rw [← List.append_assoc, parts]⟩
  isWhole := by
    intro isWhole
    rw [joined_append added positive, holds.isWhole isWhole]

/-- A slot is shifted into an empty slot, or into the last one once the history need
not be whole any more. -/
theorem shift (holds : Holds slots count history whole) (inside : number + 1 < count)
    (free : slots (number + 1) = none ∨ (number + 2 = count ∧ ¬ whole)) :
    Holds (RollingSlots.shift slots number) count history whole := by
  rcases free with isFree | ⟨isLast, notWhole⟩
  · have same := joined_shift isFree inside
    exact ⟨same ▸ holds.isSuffix, fun isWhole => same.trans (holds.isWhole isWhole)⟩
  · subst isLast
    exact ⟨(joined_shift_last slots number).trans holds.isSuffix,
      fun isWhole => absurd isWhole notWhole⟩

end Holds

/-! ## One rotation -/

/-- While the slots are shifted, from the last one down: the slots below `next` are
still to be shifted.  Before the rotation no slot above `depth` was used. -/
structure Shifting (slots : Slots Symbol) (count : Nat) (history : List Symbol)
    (depth next : Nat) : Prop where
  holds : Holds slots count history (depth + 1 < count)
  free : slots next = none ∨ (next + 1 = count ∧ ¬ depth + 1 < count)
  unused : ∀ index, depth + 1 < index → slots index = none
  untouched : ∀ index, depth < index → index < next → slots index = none

namespace Shifting

variable {slots : Slots Symbol} {count depth next : Nat} {history : List Symbol}

theorem start (holds : Holds slots (count + 1) history (depth < count + 1))
    (unused : ∀ index, depth < index → slots index = none) :
    Shifting slots (count + 1) history depth count where
  holds := holds.weaken fun less => by omega
  free := by
    by_cases isWhole : depth + 1 < count + 1
    · exact Or.inl (unused count (by omega))
    · exact Or.inr ⟨rfl, isWhole⟩
  unused := fun index isDeep => unused index (by omega)
  untouched := fun index isDeep _ => unused index isDeep

theorem shift (shifting : Shifting slots count history depth (next + 1))
    (inside : next + 1 < count) :
    Shifting (RollingSlots.shift slots next) count history depth next where
  holds := by
    apply shifting.holds.shift inside
    exact shifting.free.imp_right fun last => ⟨by omega, last.2⟩
  free := Or.inl (shift_self slots next)
  unused := by
    intro index isDeep
    by_cases moved : slots next = none
    · rw [shift_of_empty moved]
      exact shifting.unused index isDeep
    · -- What is moved was not above the depth, so it does not get further.
      have shallow : next ≤ depth := by
        by_contra larger
        exact moved (shifting.untouched next (by omega) (Nat.lt_succ_self next))
      rw [shift_of_ne (by omega) (by omega)]
      exact shifting.unused index isDeep
  untouched := by
    intro index isDeep less
    rw [shift_of_ne (by omega) (by omega)]
    exact shifting.untouched index isDeep (by omega)

end Shifting

end RollingSlots

end MouseHero
