import Mathlib.Order.Lattice
import Mathlib.Order.RelClasses

/-!
# Comparisons by a key

A comparison that answers with a sign, and a relation "is newer than", may only
look at a key of their arguments.  Then they inherit the laws of the order of
the keys.
-/

namespace MouseHero.KeyComparison

variable {Item Key : Type} [LinearOrder Key]

/-- The comparison of two items is the sign of the comparison of their keys. -/
def Agrees (compare : Item → Item → Int) (key : Item → Key) : Prop :=
  ∀ left right,
    key left < key right ∧ compare left right = -1 ∨
      key left = key right ∧ compare left right = 0 ∨
      key right < key left ∧ compare left right = 1

section Comparison

variable {compare : Item → Item → Int} {key : Item → Key}
variable (agrees : Agrees compare key)

include agrees

theorem pos_iff (left right : Item) :
    0 < compare left right ↔ key right < key left := by
  rcases agrees left right with ⟨less, sign⟩ | ⟨same, sign⟩ | ⟨more, sign⟩
  · simp [sign, less.le]
  · simp [sign, same]
  · simp [sign, more]

theorem neg_iff (left right : Item) :
    compare left right < 0 ↔ key left < key right := by
  rcases agrees left right with ⟨less, sign⟩ | ⟨same, sign⟩ | ⟨more, sign⟩
  · simp [sign, less]
  · simp [sign, same]
  · simp [sign, more.le]

theorem nonpos_iff (left right : Item) :
    compare left right ≤ 0 ↔ key left ≤ key right := by
  rw [← Int.not_lt, pos_iff agrees, not_lt]

theorem swap (left right : Item) :
    compare left right = -compare right left := by
  rcases agrees left right with ⟨less, sign⟩ | ⟨same, sign⟩ | ⟨more, sign⟩
  · have other : 0 < compare right left := (pos_iff agrees _ _).mpr less
    rcases agrees right left with ⟨_, again⟩ | ⟨_, again⟩ | ⟨_, again⟩ <;> omega
  · rcases agrees right left with ⟨less, _⟩ | ⟨_, again⟩ | ⟨more, _⟩
    · exact absurd less (by simp [same])
    · omega
    · exact absurd more (by simp [same])
  · have other : compare right left < 0 := (neg_iff agrees _ _).mpr more
    rcases agrees right left with ⟨_, again⟩ | ⟨_, again⟩ | ⟨_, again⟩ <;> omega

theorem trans {first second third : Item}
    (less : compare first second ≤ 0) (more : compare second third ≤ 0) :
    compare first third ≤ 0 := by
  rw [nonpos_iff agrees] at *
  exact less.trans more

theorem congr_left {left other : Item} (same : key left = key other)
    (right : Item) : compare left right = compare other right := by
  rcases agrees left right with ⟨_, sign⟩ | ⟨_, sign⟩ | ⟨_, sign⟩ <;>
    rcases agrees other right with ⟨_, again⟩ | ⟨_, again⟩ | ⟨_, again⟩ <;>
    grind

end Comparison

theorem isStrictWeakOrder {newer : Item → Item → Prop} {key : Item → Key}
    (byKey : ∀ left right, newer left right ↔ key right < key left) :
    IsStrictWeakOrder Item newer where
  irrefl item := by
    rw [byKey]
    exact lt_irrefl _
  trans first second third := by
    simp only [byKey]
    intro less more
    exact more.trans less
  incomp_trans first second third := by
    simp only [byKey, not_lt]
    intro first second
    exact ⟨first.1.trans second.1, second.2.trans first.2⟩

end MouseHero.KeyComparison
