import Mathlib.Data.List.Pairwise
import Mathlib.Order.Lattice

/-!
# High-water marks

A receiver that remembers the largest index it has admitted and admits an item
only if its index is larger.  What it admits has strictly increasing indices,
and it admits everything that arrives in strictly increasing order.
-/

namespace MouseHero.HighWaterMark

variable {Item Index : Type} [LinearOrder Index] (index : Item → Index)

/-- The admitted items of a sequence of arrivals. -/
def admitted (mark : Index) : List Item → List Item
  | [] => []
  | item :: later =>
      if mark < index item then item :: admitted (index item) later
      else admitted mark later

/-- The admitted indices strictly increase from the mark on. -/
theorem admitted_increasing (mark : Index) (items : List Item) :
    (mark :: (admitted index mark items).map index).Pairwise (· < ·) := by
  induction items generalizing mark with
  | nil => simp [admitted]
  | cons item later inductionHypothesis =>
      by_cases above : mark < index item
      · have following := inductionHypothesis (index item)
        simp only [admitted, if_pos above, List.map_cons]
        refine List.pairwise_cons.mpr ⟨?_, following⟩
        intro other member
        rcases List.mem_cons.mp member with same | further
        · exact same ▸ above
        · exact lt_trans above (List.rel_of_pairwise_cons following further)
      · simp only [admitted, if_neg above]
        exact inductionHypothesis mark

theorem admitted_nodup (mark : Index) (items : List Item) :
    ((admitted index mark items).map index).Nodup :=
  (List.pairwise_cons.mp (admitted_increasing index mark items)).2.imp ne_of_lt

theorem admitted_of_increasing {mark : Index} {items : List Item}
    (increasing : (mark :: items.map index).Pairwise (· < ·)) :
    admitted index mark items = items := by
  induction items generalizing mark with
  | nil => rfl
  | cons item later inductionHypothesis =>
      obtain ⟨above, following⟩ := List.pairwise_cons.mp increasing
      have aboveFirst : mark < index item := above _ (by simp)
      rw [admitted, if_pos aboveFirst, inductionHypothesis following]

end MouseHero.HighWaterMark
