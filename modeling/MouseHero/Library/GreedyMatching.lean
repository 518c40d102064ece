import Mathlib.Data.List.Forall2

/-!
# Serving requests in order

Offers come one after the other, and each one goes to the request in front if
it is suitable for it; otherwise it is lost.  Nothing is gained by holding an
offer back: all requests are served if and only if some offers, in order, are
suitable for the requests, one each.
-/

namespace MouseHero.GreedyMatching

variable {Offer Request : Type}

/-- The requests that are left when the offers have been made. -/
def unserved (suits : Request → Offer → Bool) :
    List Offer → List Request → List Request
  | [], requests => requests
  | _ :: _, [] => []
  | offer :: offers, request :: requests =>
      if suits request offer then unserved suits offers requests
      else unserved suits offers (request :: requests)

variable {suits : Request → Offer → Bool}

theorem unserved_nil (offers : List Offer) :
    unserved suits offers [] = [] := by
  cases offers <;> rfl

/-- The offers contain a suitable one for each request, in order. -/
def Suffices (suits : Request → Offer → Bool) (offers : List Offer)
    (requests : List Request) : Prop :=
  ∃ picked, picked.Sublist offers ∧
    List.Forall₂ (fun request offer => suits request offer) requests picked

theorem suffices_nil (offers : List Offer) : Suffices suits offers [] :=
  ⟨[], List.nil_sublist offers, .nil⟩

/-- An offer that suits the request in front is given to it. -/
theorem suffices_cons_of_suits {offer : Offer} {request : Request}
    (suitable : suits request offer) (offers : List Offer)
    (requests : List Request) :
    Suffices suits (offer :: offers) (request :: requests) ↔
      Suffices suits offers requests := by
  constructor
  · rintro ⟨picked, sublist, matching⟩
    cases matching with
    | cons _ rest => exact ⟨_, sublist.tail, rest⟩
  · rintro ⟨picked, sublist, matching⟩
    exact ⟨offer :: picked, sublist.cons_cons offer, .cons suitable matching⟩

theorem suffices_cons_of_not_suits {offer : Offer} {request : Request}
    (unsuitable : ¬ suits request offer) (offers : List Offer)
    (requests : List Request) :
    Suffices suits (offer :: offers) (request :: requests) ↔
      Suffices suits offers (request :: requests) := by
  constructor
  · rintro ⟨picked, sublist, matching⟩
    cases matching with
    | cons suitsPick rest =>
        cases sublist with
        | cons _ sublist => exact ⟨_, sublist, .cons suitsPick rest⟩
        | cons_cons _ _ => exact absurd suitsPick unsuitable
  · rintro ⟨picked, sublist, matching⟩
    exact ⟨picked, sublist.cons offer, matching⟩

theorem unserved_eq_nil_iff (offers : List Offer)
    (requests : List Request) :
    unserved suits offers requests = [] ↔ Suffices suits offers requests := by
  induction offers generalizing requests with
  | nil =>
      constructor
      · rintro none
        cases none
        exact suffices_nil []
      · rintro ⟨picked, sublist, matching⟩
        cases sublist
        cases matching
        rfl
  | cons offer offers inductionHypothesis =>
      cases requests with
      | nil => exact iff_of_true rfl (suffices_nil _)
      | cons request requests =>
          by_cases suitable : suits request offer
          · rw [unserved, if_pos suitable, inductionHypothesis,
              suffices_cons_of_suits suitable]
          · rw [unserved, if_neg suitable, inductionHypothesis,
              suffices_cons_of_not_suits suitable]

end MouseHero.GreedyMatching
