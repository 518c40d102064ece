import Mathlib.Data.List.Basic

/-!
# Formats of a decoder with a sticky error

A format says which tokens denote a value, and which tokens break it, and what
a decoder that goes on in spite of that delivers.  Formats are put together in
the order in which a decoder reads their parts.
-/

namespace MouseHero

/-- What a decoder delivers: for tokens that denote a value, for tokens that
break the format, and after an earlier part has been broken. -/
structure Format (Token Value : Type) where
  whole : Value → List Token → Prop
  broken : Value → List Token → Prop
  lost : Value

namespace Format

variable {Token Value Next : Type}

/-- A part that cannot be read yields a default. -/
def part (denotes : Value → List Token → Prop) (default : Value) :
    Format Token Value where
  whole := denotes
  broken := fun value tokens =>
    value = default ∧
      ∀ other front rest, denotes other front → tokens ≠ front ++ rest
  lost := default

theorem part_total (denotes : Value → List Token → Prop) (default : Value)
    (tokens : List Token) :
    (∃ value front rest, (part denotes default).whole value front ∧
        tokens = front ++ rest) ∨
      ∃ value, (part denotes default).broken value tokens := by
  by_cases readable :
      ∃ value front rest, denotes value front ∧ tokens = front ++ rest
  · exact Or.inl readable
  · refine Or.inr ⟨default, rfl, ?_⟩
    intro value front rest isWhole split
    exact readable ⟨value, front, rest, isWhole, split⟩

/-- No tokens. -/
def nothing (value : Value) : Format Token Value where
  whole := fun other tokens => other = value ∧ tokens = []
  broken := fun _ _ => False
  lost := value

/-- A test between two parts. -/
def check (passes : Prop) : Format Token PUnit where
  whole := fun _ tokens => passes ∧ tokens = []
  broken := fun _ _ => ¬ passes
  lost := ⟨⟩

/-- One part after the other. -/
def bind (first : Format Token Value) (next : Value → Format Token Next) :
    Format Token Next where
  whole := fun final tokens =>
    ∃ value front back,
      first.whole value front ∧ (next value).whole final back ∧
        tokens = front ++ back
  broken := fun final tokens =>
    (∃ value, first.broken value tokens ∧ final = (next value).lost) ∨
      ∃ value front back,
        first.whole value front ∧ (next value).broken final back ∧
          tokens = front ++ back
  lost := (next first.lost).lost

/-- A number of values. -/
def repeated (format : Format Token Value) :
    Nat → Format Token (List Value)
  | 0 => nothing []
  | count + 1 =>
      format.bind fun value =>
        (format.repeated count).bind fun values => nothing (value :: values)

/-- Every value that is delivered has the property. -/
structure Ensures (format : Format Token Value) (Holds : Value → Prop) :
    Prop where
  whole : ∀ value tokens, format.whole value tokens → Holds value
  broken : ∀ value tokens, format.broken value tokens → Holds value
  lost : Holds format.lost

section Ensures

variable {Holds : Value → Prop} {Later : Next → Prop}

theorem ensures_nothing {value : Value} (holds : Holds value) :
    (nothing value : Format Token Value).Ensures Holds where
  whole := by
    rintro other tokens ⟨rfl, -⟩
    exact holds
  broken := fun _ _ impossible => impossible.elim
  lost := holds

theorem ensures_bind {first : Format Token Value}
    {next : Value → Format Token Next} (ensured : first.Ensures Holds)
    (later : ∀ value, Holds value → (next value).Ensures Later) :
    (first.bind next).Ensures Later where
  whole := by
    rintro final tokens ⟨value, front, back, isFirst, isNext, -⟩
    exact (later value (ensured.whole value front isFirst)).whole
      final back isNext
  broken := by
    rintro final tokens (⟨value, isBroken, rfl⟩ |
      ⟨value, front, back, isFirst, isBroken, -⟩)
    · exact (later value (ensured.broken value tokens isBroken)).lost
    · exact (later value (ensured.whole value front isFirst)).broken
        final back isBroken
  lost := (later first.lost ensured.lost).lost

theorem ensures_repeated {format : Format Token Value}
    (ensured : format.Ensures Holds) (count : Nat) :
    (format.repeated count).Ensures fun values =>
      ∀ value ∈ values, Holds value := by
  induction count with
  | zero => exact ensures_nothing fun _ member => absurd member List.not_mem_nil
  | succ count inductionHypothesis =>
      apply ensures_bind ensured
      intro value holds
      apply ensures_bind inductionHypothesis
      intro values allHold
      exact ensures_nothing (List.forall_mem_cons.mpr ⟨holds, allHold⟩)

end Ensures

section Bind

variable {first : Format Token Value} {next : Value → Format Token Next}
variable {value : Value} {final : Next} {front back : List Token}

theorem whole_bind (isFirst : first.whole value front)
    (isNext : (next value).whole final back) :
    (first.bind next).whole final (front ++ back) :=
  ⟨value, front, back, isFirst, isNext, rfl⟩

theorem broken_bind_first (isBroken : first.broken value front) :
    (first.bind next).broken (next value).lost front :=
  Or.inl ⟨value, isBroken, rfl⟩

theorem broken_bind_next (isFirst : first.whole value front)
    (isBroken : (next value).broken final back) :
    (first.bind next).broken final (front ++ back) :=
  Or.inr ⟨value, front, back, isFirst, isBroken, rfl⟩

end Bind

section Written

variable {Item : Type} {format : Format Token Value} {valueOf : Item → Value}
variable {written : Item → List Token} {items : List Item}

/-- What has been written item by item denotes the values of the items. -/
theorem whole_repeated
    (eachWhole : ∀ item ∈ items, format.whole (valueOf item) (written item)) :
    (format.repeated items.length).whole (items.map valueOf)
      (items.flatMap written) := by
  induction items with
  | nil => exact ⟨rfl, rfl⟩
  | cons item rest inductionHypothesis =>
      obtain ⟨isWhole, areWhole⟩ := List.forall_mem_cons.mp eachWhole
      have later :
          ((format.repeated rest.length).bind fun values =>
              nothing (valueOf item :: values)).whole
            (valueOf item :: rest.map valueOf) (rest.flatMap written ++ []) :=
        whole_bind (inductionHypothesis areWhole) ⟨rfl, rfl⟩
      rw [List.append_nil] at later
      exact whole_bind isWhole later

theorem broken_repeated {Readable : Item → Prop}
    (readableWhole : ∀ item, Readable item →
      format.whole (valueOf item) (written item))
    (otherBroken : ∀ item, ¬ Readable item → ∀ rest,
      ∃ value, format.broken value (written item ++ rest))
    (unreadable : ∃ item ∈ items, ¬ Readable item) (rest : List Token) :
    ∃ values,
      (format.repeated items.length).broken values
        (items.flatMap written ++ rest) := by
  induction items with
  | nil =>
      obtain ⟨item, member, -⟩ := unreadable
      cases member
  | cons item others inductionHypothesis =>
      rw [List.flatMap_cons, List.append_assoc]
      by_cases readable : Readable item
      · have later : ∃ item ∈ others, ¬ Readable item := by
          obtain ⟨other, member, isUnreadable⟩ := unreadable
          rcases List.mem_cons.mp member with rfl | isLater
          · exact absurd readable isUnreadable
          · exact ⟨other, isLater, isUnreadable⟩
        obtain ⟨values, breaks⟩ := inductionHypothesis later
        exact ⟨_, broken_bind_next (readableWhole item readable)
          (broken_bind_first breaks)⟩
      · obtain ⟨value, breaks⟩ := otherBroken item readable _
        exact ⟨_, broken_bind_first breaks⟩

end Written

end Format

end MouseHero
