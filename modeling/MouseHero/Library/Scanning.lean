import Mathlib.Data.List.DropRight

/-!
# Trimming

Blanks are removed at both ends of a list.  What is left has no blank at its
ends, and a list without a blank at its ends is left as it is.
-/

namespace MouseHero.Scanning

variable {Item : Type} (blank : Item → Bool)

/-- Remove the blanks at both ends. -/
def trim (items : List Item) : List Item :=
  (items.dropWhile blank).rdropWhile blank

/-- No blank at either end. -/
structure Trimmed (items : List Item) : Prop where
  head : ∀ item ∈ items.head?, blank item = false
  last : ∀ item ∈ items.getLast?, blank item = false

variable {blank}
variable {items before after : List Item} {item separator : Item}

theorem trimmed_nil : Trimmed blank [] :=
  ⟨nofun, nofun⟩

theorem trimmed_singleton (notBlank : blank item = false) :
    Trimmed blank [item] := by
  constructor
  all_goals
    intro first isFirst
    cases isFirst
    exact notBlank

theorem dropWhile_eq_self
    (head : ∀ item ∈ items.head?, blank item = false) :
    items.dropWhile blank = items := by
  cases items with
  | nil => rfl
  | cons first rest =>
      exact List.dropWhile_cons_of_neg (by simp [head first rfl])

theorem rdropWhile_eq_self
    (last : ∀ item ∈ items.getLast?, blank item = false) :
    items.rdropWhile blank = items := by
  rw [List.rdropWhile_eq_self_iff]
  intro nonempty isBlank
  have notBlank := last _ (List.getLast?_eq_some_getLast nonempty)
  rw [notBlank] at isBlank
  cases isBlank

theorem head_dropWhile :
    ∀ item ∈ (items.dropWhile blank).head?, blank item = false := by
  intro item isHead
  have found := List.find?_not_eq_head?_dropWhile blank items
  rw [Option.mem_def.mp isHead] at found
  simpa using List.find?_some found

theorem last_rdropWhile :
    ∀ item ∈ (items.rdropWhile blank).getLast?, blank item = false := by
  intro item isLast
  obtain ⟨nonempty, isItem⟩ := List.mem_getLast?_eq_getLast isLast
  have notBlank := List.rdropWhile_last_not blank items nonempty
  rw [← isItem] at notBlank
  simpa using notBlank

theorem rdropWhile_inside : items.rdropWhile blank <:+: items :=
  (List.rdropWhile_prefix blank items).isInfix

theorem trim_inside : trim blank items <:+: items :=
  rdropWhile_inside.trans (List.dropWhile_suffix blank).isInfix

theorem mem_of_mem_trim (member : item ∈ trim blank items) : item ∈ items :=
  trim_inside.subset member

theorem length_trim_le (items : List Item) :
    (trim blank items).length ≤ items.length :=
  trim_inside.length_le

theorem rdropWhile_append_cons (notBlank : blank separator = false)
    (front after : List Item) :
    (front ++ separator :: after).rdropWhile blank =
      front ++ separator :: after.rdropWhile blank := by
  induction after using List.reverseRecOn with
  | nil =>
      rw [List.rdropWhile_concat_neg _ _ _ (by simp [notBlank])]
      rfl
  | append_singleton rest item inductionHypothesis =>
      have grouped :
          front ++ separator :: (rest ++ [item]) =
            (front ++ separator :: rest) ++ [item] := by
        simp
      rw [grouped, List.rdropWhile_concat, List.rdropWhile_concat]
      split
      · exact inductionHypothesis
      · exact grouped.symm

theorem head?_trim (items : List Item) :
    (trim blank items).head? = (items.dropWhile blank).head? := by
  rw [trim]
  cases isRest : items.dropWhile blank with
  | nil => rfl
  | cons first rest =>
      have heads : ∀ item ∈ (items.dropWhile blank).head?, blank item = false :=
        head_dropWhile
      rw [isRest] at heads
      have notBlank : blank first = false := heads first rfl
      have kept := rdropWhile_append_cons notBlank [] rest
      rw [List.nil_append, List.nil_append] at kept
      rw [kept]
      rfl

theorem trimmed_trim (items : List Item) : Trimmed blank (trim blank items) where
  head := by
    rw [head?_trim]
    exact head_dropWhile
  last := last_rdropWhile

theorem trim_eq_self_iff : trim blank items = items ↔ Trimmed blank items := by
  constructor
  · intro same
    rw [← same]
    exact trimmed_trim items
  · intro trimmed
    rw [trim, dropWhile_eq_self trimmed.head, rdropWhile_eq_self trimmed.last]

theorem head_trim {first : Item} {rest : List Item}
    (notBlank : blank first = false) :
    ∀ item ∈ (trim blank (first :: rest)).head?, item = first := by
  intro item isHead
  rw [head?_trim, List.dropWhile_cons_of_neg (by simp [notBlank])] at isHead
  exact (Option.some.inj isHead).symm

theorem trim_append_singleton (isBlank : blank item = true) :
    trim blank (items ++ [item]) = trim blank items := by
  unfold trim
  rw [List.dropWhile_append]
  cases empty : (items.dropWhile blank).isEmpty with
  | true =>
      rw [List.isEmpty_iff.mp empty]
      simp [isBlank]
  | false =>
      exact List.rdropWhile_concat_pos blank _ _ isBlank

theorem trim_append_blanks {blanks : List Item}
    (areBlank : ∀ item ∈ blanks, blank item = true) :
    trim blank (items ++ blanks) = trim blank items := by
  induction blanks using List.reverseRecOn with
  | nil => rw [List.append_nil]
  | append_singleton blanks item inductionHypothesis =>
      rw [← List.append_assoc,
        trim_append_singleton (areBlank item (by simp))]
      exact inductionHypothesis fun other member =>
        areBlank other (List.mem_append_left _ member)

theorem trim_rdropWhile (items : List Item) :
    trim blank (items.rdropWhile blank) = trim blank items := by
  have whole := List.rdropWhile_append_rtakeWhile (p := blank) (l := items)
  have blanks :
      trim blank (items.rdropWhile blank ++ items.rtakeWhile blank) =
        trim blank (items.rdropWhile blank) :=
    trim_append_blanks fun _ member => List.mem_rtakeWhile_imp member
  rw [whole] at blanks
  exact blanks.symm

theorem trim_append_cons (notBlank : blank separator = false)
    (before after : List Item) :
    trim blank (before ++ separator :: after) =
      before.dropWhile blank ++ separator :: after.rdropWhile blank := by
  have front :
      (before ++ separator :: after).dropWhile blank =
        before.dropWhile blank ++ separator :: after := by
    rw [List.dropWhile_append]
    split
    · rename_i empty
      rw [List.isEmpty_iff.mp empty,
        List.dropWhile_cons_of_neg (by simp [notBlank]), List.nil_append]
    · rfl
  rw [trim, front, rdropWhile_append_cons notBlank]

theorem trim_dropWhile (items : List Item) :
    trim blank (items.dropWhile blank) = trim blank items := by
  rw [trim, trim, dropWhile_eq_self head_dropWhile]

theorem mem_trim_iff (notBlank : blank item = false) :
    item ∈ trim blank items ↔ item ∈ items := by
  refine ⟨mem_of_mem_trim, fun member => ?_⟩
  obtain ⟨front, back, rfl⟩ := List.append_of_mem member
  rw [trim_append_cons notBlank]
  simp

theorem trim_trim {coarse : Item → Bool}
    (imply : ∀ item, blank item = true → coarse item = true)
    (items : List Item) : trim coarse (trim blank items) = trim coarse items := by
  have front := List.takeWhile_append_dropWhile (p := blank) (l := items)
  have back : trim blank items ++ (items.dropWhile blank).rtakeWhile blank =
      items.dropWhile blank :=
    List.rdropWhile_append_rtakeWhile
  have ends : ∀ item ∈ (items.dropWhile blank).rtakeWhile blank,
      coarse item = true := fun item member =>
    imply item (List.mem_rtakeWhile_imp member)
  have starts : ∀ item ∈ items.takeWhile blank, coarse item = true :=
    fun item member => imply item (List.mem_takeWhile_imp member)
  calc trim coarse (trim blank items)
      = trim coarse (trim blank items ++
          (items.dropWhile blank).rtakeWhile blank) :=
        (trim_append_blanks ends).symm
    _ = trim coarse (items.dropWhile blank) := by rw [back]
    _ = trim coarse (items.takeWhile blank ++ items.dropWhile blank) := by
        rw [trim, trim, List.dropWhile_append_of_pos starts]
    _ = trim coarse items := by rw [front]

/-- What stands between two items that are no blanks is kept. -/
theorem inside_trim {middle : List Item} (notBlank : blank item = false)
    (separatorNotBlank : blank separator = false)
    (part : item :: (middle ++ [separator]) <:+: items) :
    item :: (middle ++ [separator]) <:+: trim blank items := by
  obtain ⟨front, back, rfl⟩ := part
  have whole :
      front ++ item :: (middle ++ [separator]) ++ back =
        front ++ item :: (middle ++ separator :: back) := by
    simp
  rw [whole, trim_append_cons notBlank,
    rdropWhile_append_cons separatorNotBlank]
  exact ⟨front.dropWhile blank, back.rdropWhile blank, by simp⟩

end MouseHero.Scanning
