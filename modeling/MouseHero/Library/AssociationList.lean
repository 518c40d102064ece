import Mathlib.Data.List.Basic

/-!
# Association lists with assignment in place

A lookup finds the first pair with the key.  An assignment changes the value of
that pair, or appends a new one.  The list after a history of assignments is
determined by the latest assignment to each key.
-/

namespace MouseHero.AssociationList

variable {Key Value : Type} [DecidableEq Key]
variable {pairs history : List (Key × Value)} {key other : Key} {value : Value}

/-- Give a key a value. -/
def assign (key : Key) (value : Value) :
    List (Key × Value) → List (Key × Value)
  | [] => [(key, value)]
  | pair :: rest =>
      if pair.1 = key then (key, value) :: rest
      else pair :: assign key value rest

/-- The assignments of a history, the latest first. -/
def assignAll (history pairs : List (Key × Value)) : List (Key × Value) :=
  history.foldr (fun pair => assign pair.1 pair.2) pairs

@[simp]
theorem assignAll_nil : assignAll [] pairs = pairs :=
  rfl

@[simp]
theorem assignAll_cons (pair : Key × Value) :
    assignAll (pair :: history) pairs =
      assign pair.1 pair.2 (assignAll history pairs) :=
  rfl

theorem lookup_cons_eq (pair : Key × Value) :
    (pair :: pairs).lookup key =
      if key = pair.1 then some pair.2 else pairs.lookup key := by
  obtain ⟨first, second⟩ := pair
  by_cases same : key = first
  · simp [same]
  · simp [List.lookup_cons, same, beq_eq_false_iff_ne.mpr same]

theorem lookup_cons_of_ne {pair : Key × Value} (different : key ≠ pair.1) :
    (pair :: pairs).lookup key = pairs.lookup key := by
  rw [lookup_cons_eq, if_neg different]

theorem mem_of_lookup_eq_some (found : pairs.lookup key = some value) :
    (key, value) ∈ pairs := by
  obtain ⟨before, after, rfl, -⟩ := List.lookup_eq_some_iff.mp found
  simp

theorem lookup_eq_some_of_mem (distinct : (pairs.map Prod.fst).Nodup)
    (member : (key, value) ∈ pairs) : pairs.lookup key = some value := by
  induction pairs with
  | nil => cases member
  | cons pair rest inductionHypothesis =>
      rw [List.map_cons, List.nodup_cons] at distinct
      rcases List.mem_cons.mp member with rfl | later
      · rw [lookup_cons_eq, if_pos rfl]
      · have different : key ≠ pair.1 := by
          rintro rfl
          exact distinct.1 (List.mem_map.mpr ⟨_, later, rfl⟩)
        rw [lookup_cons_of_ne different]
        exact inductionHypothesis distinct.2 later

theorem assign_of_first {before after : List (Key × Value)} {old : Value}
    (notBefore : key ∉ before.map Prod.fst) :
    assign key value (before ++ (key, old) :: after) =
      before ++ (key, value) :: after := by
  induction before with
  | nil => simp [assign]
  | cons pair before inductionHypothesis =>
      rw [List.map_cons, List.mem_cons, not_or] at notBefore
      have different : pair.1 ≠ key := fun same => notBefore.1 same.symm
      simp [assign, different, inductionHypothesis notBefore.2]

theorem assign_of_absent (absent : key ∉ pairs.map Prod.fst) :
    assign key value pairs = pairs ++ [(key, value)] := by
  induction pairs with
  | nil => rfl
  | cons pair rest inductionHypothesis =>
      rw [List.map_cons, List.mem_cons, not_or] at absent
      have different : pair.1 ≠ key := fun same => absent.1 same.symm
      simp [assign, different, inductionHypothesis absent.2]

theorem lookup_assign_self :
    (assign key value pairs).lookup key = some value := by
  induction pairs with
  | nil => simp [assign]
  | cons pair rest inductionHypothesis =>
      by_cases same : pair.1 = key
      · simp [assign, same]
      · rw [assign, if_neg same, lookup_cons_of_ne (Ne.symm same),
          inductionHypothesis]

theorem lookup_assign_of_ne (different : other ≠ key) :
    (assign key value pairs).lookup other = pairs.lookup other := by
  induction pairs with
  | nil => rw [assign, lookup_cons_of_ne different]
  | cons pair rest inductionHypothesis =>
      by_cases same : pair.1 = key
      · rw [assign, if_pos same, lookup_cons_of_ne different,
          lookup_cons_of_ne (by rw [same]; exact different)]
      · rw [assign, if_neg same, lookup_cons_eq, lookup_cons_eq,
          inductionHypothesis]

theorem nodup_assign (distinct : (pairs.map Prod.fst).Nodup) :
    ((assign key value pairs).map Prod.fst).Nodup := by
  induction pairs with
  | nil => simp [assign]
  | cons pair rest inductionHypothesis =>
      rw [List.map_cons, List.nodup_cons] at distinct
      by_cases same : pair.1 = key
      · rw [assign, if_pos same, List.map_cons, List.nodup_cons, ← same]
        exact distinct
      · rw [assign, if_neg same, List.map_cons, List.nodup_cons]
        refine ⟨?_, inductionHypothesis distinct.2⟩
        intro again
        obtain ⟨found, member, isKey⟩ := List.mem_map.mp again
        have present : (assign key value rest).lookup pair.1 ≠ none := by
          intro absent
          have different := List.lookup_eq_none_iff.mp absent found member
          simp [isKey] at different
        rw [lookup_assign_of_ne same] at present
        obtain ⟨old, isOld⟩ := Option.ne_none_iff_exists'.mp present
        have again := mem_of_lookup_eq_some isOld
        exact distinct.1 (List.mem_map.mpr ⟨_, again, rfl⟩)

theorem nodup_assignAll (distinct : (pairs.map Prod.fst).Nodup)
    (history : List (Key × Value)) :
    ((assignAll history pairs).map Prod.fst).Nodup := by
  induction history with
  | nil => exact distinct
  | cons pair earlier inductionHypothesis =>
      exact nodup_assign inductionHypothesis

/-- What is found after a history is the latest assignment to the key. -/
theorem lookup_assignAll (history pairs : List (Key × Value)) (key : Key) :
    (assignAll history pairs).lookup key =
      (history.lookup key).or (pairs.lookup key) := by
  induction history with
  | nil => rfl
  | cons pair earlier inductionHypothesis =>
      by_cases same : key = pair.1
      · rw [assignAll_cons, same, lookup_assign_self, lookup_cons_eq,
          if_pos rfl]
        rfl
      · rw [assignAll_cons, lookup_assign_of_ne same, inductionHypothesis,
          lookup_cons_of_ne same]

/-- The first pair gets the latest value of its key, and the rest of the list
the assignments to other keys. -/
theorem assignAll_eq_cons (history : List (Key × Value)) (pair : Key × Value)
    (rest : List (Key × Value)) :
    assignAll history (pair :: rest) =
      (pair.1, (history.lookup pair.1).getD pair.2) ::
        assignAll (history.filter fun other => other.1 ≠ pair.1) rest := by
  induction history with
  | nil => rfl
  | cons latest earlier inductionHypothesis =>
      rw [assignAll_cons, inductionHypothesis, assign]
      by_cases same : pair.1 = latest.1
      · simp [same, lookup_cons_eq]
      · have different : latest.1 ≠ pair.1 := Ne.symm same
        rw [if_neg same, lookup_cons_of_ne same,
          List.filter_cons_of_pos (by simpa using different), assignAll_cons]

theorem lookup_filter_of_ne (different : key ≠ other) :
    (history.filter fun pair => pair.1 ≠ other).lookup key =
      history.lookup key := by
  induction history with
  | nil => rfl
  | cons pair earlier inductionHypothesis =>
      by_cases kept : pair.1 = other
      · rw [List.filter_cons_of_neg (by simpa using kept), inductionHypothesis,
          lookup_cons_of_ne (by rw [kept]; exact different)]
      · rw [List.filter_cons_of_pos (by simpa using kept), lookup_cons_eq,
          lookup_cons_eq, inductionHypothesis]

/-- A history leaves the list as it is if and only if the latest value of each
of its keys is the one the key has already. -/
theorem assignAll_eq_self_iff :
    assignAll history pairs = pairs ↔
      ∀ key value, history.lookup key = some value →
        pairs.lookup key = some value := by
  constructor
  · intro same key value latest
    have found := lookup_assignAll history pairs key
    rw [same, latest] at found
    exact found
  · intro current
    induction pairs generalizing history with
    | nil =>
        cases history with
        | nil => rfl
        | cons latest earlier =>
            have found := current latest.1 latest.2 (by simp [lookup_cons_eq])
            cases found
    | cons pair rest inductionHypothesis =>
        have head : (history.lookup pair.1).getD pair.2 = pair.2 := by
          cases latest : history.lookup pair.1 with
          | none => rfl
          | some value =>
              have found := current pair.1 value latest
              rw [lookup_cons_eq, if_pos rfl] at found
              exact (Option.some.inj found).symm
        have tail :
            assignAll (history.filter fun other => other.1 ≠ pair.1) rest =
              rest := by
          apply inductionHypothesis
          intro key value latest
          have different : key ≠ pair.1 := by
            rintro rfl
            obtain ⟨before, after, split, -⟩ :=
              List.lookup_eq_some_iff.mp latest
            have member :
                (pair.1, value) ∈
                  history.filter fun other => other.1 ≠ pair.1 := by
              rw [split]
              simp
            simpa using List.of_mem_filter member
          rw [lookup_filter_of_ne different] at latest
          rw [← lookup_cons_of_ne different]
          exact current key value latest
        rw [assignAll_eq_cons, head, tail]

theorem assignAll_append (later earlier pairs : List (Key × Value)) :
    assignAll (later ++ earlier) pairs =
      assignAll later (assignAll earlier pairs) :=
  List.foldr_append

theorem keys_assign_of_mem (present : key ∈ pairs.map Prod.fst) :
    (assign key value pairs).map Prod.fst = pairs.map Prod.fst := by
  induction pairs with
  | nil => cases present
  | cons pair rest inductionHypothesis =>
      by_cases same : pair.1 = key
      · rw [assign, if_pos same, List.map_cons, List.map_cons, same]
      · have later : key ∈ rest.map Prod.fst := by
          rcases List.mem_cons.mp present with isKey | later
          · exact absurd isKey.symm same
          · exact later
        rw [assign, if_neg same, List.map_cons, inductionHypothesis later,
          List.map_cons]

theorem mem_keys_of_lookup (found : pairs.lookup key = some value) :
    key ∈ pairs.map Prod.fst :=
  List.mem_map.mpr ⟨(key, value), mem_of_lookup_eq_some found, rfl⟩

theorem exists_lookup_of_mem (present : key ∈ pairs.map Prod.fst) :
    ∃ value, pairs.lookup key = some value := by
  induction pairs with
  | nil => cases present
  | cons pair rest inductionHypothesis =>
      rw [lookup_cons_eq]
      by_cases same : key = pair.1
      · exact ⟨pair.2, if_pos same⟩
      · rw [if_neg same]
        exact inductionHypothesis
          ((List.mem_cons.mp present).resolve_left same)

theorem lookup_eq_none_of_notMem (absent : key ∉ pairs.map Prod.fst) :
    pairs.lookup key = none := by
  cases found : pairs.lookup key with
  | none => rfl
  | some value => exact absurd (mem_keys_of_lookup found) absent

theorem lookup_filter_mem (history : List (Key × Value)) (keys : List Key)
    (key : Key) :
    (history.filter fun pair => pair.1 ∈ keys).lookup key =
      if key ∈ keys then history.lookup key else none := by
  induction history with
  | nil => simp
  | cons pair earlier inductionHypothesis =>
      by_cases kept : pair.1 ∈ keys
      · rw [List.filter_cons_of_pos (by simpa using kept), lookup_cons_eq,
          lookup_cons_eq, inductionHypothesis]
        by_cases same : key = pair.1
        · simp [same, kept]
        · simp [same]
      · rw [List.filter_cons_of_neg (by simpa using kept),
          inductionHypothesis]
        by_cases wanted : key ∈ keys
        · have different : key ≠ pair.1 := fun same => kept (same ▸ wanted)
          rw [lookup_cons_of_ne different]
        · rw [if_neg wanted, if_neg wanted]

end MouseHero.AssociationList
