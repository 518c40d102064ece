import MouseHero.Input.XkbMapper

/-!
# The reverse keymap is the least-effort inverse

The loops of `build_cache` are one scan, from the lowest keycode on and with
the modifiers in order for each of them.  The cache is a table in which the
first one wins.
-/

namespace MouseHero

namespace XkbKeymap

variable (keymap : XkbKeymap)

/-! ## The scan -/

/-- The keys with modifiers, in the order of the loops. -/
def positions : List (Nat × UInt32) :=
  keymap.keycodes.flatMap fun kc => MOD_COMBOS.map fun mods => (kc, mods)

/-- The entry that a position would have. -/
def candidate (position : Nat × UInt32) : Option XkbCacheEntry :=
  (keymap.produced position.1 position.2).map (entry position.1 position.2)

/-- All entries, with the later ones for the same codepoint. -/
def scanned : List XkbCacheEntry :=
  keymap.positions.filterMap keymap.candidate

/-- The codepoints of the layout. -/
def codepoints : Finset UInt32 :=
  (keymap.scanned.map XkbCacheEntry.codepoint).toFinset

/-- The loops visit the key with the modifiers. -/
def Visits (kc : Nat) (mods : UInt32) : Prop :=
  keymap.minKeycode ≤ kc ∧ kc ≤ keymap.maxKeycode ∧ mods ∈ MOD_COMBOS

/-- The key with the modifiers is visited and has the codepoint. -/
def Produces (kc : Nat) (mods cp : UInt32) : Prop :=
  keymap.Visits kc mods ∧ keymap.produced kc mods = some cp

/-- The lowest key that has the codepoint, with the least modifiers. -/
def FirstProduces (kc : Nat) (mods cp : UInt32) : Prop :=
  keymap.Produces kc mods cp ∧
    ∀ otherKc otherMods, keymap.Produces otherKc otherMods cp →
      kc < otherKc ∨ kc = otherKc ∧ mods ≤ otherMods

variable {keymap}
variable {kc : Nat} {mods cp : UInt32}

theorem mem_positions_iff :
    (kc, mods) ∈ keymap.positions ↔ keymap.Visits kc mods := by
  have range : kc ∈ keymap.keycodes ↔
      keymap.minKeycode ≤ kc ∧ kc ≤ keymap.maxKeycode := by
    rw [keycodes, List.mem_range'_1]
    omega
  rw [positions, List.mem_flatMap, Visits, ← and_assoc, ← range]
  constructor
  · intro member
    obtain ⟨other, isKey, combination⟩ := member
    obtain ⟨otherMods, isCombo, same⟩ := List.mem_map.mp combination
    obtain ⟨rfl, rfl⟩ := Prod.mk.inj same
    exact ⟨isKey, isCombo⟩
  · intro visits
    exact ⟨kc, visits.1, List.mem_map.mpr ⟨mods, visits.2, rfl⟩⟩

theorem positions_sorted :
    keymap.positions.Pairwise fun earlier later =>
      earlier.1 < later.1 ∨ earlier.1 = later.1 ∧ earlier.2 ≤ later.2 := by
  rw [positions, List.pairwise_flatMap]
  constructor
  · intro kc _
    rw [List.pairwise_map]
    have combos : MOD_COMBOS.Pairwise (· ≤ ·) := by
      decide
    exact combos.imp fun ordered => Or.inr ⟨rfl, ordered⟩
  · have upwards : keymap.keycodes.Pairwise (· < ·) :=
      List.pairwise_lt_range' 1 Nat.one_pos
    apply upwards.imp
    intro kc otherKc less earlier isEarlier later isLater
    obtain ⟨mods, _, rfl⟩ := List.mem_map.mp isEarlier
    obtain ⟨otherMods, _, rfl⟩ := List.mem_map.mp isLater
    exact Or.inl less

theorem candidate_eq_some_iff {position : Nat × UInt32}
    {found : XkbCacheEntry} :
    keymap.candidate position = some found ↔
      keymap.produced position.1 position.2 = some found.codepoint ∧
        found = entry position.1 position.2 found.codepoint := by
  rw [candidate, Option.map_eq_some_iff]
  constructor
  · intro produced
    obtain ⟨cp, produced, rfl⟩ := produced
    exact ⟨produced, rfl⟩
  · intro parts
    exact ⟨found.codepoint, parts.1, parts.2.symm⟩

theorem cacheMods_eq (isCombo : mods ∈ MOD_COMBOS) : cacheMods mods = mods := by
  have combos : MOD_COMBOS.all fun mods => cacheMods mods = mods := by
    decide
  exact of_decide_eq_true (List.all_eq_true.mp combos mods isCombo)

theorem mem_scanned_iff {found : XkbCacheEntry} :
    found ∈ keymap.scanned ↔
      ∃ kc mods, keymap.Produces kc mods found.codepoint ∧
        found = entry kc mods found.codepoint := by
  rw [scanned, List.mem_filterMap]
  constructor
  · intro member
    obtain ⟨position, visited, isFound⟩ := member
    obtain ⟨produced, same⟩ := candidate_eq_some_iff.mp isFound
    exact ⟨position.1, position.2, ⟨mem_positions_iff.mp visited, produced⟩, same⟩
  · intro member
    obtain ⟨kc, mods, produces, same⟩ := member
    exact ⟨(kc, mods), mem_positions_iff.mpr produces.1,
      candidate_eq_some_iff.mpr ⟨produces.2, same⟩⟩

/-! ## The table -/

/-- The body of the loops puts the candidate into the table. -/
theorem scanKey_eq (cache : List XkbCacheEntry) (kc : Nat) (mods : UInt32) :
    keymap.scanKey cache kc mods =
      (keymap.candidate (kc, mods)).elim cache
        (FirstWins.enrol XkbCacheEntry.codepoint cacheCapacity cache) := by
  rw [scanKey, candidate]
  cases keymap.produced kc mods with
  | none => rfl
  | some cp => rfl

theorem buildCache_eq :
    keymap.buildCache =
      FirstWins.enrolAll XkbCacheEntry.codepoint cacheCapacity keymap.scanned := by
  rw [buildCache, FirstWins.enrolAll, scanned, List.foldl_filterMap, positions,
    List.foldl_flatMap]
  congr 1
  funext cache kc
  rw [List.foldl_map]
  congr 1
  funext cache mods
  rw [scanKey_eq]
  cases keymap.candidate (kc, mods) with
  | none => rfl
  | some found => rfl

theorem candidate_any_iff {position : Nat × UInt32} :
    (keymap.candidate position).any (fun found => found.codepoint = cp) = true ↔
      keymap.produced position.1 position.2 = some cp := by
  rw [candidate]
  cases keymap.produced position.1 position.2 with
  | none => simp
  | some other => simp [entry]

/-- The first entry of the scan belongs to the first key. -/
theorem firstProduces_of_first {found : XkbCacheEntry}
    (isFirst : FirstWins.first XkbCacheEntry.codepoint cp keymap.scanned =
      some found) :
    ∃ kc mods, keymap.FirstProduces kc mods cp ∧ found = entry kc mods cp := by
  rw [FirstWins.first, scanned, List.find?_filterMap, Option.bind_eq_some_iff]
    at isFirst
  obtain ⟨position, atPosition, isFound⟩ := isFirst
  obtain ⟨has, before, behind, split, none⟩ :=
    List.find?_eq_some_iff_append.mp atPosition
  have produced := candidate_any_iff.mp has
  obtain ⟨same, isEntry⟩ := candidate_eq_some_iff.mp isFound
  obtain rfl := Option.some.inj (produced.symm.trans same)
  have visited : position ∈ keymap.positions := by
    rw [split]
    exact List.mem_append_right before (List.mem_cons_self ..)
  have produces := And.intro (mem_positions_iff.mp visited) produced
  refine ⟨position.1, position.2, ⟨produces, ?_⟩, isEntry⟩
  intro otherKc otherMods otherProduces
  have other := mem_positions_iff.mpr otherProduces.1
  rw [split, List.mem_append, List.mem_cons] at other
  rcases other with earlier | rfl | later
  · have refused := none _ earlier
    have has := (@candidate_any_iff keymap _ (otherKc, otherMods)).mpr
      otherProduces.2
    rw [has] at refused
    cases refused
  · exact Or.inr ⟨rfl, UInt32.le_refl _⟩
  · have sorted := @positions_sorted keymap
    rw [split, List.pairwise_append, List.pairwise_cons] at sorted
    exact sorted.2.1.1 _ later

theorem not_produces_of_first
    (isFirst : FirstWins.first XkbCacheEntry.codepoint cp keymap.scanned = none) :
    ∀ kc mods, ¬ keymap.Produces kc mods cp := by
  intro kc mods produces
  have isScanned : entry kc mods cp ∈ keymap.scanned :=
    mem_scanned_iff.mpr ⟨kc, mods, produces, rfl⟩
  have refused := List.find?_eq_none.mp isFirst _ isScanned
  simp [entry] at refused

end XkbKeymap

/-- The cache has no codepoint twice, at most 512 entries and only entries
that are right.  If the layout has at most 512 codepoints, a search for one of
them finds the first key for it, and a search for another finds nothing. -/
theorem buildCache_leastEffort (keymap : XkbKeymap) :
    (keymap.buildCache.map XkbCacheEntry.codepoint).Nodup ∧
      keymap.buildCache.length ≤ 512 ∧
      (∀ found ∈ keymap.buildCache, ∃ kc mods,
        keymap.Produces kc mods found.codepoint ∧
          found.evdevKey = (Int32.ofNat kc).toInt - XKB_KEYCODE_OFFSET ∧
          found.modsMask = mods) ∧
      (keymap.codepoints.card ≤ 512 →
        ∀ utf8 cp, utf8CodePoint utf8 = some cp →
          (∃ kc mods, keymap.FirstProduces kc mods cp ∧
              (xkbmapInitAuto keymap).mapUtf8ToEvdev utf8 =
                some ((Int32.ofNat kc).toInt - XKB_KEYCODE_OFFSET, mods)) ∨
            (∀ kc mods, ¬ keymap.Produces kc mods cp) ∧
              (xkbmapInitAuto keymap).mapUtf8ToEvdev utf8 = none) := by
  refine ⟨?_, ?_, ?_, ?_⟩
  · rw [XkbKeymap.buildCache_eq]
    exact FirstWins.nodup_enrolAll _
  · rw [XkbKeymap.buildCache_eq]
    exact FirstWins.length_enrolAll_le _
  · intro found member
    rw [XkbKeymap.buildCache_eq] at member
    have isScanned := FirstWins.enrolAll_subset _ member
    obtain ⟨kc, mods, produces, same⟩ := XkbKeymap.mem_scanned_iff.mp isScanned
    refine ⟨kc, mods, produces, ?_, ?_⟩
    · rw [same, XkbKeymap.entry]
    · rw [same]
      exact XkbKeymap.cacheMods_eq produces.1.2.2
  · intro room utf8 cp decodes
    have fits : FirstWins.Fits XkbCacheEntry.codepoint cacheCapacity keymap.scanned :=
      room
    have answer := (xkbmapInitAuto keymap).mapUtf8ToEvdev_eq decodes
    have same := FirstWins.first_enrolAll fits cp
    rw [← XkbKeymap.buildCache_eq] at same
    change _ = (FirstWins.first XkbCacheEntry.codepoint cp
      keymap.buildCache).map _ at answer
    rw [same] at answer
    cases first : FirstWins.first XkbCacheEntry.codepoint cp keymap.scanned with
    | none =>
        rw [first] at answer
        exact Or.inr ⟨XkbKeymap.not_produces_of_first first, answer⟩
    | some found =>
        obtain ⟨kc, mods, isFirst, rfl⟩ := XkbKeymap.firstProduces_of_first first
        refine Or.inl ⟨kc, mods, isFirst, ?_⟩
        rw [answer, first, Option.map_some, XkbKeymap.entry,
          XkbKeymap.cacheMods_eq isFirst.1.1.2.2]

/-- A keymap with one key, which has the letter a and, with Shift, A. -/
def letterKeymap : XkbKeymap where
  minKeycode := 38
  maxKeycode := 38
  valid := by decide
  modGetIndex name := if name = "Shift" then some 0 else none
  keyGetOneSym mask _ := if mask = 1 then 0x41 else 0x61
  keysymToUtf32 keysym := keysym

theorem buildCache_letterKeymap :
    (∃ kc mods, letterKeymap.FirstProduces kc mods 0x41 ∧
        (xkbmapInitAuto letterKeymap).mapUtf8ToEvdev [0x41] =
          some ((Int32.ofNat kc).toInt - XKB_KEYCODE_OFFSET, mods)) ∨
      (∀ kc mods, ¬ letterKeymap.Produces kc mods 0x41) ∧
        (xkbmapInitAuto letterKeymap).mapUtf8ToEvdev [0x41] = none :=
  (buildCache_leastEffort letterKeymap).2.2.2 (by decide +kernel) [0x41] 0x41 rfl

end MouseHero
