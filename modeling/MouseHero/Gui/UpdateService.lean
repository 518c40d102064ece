import Mathlib.Data.Int.ConditionallyCompleteOrder
import Mathlib.Data.List.GetD
import Mathlib.Data.Prod.Lex
import Mathlib.Order.ConditionallyCompleteLattice.Basic
import Mathlib.Order.PiLex
import MouseHero.Library.KeyComparison

/-!
# Which version is newer

`update_service.dart`: versions are compared segment by segment, and builds
decide between equal versions.  `int.tryParse` is a parameter.
-/

namespace MouseHero

variable (tryParse : List Char → Option Int)

/-! ## Versions -/

/-- `_normalizeVersion`. -/
def normalizeVersion (value : List Char) : List Int :=
  let sanitized := (value.splitOn '+').headD []
  (sanitized.splitOn '.').map fun segment => (tryParse segment).getD 0

/-- The loop of `_compareVersionStrings` over the given indices. -/
def compareParts (partsA partsB : List Int) : List Nat → Int
  | [] => 0
  | i :: rest =>
      let va := if i < partsA.length then partsA.getD i 0 else 0
      let vb := if i < partsB.length then partsB.getD i 0 else 0
      if vb < va then 1
      else if va < vb then -1
      else compareParts partsA partsB rest

/-- `_compareVersionStrings`. -/
def compareVersionStrings (a b : List Char) : Int :=
  let partsA := normalizeVersion tryParse a
  let partsB := normalizeVersion tryParse b
  let maxLength :=
    if partsB.length < partsA.length then partsA.length else partsB.length
  compareParts partsA partsB (List.range maxLength)

/-- `_isRemoteNewer`. -/
def isRemoteNewer (remoteVersion : List Char)
    (remoteBuild : Option (List Char)) (currentVersion : List Char)
    (currentBuild : Option (List Char)) : Bool :=
  let versionCompare :=
    compareVersionStrings tryParse remoteVersion currentVersion
  if 0 < versionCompare then true
  else if versionCompare < 0 then false
  else
    match tryParse (remoteBuild.getD []), tryParse (currentBuild.getD []) with
    | some remoteBuildNumber, some currentBuildNumber =>
        currentBuildNumber < remoteBuildNumber
    | some _, none => true
    | none, _ => false

/-! ## Keys -/

/-- The segments of a version, with zeros behind them. -/
def paddedParts (parts : List Int) : Lex (Nat → Int) :=
  toLex fun i => parts.getD i 0

/-- What versions are compared by. -/
def versionKey (version : List Char) : Lex (Nat → Int) :=
  paddedParts (normalizeVersion tryParse version)

/-- What builds are compared by.  A build that is no number comes first. -/
def buildKey (build : Option (List Char)) : WithBot Int :=
  tryParse (build.getD [])

/-- A version with its build. -/
abbrev Release : Type := List Char × Option (List Char)

/-- What releases are compared by. -/
def releaseKey (release : Release) : Lex (Nat → Int) ×ₗ WithBot Int :=
  toLex (versionKey tryParse release.1, buildKey tryParse release.2)

/-- `_isRemoteNewer` of two releases. -/
def Newer (remote current : Release) : Prop :=
  isRemoteNewer tryParse remote.1 remote.2 current.1 current.2 = true

/-! ## The comparison of versions -/

section Parts

variable (partsA partsB : List Int)

/-- The loop finds the first difference, if the indices behind and before it
have none. -/
theorem compareParts_agrees (count start : Nat)
    (before : ∀ i < start, partsA.getD i 0 = partsB.getD i 0)
    (behind : ∀ i, start + count ≤ i →
      partsA.getD i 0 = partsB.getD i 0) :
    let result := compareParts partsA partsB (List.range' start count)
    paddedParts partsA < paddedParts partsB ∧ result = -1 ∨
      paddedParts partsA = paddedParts partsB ∧ result = 0 ∨
      paddedParts partsB < paddedParts partsA ∧ result = 1 := by
  have bounded (parts : List Int) (i : Nat) :
      (if i < parts.length then parts.getD i 0 else 0) = parts.getD i 0 := by
    split
    · rfl
    · rename_i outside
      exact (List.getD_eq_default _ _ (not_lt.mp outside)).symm
  induction count generalizing start with
  | zero =>
      refine Or.inr (Or.inl ⟨?_, rfl⟩)
      refine congrArg toLex (funext fun i => ?_)
      rcases Nat.lt_or_ge i start with earlier | later
      · exact before i earlier
      · exact behind i later
  | succ count inductionHypothesis =>
      simp only [List.range'_succ, compareParts, bounded]
      rcases lt_trichotomy (partsA.getD start 0) (partsB.getD start 0)
        with less | same | more
      · refine Or.inl ⟨⟨start, before, less⟩, ?_⟩
        rw [if_neg less.not_gt, if_pos less]
      · rw [if_neg same.not_gt, if_neg same.not_lt]
        apply inductionHypothesis (start + 1)
        · intro i earlier
          rcases Nat.lt_succ_iff_lt_or_eq.mp earlier with further | rfl
          · exact before i further
          · exact same
        · intro i later
          exact behind i (by omega)
      · refine Or.inr (Or.inr ⟨⟨start, fun i earlier => ?_, more⟩, ?_⟩)
        · exact (before i earlier).symm
        · rw [if_pos more]

end Parts

theorem compareVersionStrings_agrees :
    KeyComparison.Agrees (compareVersionStrings tryParse)
      (versionKey tryParse) := by
  intro a b
  have range := List.range_eq_range'
    (n := max (normalizeVersion tryParse a).length
      (normalizeVersion tryParse b).length)
  have longest (m n : Nat) : (if n < m then m else n) = max m n := by
    split <;> omega
  simp only [compareVersionStrings, longest, range]
  apply compareParts_agrees
  · intro i impossible
    exact absurd impossible (Nat.not_lt_zero i)
  · intro i behind
    rw [List.getD_eq_default _ _ (by omega), List.getD_eq_default _ _ (by omega)]

/-! ## What does not change a version -/

section Suffixes

variable {tryParse : List Char → Option Int}

private theorem paddedParts_append_zero (parts : List Int) :
    paddedParts (parts ++ [0]) = paddedParts parts := by
  refine congrArg toLex (funext fun i => ?_)
  rcases lt_trichotomy i parts.length with inside | rfl | outside
  · rw [List.getD_append _ _ _ _ inside]
  · rw [List.getD_append_right _ _ _ _ (le_refl _),
      List.getD_eq_default _ _ (le_refl _), Nat.sub_self]
    rfl
  · rw [List.getD_eq_default _ _ outside.le,
      List.getD_eq_default _ _ (by simpa using Nat.succ_le_of_lt outside)]

private theorem normalizeVersion_append_zero {version : List Char}
    (plain : '+' ∉ version) (zero : tryParse ['0'] = some 0) :
    normalizeVersion tryParse (version ++ ['.', '0']) =
      normalizeVersion tryParse version ++ [0] := by
  have plainToo : '+' ∉ version ++ ['.', '0'] := by simp [plain]
  have last : List.splitOn '.' ['0'] = [['0']] :=
    List.splitOn_eq_singleton (by decide)
  simp only [normalizeVersion, List.splitOn_eq_singleton plain,
    List.splitOn_eq_singleton plainToo, List.headD_cons]
  rw [List.splitOn_append_cons_self, last, List.map_append, List.map_singleton,
    zero, Option.getD_some]

/-- Any number of segments `.0` leaves a version what it is. -/
theorem versionKey_append_zeros {version : List Char}
    (plain : '+' ∉ version) (zero : tryParse ['0'] = some 0) (count : Nat) :
    versionKey tryParse
        (version ++ (List.replicate count ['.', '0']).flatten) =
      versionKey tryParse version := by
  induction count generalizing version with
  | zero => simp
  | succ count inductionHypothesis =>
      have plainToo : '+' ∉ version ++ ['.', '0'] := by simp [plain]
      rw [List.replicate_succ, List.flatten_cons, ← List.append_assoc,
        inductionHypothesis plainToo, versionKey,
        normalizeVersion_append_zero plain zero, paddedParts_append_zero]
      rfl

private theorem normalizeVersion_append_build (version build : List Char) :
    normalizeVersion tryParse (version ++ '+' :: build) =
      normalizeVersion tryParse version := by
  obtain ⟨first, rest, split⟩ :=
    List.exists_cons_of_ne_nil (List.splitOn_ne_nil '+' version)
  simp only [normalizeVersion, List.splitOn_append_cons_self, split,
    List.cons_append, List.headD_cons]

end Suffixes

/-! ## Releases -/

/-- With equal versions the builds decide.  A number is above all that is no
number. -/
theorem builds_decide (remote current : WithBot Int) :
    (match (remote : Option Int), (current : Option Int) with
      | some remoteBuildNumber, some currentBuildNumber =>
          decide (currentBuildNumber < remoteBuildNumber)
      | some _, none => true
      | none, _ => false) = true ↔
      current < remote := by
  cases remote using WithBot.recBotCoe with
  | bot => exact iff_of_false Bool.false_ne_true not_lt_bot
  | coe remoteBuildNumber =>
      cases current using WithBot.recBotCoe with
      | bot => exact iff_of_true rfl (WithBot.bot_lt_coe remoteBuildNumber)
      | coe currentBuildNumber =>
          exact decide_eq_true_iff.trans WithBot.coe_lt_coe.symm

private theorem newer_iff (remote current : Release) :
    Newer tryParse remote current ↔
      releaseKey tryParse current < releaseKey tryParse remote := by
  have agrees := compareVersionStrings_agrees tryParse
  rw [Newer, isRemoteNewer, releaseKey, releaseKey, Prod.Lex.toLex_lt_toLex]
  rcases agrees remote.1 current.1 with
    ⟨older, sign⟩ | ⟨same, sign⟩ | ⟨newer, sign⟩
  · simp only [sign]
    refine iff_of_false Bool.false_ne_true ?_
    intro greater
    rcases greater with greater | ⟨same, _⟩
    · exact lt_asymm older greater
    · exact older.ne same.symm
  · simp only [sign]
    refine (builds_decide _ _).trans ?_
    constructor
    · exact fun greater => Or.inr ⟨same.symm, greater⟩
    · intro greater
      rcases greater with greater | ⟨_, greater⟩
      · exact absurd same.symm greater.ne
      · exact greater
  · simp only [sign]
    exact iff_of_true rfl (Or.inl newer)

/-- The laws of the comparison of versions. -/
structure VersionOrder (compare : List Char → List Char → Int) : Prop where
  swap : ∀ a b, compare a b = -compare b a
  total : ∀ a b, compare a b ≤ 0 ∨ compare b a ≤ 0
  trans : ∀ a b c, compare a b ≤ 0 → compare b c ≤ 0 → compare a c ≤ 0
  zeros : ∀ a b count, '+' ∉ a →
    compare (a ++ (List.replicate count ['.', '0']).flatten) b = compare a b
  build : ∀ a b suffix, compare (a ++ '+' :: suffix) b = compare a b

private theorem compareVersionStrings_order (zero : tryParse ['0'] = some 0) :
    VersionOrder (compareVersionStrings tryParse) where
  swap := KeyComparison.swap (compareVersionStrings_agrees tryParse)
  total a b := by
    have swap := KeyComparison.swap (compareVersionStrings_agrees tryParse) a b
    omega
  trans _ _ _ := KeyComparison.trans (compareVersionStrings_agrees tryParse)
  zeros _ b count plain :=
    KeyComparison.congr_left (compareVersionStrings_agrees tryParse)
      (versionKey_append_zeros plain zero count) b
  build a b suffix :=
    KeyComparison.congr_left (compareVersionStrings_agrees tryParse)
      (congrArg paddedParts (normalizeVersion_append_build a suffix)) b

/-- To be newer is a strict weak order on releases, in which the version comes
before the build. -/
theorem newer_strictWeakOrder (zero : tryParse ['0'] = some 0) :
    IsStrictWeakOrder Release (Newer tryParse) ∧
      (∀ first second,
        Newer tryParse first second → ¬ Newer tryParse second first) ∧
      VersionOrder (compareVersionStrings tryParse) ∧
      ∀ first second : Release,
        0 < compareVersionStrings tryParse first.1 second.1 →
          Newer tryParse first second ∧ ¬ Newer tryParse second first := by
  have asymmetric (first second : Release) (newer : Newer tryParse first second) :
      ¬ Newer tryParse second first := by
    rw [newer_iff] at newer ⊢
    exact newer.not_gt
  refine ⟨KeyComparison.isStrictWeakOrder (newer_iff tryParse), asymmetric,
    compareVersionStrings_order tryParse zero, ?_⟩
  intro first second higher
  have newer : Newer tryParse first second := by
    rw [Newer, isRemoteNewer, if_pos higher]
  exact ⟨newer, asymmetric first second newer⟩

/-- `int.tryParse` of strings of decimal digits. -/
def parseDigits (str : List Char) : Option Int :=
  if str ≠ [] ∧ str.all Char.isDigit then
    some (str.foldl (fun number digit => 10 * number + (digit.toNat - 48)) 0)
  else none

/-- Version 1.10 with a build is newer than 1.9.0 with a greater one. -/
theorem newer_oneTen :
    Newer parseDigits ("1.10".toList, some "7".toList)
        ("1.9.0".toList, some "8".toList) ∧
      ¬ Newer parseDigits ("1.9.0".toList, some "8".toList)
        ("1.10".toList, some "7".toList) :=
  (newer_strictWeakOrder parseDigits (by decide)).2.2.2 _ _ (by decide)

end MouseHero
