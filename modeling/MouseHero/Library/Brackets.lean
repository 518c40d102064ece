import Mathlib.Data.List.Nodup

/-!
# Brackets

Resources are acquired one after another, used and released again.  If an
acquisition fails, those acquired before it are released.  Either way every
acquisition that succeeds has one release, in reverse order, and the resources
are used only while they are held.
-/

namespace MouseHero.Brackets

variable {Resource Use : Type}

/-- A step, in the order of time. -/
inductive Step (Resource Use : Type) where
  | acquire (resource : Resource) (succeeded : Bool)
  | release (resource : Resource)
  | use (what : Use)
  deriving DecidableEq, Repr

namespace Step

def tried : Step Resource Use → Option Resource
  | .acquire resource _ => some resource
  | _ => none

def acquired : Step Resource Use → Option Resource
  | .acquire resource true => some resource
  | _ => none

def released : Step Resource Use → Option Resource
  | .release resource => some resource
  | _ => none

def used : Step Resource Use → Option Use
  | .use what => some what
  | _ => none

end Step

variable [DecidableEq Resource]

/-- Behind every acquisition there is exactly one release. -/
def ReleasedOnce : List (Step Resource Use) → Prop
  | [] => True
  | step :: later =>
      (∀ resource, step.acquired = some resource →
        (later.filterMap Step.released).count resource = 1) ∧
        ReleasedOnce later

/-- The resources that are held behind a step. -/
def heldAfter (held : List Resource) : Step Resource Use → List Resource
  | .acquire resource true => resource :: held
  | .acquire _ false => held
  | .release resource => held.erase resource
  | .use _ => held

/-- All the resources that are needed are held whenever they are used. -/
def UsedWhileHeld (needed : Resource → Prop) :
    List Resource → List (Step Resource Use) → Prop
  | _, [] => True
  | held, step :: later =>
      (step.used.isSome = true → ∀ resource, needed resource → resource ∈ held) ∧
        UsedWhileHeld needed (heldAfter held step) later

/-- Balanced and nested. -/
structure Balanced (needed : Resource → Prop)
    (steps : List (Step Resource Use)) : Prop where
  triedOnce : (steps.filterMap Step.tried).Nodup
  releasedOnce : ReleasedOnce steps
  reversed : steps.filterMap Step.released =
    (steps.filterMap Step.acquired).reverse
  usedWhileHeld : UsedWhileHeld needed [] steps

/-- The steps that acquire all of the resources. -/
def acquireAll (resources : List Resource) : List (Step Resource Use) :=
  resources.map fun resource => .acquire resource true

/-- The steps that release all of the resources. -/
def releaseAll (resources : List Resource) : List (Step Resource Use) :=
  resources.map .release

/-- The steps that use the resources. -/
def useAll (uses : List Use) : List (Step Resource Use) :=
  uses.map .use

/-- The two shapes: a failure releases what has been acquired before it, and
otherwise the resources are used and released. -/
inductive Ladder (wanted : List Resource) : List (Step Resource Use) → Prop
  | rolledBack {taken rest : List Resource} {failed : Resource} :
      wanted = taken ++ failed :: rest →
      Ladder wanted
        (acquireAll taken ++ .acquire failed false :: releaseAll taken.reverse)
  | complete (uses : List Use) :
      Ladder wanted
        (acquireAll wanted ++ (useAll uses ++ releaseAll wanted.reverse))

/-! ## Segments -/

section Segments

variable {needed : Resource → Prop} {held : List Resource}
variable {later : List (Step Resource Use)}

omit [DecidableEq Resource] in
theorem filterMap_map_some {Item Found : Type} {pick : Item → Option Found}
    {make : Found → Item} (picks : ∀ found, pick (make found) = some found)
    (list : List Found) : (list.map make).filterMap pick = list := by
  have same : pick ∘ make = some := funext picks
  rw [List.filterMap_map, same, List.filterMap_some]

omit [DecidableEq Resource] in
theorem filterMap_map_none {Item Found Part : Type} {pick : Item → Option Found}
    {make : Part → Item} (skips : ∀ part, pick (make part) = none)
    (list : List Part) : (list.map make).filterMap pick = [] := by
  rw [List.filterMap_map]
  exact List.filterMap_eq_nil_iff.mpr fun part _ => skips part

section Picks

variable (resources : List Resource) (uses : List Use)

omit [DecidableEq Resource]

@[simp]
theorem tried_acquireAll :
    (acquireAll resources : List (Step Resource Use)).filterMap Step.tried =
      resources :=
  @filterMap_map_some _ _ Step.tried (fun resource => .acquire resource true)
    (fun _ => rfl)
    resources

@[simp]
theorem acquired_acquireAll :
    (acquireAll resources : List (Step Resource Use)).filterMap Step.acquired =
      resources :=
  @filterMap_map_some _ _ Step.acquired (fun resource => .acquire resource true)
    (fun _ => rfl)
    resources

@[simp]
theorem released_acquireAll :
    (acquireAll resources : List (Step Resource Use)).filterMap Step.released =
      [] :=
  filterMap_map_none (fun _ => rfl) resources

@[simp]
theorem tried_releaseAll :
    (releaseAll resources : List (Step Resource Use)).filterMap Step.tried = [] :=
  filterMap_map_none (fun _ => rfl) resources

@[simp]
theorem acquired_releaseAll :
    (releaseAll resources : List (Step Resource Use)).filterMap Step.acquired =
      [] :=
  filterMap_map_none (fun _ => rfl) resources

@[simp]
theorem released_releaseAll :
    (releaseAll resources : List (Step Resource Use)).filterMap Step.released =
      resources :=
  @filterMap_map_some _ _ Step.released .release (fun _ => rfl)
    resources

@[simp]
theorem used_releaseAll :
    (releaseAll resources : List (Step Resource Use)).filterMap Step.used = [] :=
  filterMap_map_none (fun _ => rfl) resources

@[simp]
theorem used_acquireAll :
    (acquireAll resources : List (Step Resource Use)).filterMap Step.used = [] :=
  filterMap_map_none (fun _ => rfl) resources

@[simp]
theorem used_useAll :
    (useAll uses : List (Step Resource Use)).filterMap Step.used = uses :=
  @filterMap_map_some _ _ Step.used .use (fun _ => rfl) uses

@[simp]
theorem picks_useAll :
    (useAll uses : List (Step Resource Use)).filterMap Step.tried = [] ∧
      (useAll uses : List (Step Resource Use)).filterMap Step.acquired = [] ∧
      (useAll uses : List (Step Resource Use)).filterMap Step.released = [] :=
  ⟨filterMap_map_none (fun _ => rfl) uses, filterMap_map_none (fun _ => rfl) uses,
    filterMap_map_none (fun _ => rfl) uses⟩

variable {later : List (Step Resource Use)}

@[simp]
theorem picks_failed (failed : Resource) :
    (.acquire failed false :: later).filterMap Step.tried =
        failed :: later.filterMap Step.tried ∧
      (.acquire failed false :: later).filterMap Step.acquired =
        later.filterMap Step.acquired ∧
      (.acquire failed false :: later).filterMap Step.released =
        later.filterMap Step.released ∧
      (.acquire failed false :: later).filterMap Step.used =
        later.filterMap Step.used :=
  ⟨rfl, rfl, rfl, rfl⟩

theorem used_complete (wanted : List Resource) (uses : List Use) :
    (acquireAll wanted ++ (useAll uses ++ releaseAll wanted.reverse)).filterMap
      Step.used = uses := by
  rw [List.filterMap_append, List.filterMap_append, used_acquireAll, used_useAll,
    used_releaseAll, List.nil_append, List.append_nil]

theorem used_rolledBack (taken : List Resource) (failed : Resource) :
    (acquireAll taken ++ .acquire failed false :: releaseAll taken.reverse :
      List (Step Resource Use)).filterMap Step.used = [] := by
  rw [List.filterMap_append, used_acquireAll, (picks_failed failed).2.2.2,
    used_releaseAll, List.nil_append]

end Picks

theorem releasedOnce_acquireAll (resources : List Resource)
    (once : ∀ resource ∈ resources,
      (later.filterMap Step.released).count resource = 1)
    (behind : ReleasedOnce later) :
    ReleasedOnce (acquireAll resources ++ later) := by
  induction resources with
  | nil => exact behind
  | cons resource resources inductionHypothesis =>
      obtain ⟨here, others⟩ := List.forall_mem_cons.mp once
      refine ⟨?_, inductionHypothesis others⟩
      intro acquired isAcquired
      obtain rfl := Option.some.inj isAcquired
      change ((acquireAll resources ++ later).filterMap Step.released).count _ = 1
      rw [List.filterMap_append, released_acquireAll, List.nil_append]
      exact here

theorem releasedOnce_of_acquired {steps : List (Step Resource Use)}
    (none : steps.filterMap Step.acquired = []) : ReleasedOnce steps := by
  induction steps with
  | nil => trivial
  | cons step later inductionHypothesis =>
      rw [List.filterMap_eq_nil_iff] at none
      obtain ⟨here, others⟩ := List.forall_mem_cons.mp none
      refine ⟨?_, inductionHypothesis (List.filterMap_eq_nil_iff.mpr others)⟩
      intro resource isAcquired
      rw [here] at isAcquired
      cases isAcquired

theorem usedWhileHeld_acquireAll (resources : List Resource)
    (behind : UsedWhileHeld needed (resources.reverse ++ held) later) :
    UsedWhileHeld needed held (acquireAll resources ++ later) := by
  induction resources generalizing held with
  | nil => exact behind
  | cons resource resources inductionHypothesis =>
      refine ⟨fun isUse => absurd isUse Bool.false_ne_true, ?_⟩
      apply inductionHypothesis
      rwa [List.reverse_cons, List.append_assoc] at behind

theorem usedWhileHeld_uses (uses : List Use)
    (enough : ∀ resource, needed resource → resource ∈ held)
    (behind : UsedWhileHeld needed held later) :
    UsedWhileHeld needed held (useAll uses ++ later) := by
  induction uses with
  | nil => exact behind
  | cons what uses inductionHypothesis =>
      exact ⟨fun _ => enough, inductionHypothesis⟩

theorem usedWhileHeld_of_used {steps : List (Step Resource Use)}
    (none : steps.filterMap Step.used = []) :
    UsedWhileHeld needed held steps := by
  induction steps generalizing held with
  | nil => trivial
  | cons step later inductionHypothesis =>
      rw [List.filterMap_eq_nil_iff] at none
      obtain ⟨here, others⟩ := List.forall_mem_cons.mp none
      refine ⟨?_, inductionHypothesis (List.filterMap_eq_nil_iff.mpr others)⟩
      intro isUse
      rw [here] at isUse
      cases isUse

end Segments

/-! ## The shapes are balanced -/

omit [DecidableEq Resource] in
theorem Ladder.mem_wanted {wanted : List Resource} {resource : Resource}
    {steps : List (Step Resource Use)} (ladder : Ladder wanted steps)
    (tried : resource ∈ steps.filterMap Step.tried) : resource ∈ wanted := by
  cases ladder with
  | @rolledBack taken rest failed split =>
      rw [List.filterMap_append, tried_acquireAll, (picks_failed failed).1,
        tried_releaseAll] at tried
      rw [split]
      rcases List.mem_append.mp tried with isTaken | isLast
      · exact List.mem_append_left _ isTaken
      · rw [List.mem_singleton.mp isLast]
        exact List.mem_append_right taken List.mem_cons_self
  | complete uses =>
      simpa using tried

/-- If nothing is wanted twice and all that is needed is wanted. -/
theorem Ladder.balanced {wanted : List Resource} {needed : Resource → Prop}
    {steps : List (Step Resource Use)} (ladder : Ladder wanted steps)
    (nodup : wanted.Nodup)
    (enough : ∀ resource, needed resource → resource ∈ wanted) :
    Balanced needed steps := by
  cases ladder with
  | @rolledBack taken rest failed split =>
      rw [split] at nodup
      obtain ⟨takenNodup, _, apart⟩ := List.nodup_append.mp nodup
      have once : ∀ resource ∈ taken, taken.reverse.count resource = 1 := by
        intro resource member
        rw [List.count_reverse]
        exact List.count_eq_one_of_mem takenNodup member
      refine ⟨?_, ?_, ?_, ?_⟩
      · have tried : (taken ++ [failed]).Nodup :=
          nodup.sublist ((List.singleton_sublist.mpr List.mem_cons_self).append_left
            taken)
        simpa using tried
      · apply releasedOnce_acquireAll
        · simpa using once
        · exact releasedOnce_of_acquired (by simp)
      · simp
      · apply usedWhileHeld_acquireAll
        exact usedWhileHeld_of_used (by simp)
  | complete uses =>
      have once : ∀ resource ∈ wanted, wanted.reverse.count resource = 1 := by
        intro resource member
        rw [List.count_reverse]
        exact List.count_eq_one_of_mem nodup member
      refine ⟨?_, ?_, ?_, ?_⟩
      · simpa using nodup
      · apply releasedOnce_acquireAll
        · simpa using once
        · exact releasedOnce_of_acquired (by simp)
      · simp
      · apply usedWhileHeld_acquireAll
        apply usedWhileHeld_uses
        · intro resource isNeeded
          simpa using enough resource isNeeded
        · exact usedWhileHeld_of_used (by simp)

end MouseHero.Brackets
