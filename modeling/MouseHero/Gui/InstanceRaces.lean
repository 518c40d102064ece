import MouseHero.Gui.SingleInstance

/-!
# Races of launches

If no call fails without a reason, and no launch looks or closes while another
one is about to use what it has found, at most one instance runs.  A launch that
does not wait for the other one can end with two of them.
-/

namespace MouseHero

namespace LaunchPhase

variable {first second : LaunchPhase}

/-- What the path holds for a launch. -/
def Fits (entry : Option SocketEntry) (launch : Nat) : LaunchPhase → Prop
  | found => entry.isSome = true
  | refused => entry.isSome = true
  | binding => entry = none
  | running listens => listens = true ∧ entry = some (.socket launch)
  | _ => True

/-- The phases of two launches at a time. -/
structure Apart (first second : LaunchPhase) : Prop where
  busy : first.isBusy = true → second.isBusy = false
  running : first.isBusy = true → first ≠ .found → second.isRunning = false

theorem fits_of_idle {phase : LaunchPhase} (isBusy : phase.isBusy = false)
    (isRunning : phase.isRunning = false) (entry : Option SocketEntry) (launch : Nat) :
    phase.Fits entry launch := by
  cases phase
  case running => exact absurd isRunning (by simp [LaunchPhase.isRunning])
  all_goals first | exact trivial | exact absurd isBusy (by decide)

theorem apart_of_notBusy (isBusy : first.isBusy = false) : Apart first second where
  busy := fun absurdly => by rw [isBusy] at absurdly; cases absurdly
  running := fun absurdly _ => by rw [isBusy] at absurdly; cases absurdly

theorem apart_of_idle (isBusy : second.isBusy = false)
    (isRunning : second.isRunning = false) : Apart first second where
  busy := fun _ => isBusy
  running := fun _ _ => isRunning

end LaunchPhase

namespace Launches

open LaunchPhase

variable {launches next last : Launches} {event : LaunchEvent} {launch other : Nat}

/-- What orderly launches keep to. -/
structure Tidy (launches : Launches) : Prop where
  fits : ∀ launch, (launches.phase launch).Fits launches.entry launch
  apart : ∀ {first second}, first ≠ second →
    Apart (launches.phase first) (launches.phase second)
  noDirectory : launches.entry ≠ some .directory

theorem Tidy.atMostOne (tidy : launches.Tidy) : launches.AtMostOne := by
  have entry : ∀ launch, (launches.phase launch).isRunning = true →
      launches.entry = some (.socket launch) := by
    intro launch isRunning
    have fits := tidy.fits launch
    cases phase : launches.phase launch <;> rw [phase] at fits isRunning
    case running listens => exact fits.2
    all_goals cases isRunning
  intro first second firstRuns secondRuns
  have same := (entry first firstRuns).symm.trans (entry second secondRuns)
  cases same
  rfl

theorem tidy_start {entry : Option SocketEntry} (noDirectory : entry ≠ some .directory) :
    (start entry).Tidy where
  fits := fun _ => trivial
  apart := fun _ => apart_of_notBusy rfl
  noDirectory

/-! ## Steps -/

/-- A launch goes on, and the others can be told from it. -/
theorem Tidy.goTo (tidy : launches.Tidy) {phase : LaunchPhase}
    (fits : phase.Fits launches.entry launch)
    (apart : ∀ other, other ≠ launch →
      Apart phase (launches.phase other) ∧ Apart (launches.phase other) phase) :
    (launches.goTo launch phase).Tidy where
  fits := by
    intro other
    by_cases same : other = launch
    · rw [same, phase_goTo_self]
      exact fits
    · rw [phase_goTo_of_ne same]
      exact tidy.fits other
  apart := by
    intro first second differ
    by_cases isFirst : first = launch
    · have isOther : second ≠ launch := fun same => differ (isFirst.trans same.symm)
      rw [isFirst, phase_goTo_self, phase_goTo_of_ne isOther]
      exact (apart second isOther).1
    · rw [phase_goTo_of_ne isFirst]
      by_cases isSecond : second = launch
      · rw [isSecond, phase_goTo_self]
        exact (apart first isFirst).2
      · rw [phase_goTo_of_ne isSecond]
        exact tidy.apart differ
  noDirectory := tidy.noDirectory

/-- A launch that neither uses the path nor runs. -/
theorem Tidy.goTo_idle (tidy : launches.Tidy) {phase : LaunchPhase}
    (isBusy : phase.isBusy = false) (isRunning : phase.isRunning = false) :
    (launches.goTo launch phase).Tidy :=
  tidy.goTo (fits_of_idle isBusy isRunning _ _) fun _ _ =>
    ⟨apart_of_notBusy isBusy, apart_of_idle isBusy isRunning⟩

/-- The other launches neither use the path nor run. -/
def Solitary (launches : Launches) (launch : Nat) : Prop :=
  ∀ other, other ≠ launch →
    (launches.phase other).isBusy = false ∧ (launches.phase other).isRunning = false

theorem Tidy.solitary (tidy : launches.Tidy)
    (isBusy : (launches.phase launch).isBusy = true)
    (notFound : launches.phase launch ≠ .found) : launches.Solitary launch := by
  intro other differs
  have apart := tidy.apart (Ne.symm differs)
  exact ⟨apart.busy isBusy, apart.running isBusy notFound⟩

/-- A launch on its own can also change what is under the path. -/
theorem Solitary.goTo (solitary : launches.Solitary launch)
    {phase : LaunchPhase} {entry : Option SocketEntry}
    (fits : phase.Fits entry launch) (noDirectory : entry ≠ some .directory) :
    ((launches.goTo launch phase).withEntry entry).Tidy where
  fits := by
    intro other
    rw [phase_withEntry, entry_withEntry]
    by_cases same : other = launch
    · rw [same, phase_goTo_self]
      exact fits
    · rw [phase_goTo_of_ne same]
      obtain ⟨isBusy, isRunning⟩ := solitary other same
      exact fits_of_idle isBusy isRunning entry other
  apart := by
    intro first second differ
    rw [phase_withEntry]
    by_cases isFirst : first = launch
    · have isOther : second ≠ launch := fun same => differ (isFirst.trans same.symm)
      obtain ⟨isBusy, isRunning⟩ := solitary second isOther
      rw [phase_goTo_of_ne isOther]
      exact apart_of_idle isBusy isRunning
    · rw [phase_goTo_of_ne isFirst]
      exact apart_of_notBusy (solitary first isFirst).1
  noDirectory := noDirectory

theorem fileExists_of_noDirectory (noDirectory : launches.entry ≠ some .directory) :
    launches.fileExists = launches.entry.isSome := by
  rw [fileExists]
  cases isEntry : launches.entry with
  | none => rfl
  | some entry =>
      cases entry with
      | directory => exact absurd isEntry noDirectory
      | socket owner => rfl
      | file => rfl

/-- The instance that runs is the one that is called. -/
theorem Tidy.served_of_running (tidy : launches.Tidy)
    (isRunning : (launches.phase launch).isRunning = true) : launches.served = true := by
  have fits := tidy.fits launch
  cases phase : launches.phase launch <;> rw [phase] at fits isRunning
  case running listens =>
      obtain ⟨rfl, isEntry⟩ := fits
      exact served_iff.mpr ⟨launch, isEntry, phase⟩
  all_goals cases isRunning

theorem Tidy.look (tidy : launches.Tidy)
    (alone : ∀ other, (launches.phase other).isBusy = false) :
    (launches.goTo launch launches.looked).Tidy := by
  rw [looked, fileExists_of_noDirectory tidy.noDirectory]
  by_cases isThere : launches.entry.isSome = true
  · rw [if_pos isThere]
    refine tidy.goTo isThere fun other _ => ⟨?_, apart_of_notBusy (alone other)⟩
    exact { busy := fun _ => alone other, running := fun _ notFound => absurd rfl notFound }
  · rw [if_neg isThere]
    rw [Option.not_isSome_iff_eq_none] at isThere
    refine tidy.goTo isThere fun other _ => ⟨?_, apart_of_notBusy (alone other)⟩
    refine apart_of_idle (alone other) ?_
    rw [← Bool.not_eq_true]
    intro isRunning
    obtain ⟨owner, isEntry, -⟩ := served_iff.mp (tidy.served_of_running isRunning)
    rw [isThere] at isEntry
    cases isEntry

theorem Tidy.refuse (tidy : launches.Tidy) (found : launches.phase launch = .found)
    (notServed : launches.served = false) : (launches.goTo launch .refused).Tidy := by
  have fits := tidy.fits launch
  rw [found] at fits
  refine tidy.goTo fits fun other differs => ?_
  have isBusy := (tidy.apart (Ne.symm differs)).busy (by rw [found]; rfl)
  refine ⟨apart_of_idle isBusy ?_, apart_of_notBusy isBusy⟩
  rw [← Bool.not_eq_true]
  intro isRunning
  have served := tidy.served_of_running isRunning
  rw [notServed] at served
  cases served

/-- The instance that runs is on its own. -/
theorem Tidy.solitary_of_running (tidy : launches.Tidy)
    (alone : ∀ other, (launches.phase other).isBusy = false)
    (isRunning : (launches.phase launch).isRunning = true) :
    launches.Solitary launch := by
  intro other differs
  refine ⟨alone other, ?_⟩
  rw [← Bool.not_eq_true]
  intro otherRuns
  exact differs (tidy.atMostOne other launch otherRuns isRunning)

theorem Tidy.step (tidy : launches.Tidy) (orderly : launches.Orderly event)
    (steps : launches.step event = some next) : next.Tidy := by
  obtain ⟨faultless, alone⟩ := orderly
  cases event with
  | launch launch =>
      obtain ⟨-, isNext⟩ := Option.ite_none_right_eq_some.mp steps
      cases isNext
      exact tidy.goTo_idle rfl rfl
  | look launch =>
      obtain ⟨-, isNext⟩ := Option.ite_none_right_eq_some.mp steps
      cases isNext
      exact tidy.look alone
  | connect launch succeeds =>
      obtain ⟨⟨found, -⟩, isNext⟩ := Option.ite_none_right_eq_some.mp steps
      cases isNext
      cases succeeds with
      | true => exact tidy.goTo_idle rfl rfl
      | false => exact tidy.refuse found faultless.symm
  | send launch succeeds =>
      obtain ⟨-, isNext⟩ := Option.ite_none_right_eq_some.mp steps
      cases isNext
      cases faultless
      exact tidy.goTo_idle rfl rfl
  | delete launch succeeds =>
      obtain ⟨⟨refused, -⟩, isNext⟩ := Option.ite_none_right_eq_some.mp steps
      cases isNext
      have solitary : launches.Solitary launch :=
        tidy.solitary (by rw [refused]; rfl) (by rw [refused]; exact LaunchPhase.noConfusion)
      have fits := tidy.fits launch
      rw [refused] at fits
      have succeeded : succeeds = true := faultless.trans fits
      cases succeeded
      exact solitary.goTo rfl (by simp)
  | bind launch succeeds =>
      obtain ⟨⟨binding, -⟩, isNext⟩ := Option.ite_none_right_eq_some.mp steps
      cases isNext
      have solitary : launches.Solitary launch :=
        tidy.solitary (by rw [binding]; rfl) (by rw [binding]; exact LaunchPhase.noConfusion)
      have fits := tidy.fits launch
      rw [binding] at fits
      have succeeded : succeeds = true := faultless.trans (Option.isNone_iff_eq_none.mpr fits)
      cases succeeded
      exact solitary.goTo ⟨rfl, rfl⟩ (by simp)
  | dispose launch unlinks =>
      obtain ⟨⟨isRunning, -⟩, isNext⟩ := Option.ite_none_right_eq_some.mp steps
      cases isNext
      refine (tidy.solitary_of_running alone isRunning).goTo trivial ?_
      split
      · simp
      · exact tidy.noDirectory
  | disposeLook launch =>
      obtain ⟨closed, isNext⟩ := Option.ite_none_right_eq_some.mp steps
      cases isNext
      have solitary : launches.Solitary launch :=
        tidy.solitary (by rw [closed]; rfl) (by rw [closed]; exact LaunchPhase.noConfusion)
      refine solitary.goTo ?_ tidy.noDirectory
      split <;> exact trivial
  | disposeDelete launch succeeds =>
      obtain ⟨⟨leaving, -⟩, isNext⟩ := Option.ite_none_right_eq_some.mp steps
      cases isNext
      have solitary : launches.Solitary launch :=
        tidy.solitary (by rw [leaving]; rfl) (by rw [leaving]; exact LaunchPhase.noConfusion)
      refine solitary.goTo trivial ?_
      split
      · simp
      · exact tidy.noDirectory
  | exit launch =>
      obtain ⟨-, isNext⟩ := Option.ite_none_left_eq_some.mp steps
      cases isNext
      exact tidy.goTo_idle rfl rfl

theorem tidy_of_run {entry : Option SocketEntry} {events : List LaunchEvent}
    (noDirectory : entry ≠ some .directory)
    (run : Run step Orderly (start entry) events launches) : launches.Tidy :=
  run.preserves Tidy (fun orderly steps tidy => tidy.step orderly steps)
    (tidy_start noDirectory)

/-! ## Overtaking -/

/-- Some orderly run ends in the second state. -/
def Leads (launches last : Launches) : Prop :=
  ∃ events, Run step Orderly launches events last

theorem Leads.refl (launches : Launches) : launches.Leads launches :=
  ⟨[], .nil launches⟩

theorem Leads.trans (first : launches.Leads next) (second : next.Leads last) :
    launches.Leads last := by
  obtain ⟨events, run⟩ := first
  obtain ⟨later, laterRun⟩ := second
  exact ⟨events ++ later, run.append laterRun⟩

theorem Leads.single (steps : launches.step event = some next)
    (orderly : launches.Orderly event) : launches.Leads next :=
  ⟨[event], Run.single orderly steps⟩

/-- The other launches stay where they are, except that one that runs can end. -/
def Keeps (launches last : Launches) (launch : Nat) : Prop :=
  ∀ other, other ≠ launch →
    last.phase other = launches.phase other ∨
      ((launches.phase other).isRunning = true ∧ last.phase other = .absent)

theorem keeps_goTo {phase : LaunchPhase} :
    launches.Keeps (launches.goTo launch phase) launch :=
  fun _ differs => Or.inl (phase_goTo_of_ne differs)

theorem Keeps.trans (first : launches.Keeps next launch)
    (second : next.Keeps last launch) : launches.Keeps last launch := by
  intro other differs
  rcases first other differs with same | ⟨isRunning, isAbsent⟩
  · rw [← same]
    exact second other differs
  · refine Or.inr ⟨isRunning, ?_⟩
    rcases second other differs with same | ⟨-, stillAbsent⟩
    · exact same.trans isAbsent
    · exact stillAbsent

theorem Keeps.phase_eq (keeps : launches.Keeps last launch) (differs : other ≠ launch)
    (notRunning : (launches.phase other).isRunning = false) :
    last.phase other = launches.phase other := by
  rcases keeps other differs with same | ⟨isRunning, -⟩
  · exact same
  · rw [notRunning] at isRunning
    cases isRunning

theorem Keeps.notBusy (keeps : launches.Keeps last launch) (differs : other ≠ launch)
    (notBusy : (launches.phase other).isBusy = false) :
    (last.phase other).isBusy = false := by
  rcases keeps other differs with same | ⟨-, isAbsent⟩
  · rw [same]
    exact notBusy
  · rw [isAbsent]
    rfl

/-- A launch goes on to run, and the others stay where they are. -/
def Begins (launches : Launches) (launch : Nat) : Prop :=
  ∃ last, launches.Leads last ∧ (last.phase launch).isRunning = true ∧
    ∀ other, other ≠ launch → last.phase other = launches.phase other

theorem Begins.of_step (steps : launches.step event = some next)
    (orderly : launches.Orderly event)
    (keeps : ∀ other, other ≠ launch → next.phase other = launches.phase other)
    (begins : next.Begins launch) : launches.Begins launch := by
  obtain ⟨last, leads, isRunning, same⟩ := begins
  refine ⟨last, (Leads.single steps orderly).trans leads, isRunning, ?_⟩
  intro other differs
  exact (same other differs).trans (keeps other differs)

theorem begins_of_running (isRunning : (launches.phase launch).isRunning = true) :
    launches.Begins launch :=
  ⟨launches, .refl launches, isRunning, fun _ _ => rfl⟩

theorem begins_of_binding (isBinding : launches.phase launch = .binding) :
    launches.Begins launch := by
  by_cases isFree : launches.entry.isNone = true
  · have steps : launches.step (.bind launch true) =
        some ((launches.goTo launch (.running true)).withEntry (some (.socket launch))) :=
      if_pos ⟨isBinding, fun _ => isFree⟩
    exact Begins.of_step steps ⟨isFree.symm, trivial⟩ (fun _ => phase_goTo_of_ne)
      (begins_of_running (by rw [phase_withEntry, phase_goTo_self]; rfl))
  · have isTaken : launches.entry.isNone = false := Bool.not_eq_true _ ▸ isFree
    have steps : launches.step (.bind launch false) =
        some (launches.goTo launch (.running false)) :=
      if_pos ⟨isBinding, Bool.noConfusion⟩
    exact Begins.of_step steps ⟨isTaken.symm, trivial⟩ (fun _ => phase_goTo_of_ne)
      (begins_of_running (by rw [phase_goTo_self]; rfl))

theorem begins_of_refused (isRefused : launches.phase launch = .refused) :
    launches.Begins launch := by
  by_cases isThere : launches.entry.isSome = true
  · have steps : launches.step (.delete launch true) =
        some ((launches.goTo launch .binding).withEntry none) :=
      if_pos ⟨isRefused, fun _ => isThere⟩
    exact Begins.of_step steps ⟨isThere.symm, trivial⟩ (fun _ => phase_goTo_of_ne)
      (begins_of_binding phase_goTo_self)
  · have isGone : launches.entry.isSome = false := Bool.not_eq_true _ ▸ isThere
    have steps : launches.step (.delete launch false) =
        some (launches.goTo launch (.running false)) :=
      if_pos ⟨isRefused, Bool.noConfusion⟩
    exact Begins.of_step steps ⟨isGone.symm, trivial⟩ (fun _ => phase_goTo_of_ne)
      (begins_of_running (by rw [phase_goTo_self]; rfl))

/-- A launch that has found the path free runs, whatever the others do. -/
theorem begins_of_committed (isCommitted : (launches.phase launch).isCommitted = true) :
    launches.Begins launch := by
  cases phase : launches.phase launch
  case refused => exact begins_of_refused phase
  case binding => exact begins_of_binding phase
  all_goals
    rw [phase] at isCommitted
    cases isCommitted

/-- The instance that is called ends before it is called. -/
theorem refused_of_found (isFound : launches.phase launch = .found) :
    ∃ last, launches.Leads last ∧ last.phase launch = .refused ∧
      launches.Keeps last launch := by
  have refuses : ∀ {launches : Launches}, launches.phase launch = .found →
      launches.served = false → launches.Leads (launches.goTo launch .refused) := by
    intro launches isFound notServed
    have steps : launches.step (.connect launch false) =
        some (launches.goTo launch .refused) := if_pos ⟨isFound, Bool.noConfusion⟩
    exact .single steps ⟨notServed.symm, trivial⟩
  by_cases isServed : launches.served = true
  · obtain ⟨owner, isEntry, listens⟩ := served_iff.mp isServed
    have differs : launch ≠ owner := by
      intro same
      rw [same, listens] at isFound
      cases isFound
    have isPresent : launches.phase owner ≠ .absent := by
      rw [listens]
      exact LaunchPhase.noConfusion
    have exits : launches.step (.exit owner) = some (launches.goTo owner .absent) :=
      if_neg isPresent
    have notServed : (launches.goTo owner .absent).served = false := by
      rw [← Bool.not_eq_true, served_iff]
      intro absurdly
      obtain ⟨other, isOther, stillListens⟩ := absurdly
      rw [entry_goTo, isEntry] at isOther
      cases isOther
      rw [phase_goTo_self] at stillListens
      cases stillListens
    have stillFound : (launches.goTo owner .absent).phase launch = .found :=
      (phase_goTo_of_ne differs).trans isFound
    refine ⟨_, (Leads.single exits ⟨trivial, trivial⟩).trans (refuses stillFound notServed),
      phase_goTo_self, ?_⟩
    have ends : launches.Keeps (launches.goTo owner .absent) launch := by
      intro other _
      by_cases same : other = owner
      · rw [same, phase_goTo_self, listens]
        exact Or.inr ⟨rfl, rfl⟩
      · exact Or.inl (phase_goTo_of_ne same)
    exact ends.trans keeps_goTo
  · have notServed : launches.served = false := Bool.not_eq_true _ ▸ isServed
    exact ⟨_, refuses isFound notServed, phase_goTo_self, keeps_goTo⟩

/-- The launch has found the path free, or is going to. -/
def Pending (launches : Launches) (launch : Nat) : Prop :=
  launches.phase launch = .found ∨ (launches.phase launch).isCommitted = true

theorem Pending.commits (pending : launches.Pending launch) :
    ∃ last, launches.Leads last ∧ (last.phase launch).isCommitted = true ∧
      launches.Keeps last launch := by
  rcases pending with isFound | isCommitted
  · obtain ⟨last, leads, isRefused, keeps⟩ := refused_of_found isFound
    refine ⟨last, leads, ?_, keeps⟩
    rw [isRefused]
    rfl
  · exact ⟨launches, .refl launches, isCommitted, fun _ _ => Or.inl rfl⟩

theorem notRunning_of_committed {phase : LaunchPhase} (isCommitted : phase.isCommitted = true) :
    phase.isRunning = false := by
  cases phase <;> first | rfl | cases isCommitted

theorem notRunning_of_closing {phase : LaunchPhase} (isClosing : phase.isClosing = true) :
    phase.isRunning = false := by
  cases phase <;> first | rfl | cases isClosing

theorem Pending.notRunning (pending : launches.Pending launch) :
    (launches.phase launch).isRunning = false := by
  rcases pending with isFound | isCommitted
  · rw [isFound]
    rfl
  · exact notRunning_of_committed isCommitted

theorem Pending.runs (pending : launches.Pending launch) :
    ∃ last, launches.Leads last ∧ (last.phase launch).isRunning = true ∧
      launches.Keeps last launch := by
  obtain ⟨next, leads, isCommitted, keeps⟩ := pending.commits
  obtain ⟨last, leadsOn, isRunning, same⟩ := begins_of_committed isCommitted
  exact ⟨last, leads.trans leadsOn, isRunning,
    keeps.trans fun other differs => Or.inl (same other differs)⟩

/-- Two instances can run at a time. -/
def Doubles (launches : Launches) : Prop :=
  ∃ last, launches.Leads last ∧ ¬ last.AtMostOne

theorem Doubles.of_leads (leads : launches.Leads next) (doubles : next.Doubles) :
    launches.Doubles := by
  obtain ⟨last, leadsOn, two⟩ := doubles
  exact ⟨last, leads.trans leadsOn, two⟩

/-- Two launches that have found the path free both run. -/
theorem doubles_of_pending (differs : other ≠ launch) (pending : launches.Pending launch)
    (otherPending : launches.Pending other) : launches.Doubles := by
  obtain ⟨next, leads, isCommitted, keeps⟩ := pending.commits
  have stillPending : next.Pending other := by
    rw [Pending, keeps.phase_eq differs otherPending.notRunning]
    exact otherPending
  obtain ⟨middle, leadsOn, otherCommitted, keepsOn⟩ := stillPending.commits
  have stillCommitted : (middle.phase launch).isCommitted = true := by
    rw [keepsOn.phase_eq differs.symm (notRunning_of_committed isCommitted)]
    exact isCommitted
  obtain ⟨afterFirst, leadsFirst, isRunning, same⟩ := begins_of_committed stillCommitted
  have lastCommitted : (afterFirst.phase other).isCommitted = true := by
    rw [same other differs]
    exact otherCommitted
  obtain ⟨last, leadsLast, otherRuns, sameLast⟩ := begins_of_committed lastCommitted
  refine ⟨last, ((leads.trans leadsOn).trans leadsFirst).trans leadsLast, ?_⟩
  intro atMostOne
  have stillRuns : (last.phase launch).isRunning = true := by
    rw [sameLast launch differs.symm]
    exact isRunning
  exact differs (atMostOne other launch otherRuns stillRuns)

/-- An instance that closes takes away the socket of the one that runs, and is
launched once more. -/
theorem doubles_of_closing (differs : other ≠ launch)
    (isClosing : (launches.phase launch).isClosing = true)
    (otherRuns : (launches.phase other).isRunning = true)
    (alone : ∀ third, third ≠ launch → (launches.phase third).isBusy = false) :
    launches.Doubles := by
  -- The instance is gone, and no file is under the path.
  have gone : ∃ next, launches.Leads next ∧ next.fileExists = false ∧
      next.phase launch = .absent ∧
      ∀ third, third ≠ launch → next.phase third = launches.phase third := by
    have deletes : ∀ {launches : Launches}, launches.phase launch = .leaving →
        ∃ next, launches.Leads next ∧ next.fileExists = false ∧
          next.phase launch = .absent ∧
          ∀ third, third ≠ launch → next.phase third = launches.phase third := by
      intro launches isLeaving
      by_cases isThere : launches.entry.isSome = true
      · have steps : launches.step (.disposeDelete launch true) =
            some ((launches.goTo launch .absent).withEntry none) :=
          if_pos ⟨isLeaving, fun _ => isThere⟩
        exact ⟨_, .single steps ⟨trivial, trivial⟩, rfl, phase_goTo_self,
          fun _ => phase_goTo_of_ne⟩
      · have steps : launches.step (.disposeDelete launch false) =
            some ((launches.goTo launch .absent).withEntry launches.entry) :=
          if_pos ⟨isLeaving, Bool.noConfusion⟩
        rw [Option.not_isSome_iff_eq_none] at isThere
        refine ⟨_, .single steps ⟨trivial, trivial⟩, ?_, phase_goTo_self,
          fun _ => phase_goTo_of_ne⟩
        rw [fileExists, entry_withEntry, isThere]
        rfl
    cases phase : launches.phase launch
    case leaving => exact deletes phase
    case closed =>
        by_cases isThere : launches.fileExists = true
        · have steps : launches.step (.disposeLook launch) =
              some (launches.goTo launch .leaving) := by
            rw [Launches.step, if_pos phase, if_pos isThere]
          have leaving : (launches.goTo launch .leaving).phase launch = .leaving :=
            phase_goTo_self
          obtain ⟨next, leads, noFile, isAbsent, same⟩ := deletes leaving
          exact ⟨next, (Leads.single steps ⟨trivial, trivial⟩).trans leads, noFile, isAbsent,
            fun third differs => (same third differs).trans (phase_goTo_of_ne differs)⟩
        · have steps : launches.step (.disposeLook launch) =
              some (launches.goTo launch .absent) := by
            rw [Launches.step, if_pos phase, if_neg isThere]
          refine ⟨_, .single steps ⟨trivial, trivial⟩, ?_, phase_goTo_self,
            fun _ => phase_goTo_of_ne⟩
          exact Bool.not_eq_true _ ▸ isThere
    all_goals
      rw [phase] at isClosing
      cases isClosing
  obtain ⟨next, leads, noFile, isAbsent, same⟩ := gone
  have launched : next.step (.launch launch) = some (next.goTo launch .checking) :=
    if_pos isAbsent
  let checking := next.goTo launch .checking
  have looked : checking.step (.look launch) = some (checking.goTo launch .binding) := by
    have stillNoFile : checking.fileExists = false := noFile
    rw [Launches.step, if_pos phase_goTo_self, looked, stillNoFile]
    rfl
  have looksAlone : checking.Alone (.look launch) := by
    intro third
    by_cases isLaunch : third = launch
    · rw [isLaunch, phase_goTo_self]
      rfl
    · rw [phase_goTo_of_ne isLaunch, same third isLaunch]
      exact alone third isLaunch
  have isBinding : (checking.goTo launch .binding).phase launch = .binding :=
    phase_goTo_self
  obtain ⟨last, leadsOn, isRunning, sameLast⟩ := begins_of_binding isBinding
  refine ⟨last, ((leads.trans (.single launched ⟨trivial, trivial⟩)).trans
    (.single looked ⟨trivial, looksAlone⟩)).trans leadsOn, ?_⟩
  intro atMostOne
  have stillRuns : (last.phase other).isRunning = true := by
    rw [sameLast other differs, phase_goTo_of_ne differs, phase_goTo_of_ne differs,
      same other differs]
    exact otherRuns
  exact differs (atMostOne other launch stillRuns isRunning)

/-! ## One instance -/

theorem pending_look : (launches.goTo launch launches.looked).Pending launch := by
  rw [Pending, phase_goTo_self, looked]
  split
  · exact Or.inl rfl
  · exact Or.inr rfl

theorem notBusy_of_running {phase : LaunchPhase} (isRunning : phase.isRunning = true) :
    phase.isBusy = false := by
  cases phase <;> first | rfl | cases isRunning

theorem cases_of_busy {phase : LaunchPhase} (isBusy : phase.isBusy = true) :
    (phase = .found ∨ phase.isCommitted = true) ∨ phase.isClosing = true := by
  rw [LaunchPhase.isBusy, Bool.or_eq_true, Bool.or_eq_true, decide_eq_true_iff] at isBusy
  exact isBusy

theorem Tidy.doubles_of_look (tidy : launches.Tidy)
    (isChecking : launches.phase launch = .checking)
    (isBusy : (launches.phase other).isBusy = true) :
    (launches.goTo launch launches.looked).Doubles := by
  have differs : other ≠ launch := by
    intro same
    rw [same, isChecking] at isBusy
    cases isBusy
  have sameOther : (launches.goTo launch launches.looked).phase other =
      launches.phase other := phase_goTo_of_ne differs
  rcases cases_of_busy isBusy with otherPending | isClosing
  · refine doubles_of_pending differs pending_look ?_
    rw [Pending, sameOther]
    exact otherPending
  · obtain ⟨last, leads, isRunning, keeps⟩ :=
      (pending_look : (launches.goTo launch launches.looked).Pending launch).runs
    have stillClosing : (last.phase other).isClosing = true := by
      rw [keeps.phase_eq differs (sameOther.symm ▸ notRunning_of_closing isClosing), sameOther]
      exact isClosing
    refine (doubles_of_closing differs.symm stillClosing isRunning ?_).of_leads leads
    intro third isThird
    by_cases isLaunch : third = launch
    · rw [isLaunch]
      exact notBusy_of_running isRunning
    · apply keeps.notBusy isLaunch
      rw [phase_goTo_of_ne isLaunch]
      exact (tidy.apart (Ne.symm isThird)).busy isBusy

theorem Tidy.doubles_of_dispose (tidy : launches.Tidy)
    (isRunning : (launches.phase launch).isRunning = true)
    (isBusy : (launches.phase other).isBusy = true) (entry : Option SocketEntry) :
    ((launches.goTo launch .closed).withEntry entry).Doubles := by
  have differs : other ≠ launch := by
    intro same
    rw [same, notBusy_of_running isRunning] at isBusy
    cases isBusy
  have isFound : launches.phase other = .found := by
    by_contra notFound
    have notRunning := (tidy.apart differs).running isBusy notFound
    rw [isRunning] at notRunning
    cases notRunning
  let closed := (launches.goTo launch .closed).withEntry entry
  have pending : closed.Pending other :=
    Or.inl ((phase_goTo_of_ne differs).trans isFound)
  obtain ⟨last, leads, otherRuns, keeps⟩ := pending.runs
  have isClosed : last.phase launch = .closed := by
    have begun : closed.phase launch = .closed := phase_goTo_self
    rw [keeps.phase_eq differs.symm (begun.symm ▸ rfl), begun]
  refine (doubles_of_closing differs (by rw [isClosed]; rfl) otherRuns ?_).of_leads leads
  intro third isThird
  by_cases isOther : third = other
  · rw [isOther]
    exact notBusy_of_running otherRuns
  · apply keeps.notBusy isOther
    rw [phase_withEntry, phase_goTo_of_ne isThird]
    exact (tidy.apart (Ne.symm isOther)).busy isBusy

theorem alone_or_busy (launches : Launches) (event : LaunchEvent) :
    launches.Alone event ∨
      ((∃ launch, event = .look launch ∨ ∃ unlinks, event = .dispose launch unlinks) ∧
        ∃ other, (launches.phase other).isBusy = true) := by
  by_cases allIdle : ∀ other, (launches.phase other).isBusy = false
  · left
    cases event <;> first | exact allIdle | exact trivial
  · have someBusy : ∃ other, (launches.phase other).isBusy = true := by
      by_contra none
      refine allIdle fun other => ?_
      rw [← Bool.not_eq_true]
      exact fun isBusy => none ⟨other, isBusy⟩
    cases event with
    | look launch => exact Or.inr ⟨⟨launch, Or.inl rfl⟩, someBusy⟩
    | dispose launch unlinks =>
        exact Or.inr ⟨⟨launch, Or.inr ⟨unlinks, rfl⟩⟩, someBusy⟩
    | _ => exact Or.inl trivial

/-- In orderly runs a call is followed by at most one running instance, whatever
comes later, exactly if it is made alone. -/
theorem atMostOne_iff_alone {entry : Option SocketEntry} {events : List LaunchEvent}
    (noDirectory : entry ≠ some .directory)
    (run : Run step Orderly (start entry) events launches)
    (faultless : launches.Faultless event) (steps : launches.step event = some next) :
    (∀ later last, Run step Orderly next later last → last.AtMostOne) ↔
      launches.Alone event := by
  have tidy := tidy_of_run noDirectory run
  constructor
  · intro atMostOne
    have single : ¬ next.Doubles := by
      intro doubles
      obtain ⟨last, ⟨later, laterRun⟩, two⟩ := doubles
      exact two (atMostOne later last laterRun)
    rcases alone_or_busy launches event with alone | ⟨⟨launch, isCall⟩, other, isBusy⟩
    · exact alone
    · rcases isCall with rfl | ⟨unlinks, rfl⟩
      · obtain ⟨isChecking, isNext⟩ := Option.ite_none_right_eq_some.mp steps
        cases isNext
        exact absurd (tidy.doubles_of_look isChecking isBusy) single
      · obtain ⟨⟨isRunning, -⟩, isNext⟩ := Option.ite_none_right_eq_some.mp steps
        cases isNext
        exact absurd (tidy.doubles_of_dispose isRunning isBusy _) single
  · intro alone later last laterRun
    exact (tidy_of_run noDirectory
      (run.append (.cons ⟨faultless, alone⟩ steps laterRun))).atMostOne

/-! ## Two launches -/

/-- Two launches that are about to look. -/
def bothChecking : Launches :=
  ((start none).goTo 0 .checking).goTo 1 .checking

/-- The first one has found the path free. -/
def overtaking : Launches :=
  bothChecking.goTo 0 .binding

/-- The first one listens before the second one looks. -/
def waiting : Launches :=
  (bothChecking.goTo 0 (.running true)).withEntry (some (.socket 0))

private theorem idle_goTo {phase : LaunchPhase}
    (idle : ∀ other, (launches.phase other).isBusy = false)
    (notBusy : phase.isBusy = false) (other : Nat) :
    ((launches.goTo launch phase).phase other).isBusy = false := by
  by_cases isLaunch : other = launch
  · rw [isLaunch, phase_goTo_self]
    exact notBusy
  · rw [phase_goTo_of_ne isLaunch]
    exact idle other

private theorem bothChecking_idle (other : Nat) :
    (bothChecking.phase other).isBusy = false :=
  idle_goTo (idle_goTo (fun _ => rfl) rfl) rfl other

private theorem overtaking_run :
    Run step Orderly (start none) [.launch 0, .launch 1, .look 0] overtaking :=
  .cons ⟨trivial, trivial⟩ rfl (.cons ⟨trivial, trivial⟩ rfl
    (.cons ⟨trivial, bothChecking_idle⟩ rfl (.nil _)))

private theorem waiting_run :
    Run step Orderly (start none) [.launch 0, .launch 1, .look 0, .bind 0 true] waiting := by
  have binds : overtaking.step (.bind 0 true) = some waiting := by
    have free : overtaking.step (.bind 0 true) =
        some ((overtaking.goTo 0 (.running true)).withEntry (some (.socket 0))) := rfl
    rw [free, overtaking, goTo, goTo, Function.update_idem]
    rfl
  exact overtaking_run.append (.single ⟨rfl, trivial⟩ binds)

/-- A second launch may look once the first one listens, but not while that one is
about to bind. -/
theorem atMostOne_iff_alone_two :
    (¬ ∀ later last, Run step Orderly (overtaking.goTo 1 .binding) later last →
        last.AtMostOne) ∧
      ∀ later last, Run step Orderly (waiting.goTo 1 .found) later last →
        last.AtMostOne := by
  have overtakes : overtaking.step (.look 1) = some (overtaking.goTo 1 .binding) := rfl
  have finds : waiting.step (.look 1) = some (waiting.goTo 1 .found) := rfl
  have early := atMostOne_iff_alone (by simp) overtaking_run (by exact trivial) overtakes
  have late := atMostOne_iff_alone (by simp) waiting_run (by exact trivial) finds
  refine ⟨fun atMostOne => ?_, late.mpr (idle_goTo bothChecking_idle rfl)⟩
  have notBusy := early.mp atMostOne 0
  exact absurd notBusy (by decide)

end Launches

end MouseHero
