import MouseHero.Input.ThrottleWords
import MouseHero.Server.Overflow

/-!
# Motion that is not mixed

The motion of several clients through the throttle whose accumulators are words.
As long as the sums fit, each filter is handed what it is handed by the throttle
on integers.
-/

namespace MouseHero

variable {F : Type} [CFloat F]

/-! ## Motion on words -/

/-- What `handle_mouse_move` and `handle_mouse_stop` do to the throttle, and what
they are handed by it. -/
def MotionEvent.onWords (event : MotionEvent F) (words : YAMouseThrottleWords) :
    YAMouseThrottleWords × Option (Int32 × Int32) :=
  match event.motion with
  | .move _ =>
      yaMouseThrottleCollectWords F words (toWords event.displacement).1
        (toWords event.displacement).2 false event.time
  | .stop =>
      let flushed := yaMouseThrottleFlushWords words event.time
      (yaMouseThrottleResetWords flushed.1, flushed.2)

/-- The words that hold what the throttle holds. -/
def YAMouseThrottleState.toWords (state : YAMouseThrottleState) :
    YAMouseThrottleWords where
  lastEmit := state.lastEmit
  hasLastEmit := state.hasLastEmit
  accumDx := Int32.ofInt state.accumDx
  accumDy := Int32.ofInt state.accumDy

/-- The throttle after the events, of which the latest is the first. -/
def World.wordsAfterMotion (start : World F) :
    List (MotionEvent F) → YAMouseThrottleWords
  | [] => start.throttle.toWords
  | event :: earlier => (event.onWords (start.wordsAfterMotion earlier)).1

/-- What has been handed to the filter of a client. -/
def handedOnWords (uid : UInt32) (start : World F) :
    List (MotionEvent F) → Int × Int
  | [] => 0
  | event :: earlier =>
      handedOnWords uid start earlier +
        if event.uid = uid then
          ((event.onWords (start.wordsAfterMotion earlier)).2.map wordValues).getD 0
        else 0

/-! ## Sums that fit -/

section Words

variable {world start : World F} {event : MotionEvent F}
variable {words : YAMouseThrottleWords} {history : List (MotionEvent F)}

/-- An event whose sums fit is handled on words as on integers. -/
theorem MotionEvent.onWords_of_inRange (serves : world.ServesLegacy event.uid)
    (same : words.toState = world.throttle)
    (inRange : ThrottleInRange (world.throttle.adding event.displacement)) :
    (event.onWords words).1.toState = (event.handle world).throttle ∧
      (event.onWords words).2.map wordValues = event.output world := by
  rw [MotionEvent.handle_throttle serves]
  cases motion : event.motion with
  | move request =>
      rw [← same] at inRange
      have collected := @yaMouseThrottleCollectWords_of_fits F _ words
        event.displacement (throttleInRange_iff.mp inRange) false event.time
      simp only [MotionEvent.onWords, MotionEvent.output, motion]
      rw [same] at collected
      have thrown : throttled (event.arrives world) request =
          yaMouseThrottleCollect F world.throttle event.displacement.1
            event.displacement.2 false event.time := by
        simp only [MotionEvent.displacement, motion]
        rfl
      rw [thrown, ← collected]
      exact ⟨rfl, rfl⟩
  | stop =>
      have flushed := @yaMouseThrottleFlushWords_toState words event.time
      simp only [MotionEvent.onWords, MotionEvent.output, motion]
      rw [same] at flushed
      rw [← flushed]
      exact ⟨rfl, rfl⟩

theorem LegacyRun.wordsAfterMotion (run : LegacyRun start history)
    (inRange : NeverOverflows start history) :
    (start.wordsAfterMotion history).toState =
      (start.afterMotion history).throttle := by
  induction history with
  | nil =>
      have empty := run.empty
      rw [accumulated_eq_zero_iff] at empty
      rw [World.wordsAfterMotion, World.afterMotion]
      simp only [YAMouseThrottleState.toWords, YAMouseThrottleWords.toState, empty.1,
        empty.2]
      exact congrArg₂ (YAMouseThrottleState.mk _ _) empty.1.symm empty.2.symm
  | cons event earlier inductionHypothesis =>
      have fitsEarlier : NeverOverflows start earlier := fun other before reached =>
        inRange other before (reached.trans (List.suffix_cons event earlier))
      have serves := (run.serves event List.mem_cons_self).afterMotion earlier
      exact (MotionEvent.onWords_of_inRange serves
        (inductionHypothesis run.earlier fitsEarlier)
        (inRange event earlier List.suffix_rfl)).1

theorem LegacyRun.handedOnWords_eq (run : LegacyRun start history)
    (inRange : NeverOverflows start history) (uid : UInt32) :
    handedOnWords uid start history = handedTo uid start history := by
  induction history with
  | nil => rfl
  | cons event earlier inductionHypothesis =>
      have fitsEarlier : NeverOverflows start earlier := fun other before reached =>
        inRange other before (reached.trans (List.suffix_cons event earlier))
      have serves := (run.serves event List.mem_cons_self).afterMotion earlier
      have handed := (MotionEvent.onWords_of_inRange serves
        (run.earlier.wordsAfterMotion fitsEarlier)
        (inRange event earlier List.suffix_rfl)).2
      rw [handedOnWords, handedTo, inductionHypothesis run.earlier fitsEarlier, handed]

/-- If nothing is mixed and the sums fit, each client has been handed at each of
its stops what it has moved. -/
theorem LegacyRun.handedOnWords_eq_moved (run : LegacyRun start history)
    (unmixed : Unmixed start history) (inRange : NeverOverflows start history)
    {stop : MotionEvent F} {earlier : List (MotionEvent F)}
    (reached : stop :: earlier <:+ history) (stops : stop.motion = .stop) :
    handedOnWords stop.uid start (stop :: earlier) =
      moved stop.uid (stop :: earlier) := by
  have fits : NeverOverflows start (stop :: earlier) := fun event before suffix =>
    inRange event before (suffix.trans reached)
  rw [(run.of_suffix reached).handedOnWords_eq fits]
  exact run.handedTo_stop unmixed reached stops

end Words

/-! ## Two clients -/

/-- The sums of up to 50 events fit. -/
theorem neverOverflows_of_short {start : World Rat}
    {history : List (MotionEvent Rat)} (run : LegacyRun start history)
    (short : history.length ≤ 50) : NeverOverflows start history := by
  refine run.neverOverflows_of_few ?_
  intro event earlier reached
  have fewer := reached.length_le
  have pending := length_pendingMoves_le start earlier
  rw [List.length_cons] at fewer
  omega

/-- The second client moves by a pixel at once and by another that has to wait.
Then the first client stops, and the second one after it. -/
def mixedHistory : List (MotionEvent Rat) :=
  [legacyStop 2 { sec := 0, nsec := 3000000 },
    legacyStop 1 { sec := 0, nsec := 2000000 },
    legacyMove 2 100 { sec := 0, nsec := 1000000 },
    legacyMove 2 100 { sec := 0, nsec := 0 }]

/-- The second client has moved by two pixels, but only one of them has been
handed to its filter. -/
theorem mixedHistory_handed :
    (∀ uid, uid = 1 ∨ uid = 2 →
      ∃ client,
        yaClientFindByUid World.legacyPair.manager uid = some client ∧
          client.protocolVersion = 2) ∧
      LegacyRun World.legacyPair mixedHistory ∧
      (mixedHistory.map MotionEvent.time).Pairwise
        (fun later earlier => earlier.NotAfter later) ∧
      mixedHistory.head? = some (legacyStop 2 { sec := 0, nsec := 3000000 }) ∧
      NeverOverflows World.legacyPair mixedHistory ∧
      handedOnWords 2 World.legacyPair mixedHistory = (1, 0) ∧
      moved 2 mixedHistory = (2, 0) := by
  exact ⟨legacyPair_version, legacyPair_run (by decide), by decide, rfl,
    neverOverflows_of_short (legacyPair_run (by decide)) (by decide),
    by decide +kernel, by decide +kernel⟩

/-- The clients move one after the other. -/
def separateHistory : List (MotionEvent Rat) :=
  [legacyStop 1 { sec := 0, nsec := 4000000 },
    legacyMove 1 100 { sec := 0, nsec := 3000000 },
    legacyStop 2 { sec := 0, nsec := 2000000 },
    legacyMove 2 100 { sec := 0, nsec := 1000000 },
    legacyMove 2 100 { sec := 0, nsec := 0 }]

private theorem separateHistory_unmixed :
    Unmixed World.legacyPair separateHistory := by
  refine ⟨?_, ?_, ?_, ?_, ?_, trivial⟩
  all_goals intro drains other different
  · exact SharedAccumulator.pending_of_drains other (by decide +kernel)
  · exact SharedAccumulator.pending_of_drains other (by decide +kernel)
  · apply SharedAccumulator.pending_of_not_mem
    rw [operations_owners]
    intro member
    rcases List.mem_pair.mp member with same | same
    · exact different same
    · exact different same
  · exact absurd drains (by decide +kernel)
  · rfl

theorem separateHistory_handed :
    handedOnWords 1 World.legacyPair separateHistory = moved 1 separateHistory :=
  (legacyPair_run (by decide)).handedOnWords_eq_moved separateHistory_unmixed
    (neverOverflows_of_short (legacyPair_run (by decide)) (by decide))
    List.suffix_rfl rfl

end MouseHero
