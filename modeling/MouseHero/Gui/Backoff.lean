import MouseHero.Gui.FinalStop

/-!
# The delays of automatic restarts

`_scheduleRestart` counts the restarts to choose the next delay, and
`_startOnce` forgets the count when it has stored the settings.
-/

namespace MouseHero

/-- `_startOnce` gets to its end. -/
def ServiceEvent.completesStart : ServiceEvent → Bool
  | settingsSaved _ _ => true
  | _ => false

namespace ServerProcessService

variable {service next last : ServerProcessService} {event : ServiceEvent}

/-- The delay in front of a restart, in seconds. -/
def backoffDelay (restart : Nat) : Nat :=
  delays.getD (min restart (delays.length - 1)) 0

/-- The delay of the restart that the event schedules, if it does. -/
def scheduledDelay (service : ServerProcessService) : ServiceEvent → Option Nat
  | .startFails _ | .exitCleaned _ =>
      if service.restarts then some (backoffDelay service.restartAttempts)
      else none
  | _ => none

/-- The delays of the restarts that are scheduled in a run. -/
def scheduledDelays (service : ServerProcessService) :
    List ServiceEvent → List Nat
  | [] => []
  | event :: rest =>
      (service.scheduledDelay event).toList ++
        match service.step event with
        | some next => next.scheduledDelays rest
        | none => []

/-- Nobody calls, and no start gets to the end of `_startOnce` once a restart
has been scheduled. -/
def KeepsCount (service : ServerProcessService) (event : ServiceEvent) : Prop :=
  event.isCall = false ∧
    (event.completesStart = true → service.restartAttempts = 0)

instance : Decidable (service.KeepsCount event) :=
  inferInstanceAs (Decidable (_ ∧ (_ → _)))

/-! ## Steps -/

theorem attempts_scheduleIfRestarts (service : ServerProcessService) :
    service.scheduleIfRestarts.restartAttempts =
      if service.restarts then min (service.restartAttempts + 1) 1000
      else service.restartAttempts := by
  rw [scheduleIfRestarts]
  split <;> rfl

theorem stops_scheduleIfRestarts (service : ServerProcessService) :
    service.scheduleIfRestarts.stops = service.stops := by
  rw [scheduleIfRestarts]
  split <;> rfl

theorem isSome_scheduledDelay (delay : Nat) :
    (if service.restarts then some delay else none).isSome = service.restarts := by
  cases service.restarts <;> rfl

/-- A step that keeps the count counts what it schedules. -/
theorem step_restartAttempts (steps : service.step event = some next)
    (keeps : service.KeepsCount event) (unstopped : service.stops = []) :
    next.stops = [] ∧
      next.restartAttempts =
        if (service.scheduledDelay event).isSome then
          min (service.restartAttempts + 1) 1000
        else service.restartAttempts := by
  have noStop {task : StopTask} (member : task ∈ service.stops) : False := by
    rw [unstopped] at member
    cases member
  cases event with
  | startServer | stopServer | restartServer => cases keeps.1
  | spawn task =>
      obtain ⟨-, rfl⟩ := provided_eq_some.mp steps
      exact ⟨unstopped, rfl⟩
  | started task process =>
      obtain ⟨-, rfl⟩ := provided_eq_some.mp steps
      exact ⟨unstopped, rfl⟩
  | settingsSaved task process =>
      obtain ⟨-, rfl⟩ := provided_eq_some.mp steps
      -- Nothing is forgotten, as nothing has been counted.
      exact ⟨unstopped, (keeps.2 rfl).symm⟩
  | startFails task =>
      obtain ⟨-, rfl⟩ := provided_eq_some.mp steps
      rw [startFails, stops_scheduleIfRestarts, attempts_scheduleIfRestarts,
        scheduledDelay, isSome_scheduledDelay]
      exact ⟨unstopped, rfl⟩
  | exit process =>
      obtain ⟨-, rfl⟩ := provided_eq_some.mp steps
      exact ⟨unstopped, rfl⟩
  | exitNotified process =>
      obtain ⟨-, rfl⟩ := provided_eq_some.mp steps
      exact ⟨unstopped, rfl⟩
  | exitCleaned process =>
      obtain ⟨-, rfl⟩ := provided_eq_some.mp steps
      rw [exitCleaned, stops_scheduleIfRestarts, attempts_scheduleIfRestarts,
        scheduledDelay, isSome_scheduledDelay]
      exact ⟨unstopped, rfl⟩
  | stopResumed task | stopTimeout task | restartResumed task =>
      exact (noStop (provided_eq_some.mp steps).1.1).elim
  | stopDone task failed =>
      exact (noStop (provided_eq_some.mp steps).1.1).elim
  | timerFires =>
      obtain ⟨-, rfl⟩ := provided_eq_some.mp steps
      rw [timerFires]
      split <;> exact ⟨unstopped, rfl⟩

/-! ## Runs -/

/-- The delay does not grow any more at the cap of the count. -/
theorem backoffDelay_capped (attempts later : Nat) :
    backoffDelay (min (attempts + 1) 1000 + later) =
      backoffDelay (attempts + 1 + later) := by
  have last : delays.length - 1 = 4 := rfl
  rw [backoffDelay, backoffDelay, last]
  congr 1
  omega

/-- The restarts of a run that keeps the count, from any count. -/
theorem scheduledDelays_from {events : List ServiceEvent}
    (run : Run step KeepsCount service events last)
    (unstopped : service.stops = []) :
    ∃ count,
      service.scheduledDelays events =
        (List.range count).map
          fun restart => backoffDelay (service.restartAttempts + restart) := by
  induction run with
  | nil service => exact ⟨0, rfl⟩
  | @cons service next last event events keeps steps _ inductionHypothesis =>
      obtain ⟨nextUnstopped, attempts⟩ :=
        step_restartAttempts steps keeps unstopped
      obtain ⟨count, rest⟩ := inductionHypothesis nextUnstopped
      rw [scheduledDelays, steps]
      simp only [rest, attempts]
      cases scheduled : service.scheduledDelay event with
      | none => exact ⟨count, rfl⟩
      | some delay =>
          have isDelay : delay = backoffDelay service.restartAttempts := by
            cases event with
            | startFails task =>
                exact (Option.some.inj
                  (Option.ite_none_right_eq_some.mp scheduled).2).symm
            | exitCleaned process =>
                exact (Option.some.inj
                  (Option.ite_none_right_eq_some.mp scheduled).2).symm
            | _ => cases scheduled
          refine ⟨count + 1, ?_⟩
          rw [List.range_succ_eq_map, List.map_cons, List.map_map]
          simp only [Option.isSome_some, if_true, Option.toList_some,
            List.singleton_append, isDelay, Nat.add_zero, List.cons.injEq,
            true_and]
          apply List.map_congr_left
          intro restart _
          rw [backoffDelay_capped]
          congr 1
          omega

/-- If no restarted process gets as far as the end of `_startOnce`, the restarts
back off. -/
theorem restarts_backOff {events : List ServiceEvent}
    (run : Run step KeepsCount initial.startServer events last) :
    ∃ count,
      initial.startServer.scheduledDelays events =
        (List.range count).map backoffDelay := by
  obtain ⟨count, delays⟩ := scheduledDelays_from run rfl
  refine ⟨count, delays.trans (List.map_congr_left fun restart _ => ?_)⟩
  exact congrArg backoffDelay (Nat.zero_add restart)

example : (List.range 7).map backoffDelay = [1, 2, 5, 10, 30, 30, 30] := by
  decide

/-! ## Crash loops -/

/-- The first start fails, and so do two restarts. -/
def failingStarts : List ServiceEvent :=
  [.startFails { phase := .preparing, ofCall := true },
    .timerFires, .startFails { phase := .preparing, ofCall := false },
    .timerFires, .startFails { phase := .preparing, ofCall := false }]

theorem restarts_backOff_failing :
    ∃ last, Run step KeepsCount initial.startServer failingStarts last ∧
      ∃ count,
        initial.startServer.scheduledDelays failingStarts =
          (List.range count).map backoffDelay := by
  have computed : ∃ last,
      runEvents step KeepsCount initial.startServer failingStarts = some last :=
    ⟨_, rfl⟩
  obtain ⟨last, isRun⟩ := computed
  have run := run_of_runEvents _ _ isRun
  exact ⟨last, run, restarts_backOff run⟩

/-- A process is made, its settings are stored, and it exits. -/
def crash (process : Pid) (ofCall : Bool) : List ServiceEvent :=
  [.spawn { phase := .preparing, ofCall },
    .started { phase := .spawned process, ofCall } process,
    .settingsSaved { phase := .saving process, ofCall } process,
    .exit process, .exitNotified process, .exitCleaned process]

/-- The service between two crashes, with the timer running. -/
def betweenCrashes (spawned : Nat) : ServerProcessService :=
  { initial with
    restartTimer := some 1
    autoRestart := true
    restartAttempts := 1
    spawned }

/-- Restarts that crash. -/
def crashLoop (spawned : Nat) : Nat → List ServiceEvent
  | 0 => []
  | rounds + 1 =>
      .timerFires :: crash spawned false ++ crashLoop (spawned + 1) rounds

theorem scheduledDelays_crash (spawned : Nat) (later : List ServiceEvent) :
    (betweenCrashes spawned).scheduledDelays
        (.timerFires :: crash spawned false ++ later) =
      1 :: (betweenCrashes (spawned + 1)).scheduledDelays later := by
  simp [scheduledDelays, scheduledDelay, step, provided, crash, betweenCrashes,
    initial, timerFires, startOnce, spawn, goOn, started, settingsSaved,
    endStart, exitNotified, cleanupProcess, exitCleaned, scheduleIfRestarts,
    scheduleRestart, restarts, isRunning, backoffDelay, delays]

/-- However often the server has crashed, it is restarted after a second. -/
theorem scheduledDelays_crashLoop (spawned rounds : Nat) :
    (betweenCrashes spawned).scheduledDelays (crashLoop spawned rounds) =
      List.replicate rounds 1 := by
  induction rounds generalizing spawned with
  | zero => rfl
  | succ rounds inductionHypothesis =>
      rw [crashLoop, scheduledDelays_crash, inductionHypothesis]
      rfl

/-- The user starts the server, it crashes, and so does the restarted one. -/
theorem crashLoop_noBackoff :
    (∃ last, Run step (fun _ event => event.isCall = false)
        initial.startServer (crash 0 true ++ crashLoop 1 1) last) ∧
      initial.startServer.scheduledDelays (crash 0 true ++ crashLoop 1 1) =
        [1, 1] ∧
      (List.range 2).map backoffDelay = [1, 2] := by
  have computed : ∃ last,
      runEvents step (fun _ event => event.isCall = false)
        initial.startServer (crash 0 true ++ crashLoop 1 1) = some last :=
    ⟨_, rfl⟩
  obtain ⟨last, isRun⟩ := computed
  exact ⟨⟨last, run_of_runEvents _ _ isRun⟩, rfl, rfl⟩

end ServerProcessService

end MouseHero
