import MouseHero.Gui.ServerProcess

/-!
# Stopping the server

Calls that do not overlap.  After a call of `stopServer` no process is made
before the next start if and only if the call finds a running server, or the
automatic restart switched off, and no start that is going to make a process.
-/

namespace MouseHero

namespace ServiceEvent

/-- The calls that start a server. -/
def isStartCall : ServiceEvent → Bool
  | startServer => true
  | restartServer => true
  | _ => false

def isCall : ServiceEvent → Bool
  | stopServer => true
  | event => event.isStartCall

def isSpawn : ServiceEvent → Bool
  | spawn _ => true
  | _ => false

end ServiceEvent

namespace ServerProcessService

variable {service next : ServerProcessService} {event : ServiceEvent}
variable {task : StartTask} {process : Pid}

/-- No call is in progress. -/
def NoCall (service : ServerProcessService) : Prop :=
  service.stops = [] ∧ ∀ task ∈ service.starts, task.ofCall = false

/-- Calls do not overlap. -/
def Serial (service : ServerProcessService) (event : ServiceEvent) : Prop :=
  event.isCall = true → service.NoCall

/-- Calls do not overlap, and none of them starts a server. -/
def Quiet (service : ServerProcessService) (event : ServiceEvent) : Prop :=
  service.Serial event ∧ event.isStartCall = false

instance : Decidable service.NoCall :=
  inferInstanceAs (Decidable (_ ∧ _))

instance : Decidable (service.Serial event) :=
  inferInstanceAs (Decidable (_ → _))

instance : Decidable (service.Quiet event) :=
  inferInstanceAs (Decidable (_ ∧ _))

/-- Once a call of `stopServer` that is made now has completed, no process is
made before the next start. -/
def StopFinal (service : ServerProcessService) : Prop :=
  ∀ {waiting later : List ServiceEvent} {middle last : ServerProcessService},
    Run step Quiet (service.stopServer false) waiting middle →
      middle.stops = [] →
        Run step Quiet middle later last →
          ∀ event ∈ later, event.isSpawn = false

/-- A call of `stopServer` does its work, or there is nothing to do. -/
structure StopEffective (service : ServerProcessService) : Prop where
  guard : service.isRunning = true ∨ service.restarts = false
  noneMade : ∀ task ∈ service.starts, task.phase ≠ .preparing

/-! ## Nothing starts by itself -/

/-- No process is going to be made without a call. -/
structure Stopped (service : ServerProcessService) : Prop where
  noRestart : service.restarts = false
  noneMade : ∀ task ∈ service.starts, task.phase ≠ .preparing
  noneRestarts :
    ∀ task ∈ service.stops, task.ofRestart = false ∧ task.phase ≠ .returned

theorem scheduleIfRestarts_of_not (noRestart : service.restarts = false) :
    service.scheduleIfRestarts = service := by
  simp [scheduleIfRestarts, noRestart]

theorem Stopped.stopServer (stopped : service.Stopped) :
    (service.stopServer false).Stopped := by
  rw [ServerProcessService.stopServer]
  cases isProcess : service.serverProcess with
  | none => exact stopped
  | some process =>
      exact {
        noRestart := rfl
        noneMade := stopped.noneMade
        noneRestarts := List.forall_mem_cons.mpr
          ⟨⟨rfl, by simp⟩, stopped.noneRestarts⟩ }

theorem Stopped.goOn (stopped : service.Stopped) {phase : StartPhase}
    (isMade : phase ≠ .preparing) : (service.goOn task phase).Stopped where
  noRestart := stopped.noRestart
  noneMade := List.forall_mem_cons.mpr
    ⟨isMade, fun other member =>
      stopped.noneMade other (List.mem_of_mem_erase member)⟩
  noneRestarts := stopped.noneRestarts

theorem Stopped.endStart (stopped : service.Stopped) :
    (service.endStart task).Stopped where
  noRestart := stopped.noRestart
  noneMade := fun other member =>
    stopped.noneMade other (List.mem_of_mem_erase member)
  noneRestarts := stopped.noneRestarts

theorem Stopped.finallyStop (stopped : service.Stopped) {task : StopTask}
    (member : task ∈ service.stops) (failed : Bool) :
    (service.finallyStop task failed).Stopped where
  noRestart := stopped.noRestart
  noneMade := stopped.noneMade
  noneRestarts := List.forall_mem_cons.mpr
    ⟨⟨(stopped.noneRestarts task member).1, by simp⟩, fun other isOther =>
      stopped.noneRestarts other (List.mem_of_mem_erase isOther)⟩

/-- The steps that are no starts make no process, and leave it at that. -/
theorem Stopped.step (stopped : service.Stopped)
    (isAllowed : service.Quiet event)
    (steps : service.step event = some next) :
    event.isSpawn = false ∧ next.Stopped := by
  have asBefore := stopped
  obtain ⟨noRestart, noneMade, noneRestarts⟩ := asBefore
  cases event with
  | startServer => cases isAllowed.2
  | restartServer => cases isAllowed.2
  | stopServer =>
      cases steps
      exact ⟨rfl, stopped.stopServer⟩
  | spawn task =>
      obtain ⟨⟨member, isPreparing⟩, -⟩ := provided_eq_some.mp steps
      exact absurd isPreparing (noneMade task member)
  | started task process =>
      obtain ⟨-, rfl⟩ := provided_eq_some.mp steps
      have goesOn : (service.goOn task (.saving process)).Stopped :=
        stopped.goOn (by simp)
      exact ⟨rfl, goesOn.noRestart, goesOn.noneMade, goesOn.noneRestarts⟩
  | settingsSaved task process =>
      obtain ⟨-, rfl⟩ := provided_eq_some.mp steps
      have ended : (service.endStart task).Stopped := stopped.endStart
      exact ⟨rfl, ended.noRestart, ended.noneMade, ended.noneRestarts⟩
  | startFails task =>
      obtain ⟨-, rfl⟩ := provided_eq_some.mp steps
      have ended : (service.endStart task).Stopped := stopped.endStart
      have noRestart : (service.endStart task).cleanupProcess.restarts = false :=
        ended.noRestart
      rw [startFails, scheduleIfRestarts_of_not noRestart]
      exact ⟨rfl, ended.noRestart, ended.noneMade, ended.noneRestarts⟩
  | exit process =>
      obtain ⟨-, rfl⟩ := provided_eq_some.mp steps
      exact ⟨rfl, noRestart, noneMade, noneRestarts⟩
  | exitNotified process =>
      obtain ⟨-, rfl⟩ := provided_eq_some.mp steps
      exact ⟨rfl, noRestart, noneMade, noneRestarts⟩
  | exitCleaned process =>
      obtain ⟨-, rfl⟩ := provided_eq_some.mp steps
      have noRestart :
          restarts { service with exits := service.exits.erase process } =
            false := noRestart
      rw [exitCleaned, scheduleIfRestarts_of_not noRestart]
      exact ⟨rfl, noRestart, noneMade, noneRestarts⟩
  | stopResumed task =>
      obtain ⟨⟨member, -⟩, rfl⟩ := provided_eq_some.mp steps
      exact ⟨rfl, stopped.finallyStop member false⟩
  | stopTimeout task =>
      obtain ⟨⟨member, -⟩, rfl⟩ := provided_eq_some.mp steps
      exact ⟨rfl, stopped.finallyStop member _⟩
  | stopDone task failed =>
      obtain ⟨⟨member, -⟩, rfl⟩ := provided_eq_some.mp steps
      refine ⟨rfl, noRestart, noneMade, fun other isOther => ?_⟩
      simp only [ServerProcessService.stopDone, (noneRestarts task member).1,
        Bool.false_and, Bool.false_eq_true, if_false, List.nil_append]
        at isOther
      exact noneRestarts other (List.mem_of_mem_erase isOther)
  | restartResumed task =>
      obtain ⟨⟨member, isReturned⟩, -⟩ := provided_eq_some.mp steps
      exact absurd isReturned (noneRestarts task member).2
  | timerFires =>
      obtain ⟨-, rfl⟩ := provided_eq_some.mp steps
      simp only [ServerProcessService.timerFires, noRestart, Bool.false_and,
        Bool.false_eq_true, if_false]
      exact ⟨rfl, noRestart, noneMade, noneRestarts⟩

theorem stopFinal_of_effective (noCall : service.NoCall)
    (effective : service.StopEffective) : service.StopFinal := by
  have stopped : (service.stopServer false).Stopped := by
    rw [ServerProcessService.stopServer]
    have noneRestarts : ∀ task ∈ service.stops,
        task.ofRestart = false ∧ task.phase ≠ .returned := by
      intro task member
      rw [noCall.1] at member
      cases member
    cases isProcess : service.serverProcess with
    | none =>
        have notRunning : ¬ service.isRunning = true := by
          simp [isRunning, isProcess]
        exact {
          noRestart := effective.guard.resolve_left notRunning
          noneMade := effective.noneMade
          noneRestarts := noneRestarts }
    | some process =>
        exact {
          noRestart := rfl
          noneMade := effective.noneMade
          noneRestarts := List.forall_mem_cons.mpr
            ⟨⟨rfl, by simp⟩, noneRestarts⟩ }
  intro waiting later middle last toEnd _ afterwards
  have still : middle.Stopped :=
    toEnd.preserves Stopped
      (fun isAllowed steps stopped => (stopped.step isAllowed steps).2) stopped
  exact afterwards.forall_event Stopped (fun event => event.isSpawn = false)
    (fun isAllowed steps stopped => stopped.step isAllowed steps) still

/-! ## What is still pending -/

/-- Something can lead to a restart. -/
def Pending (service : ServerProcessService) : Prop :=
  service.restartTimer.isSome = true ∨
    (∃ task ∈ service.starts, ∀ process, task.phase ≠ .saving process) ∨
    service.exits ≠ [] ∨ service.watched ≠ []

/-- As long as the server is to be restarted, something can lead to it. -/
structure Supervised (service : ServerProcessService) : Prop where
  watched : ∀ process ∈ service.serverProcess, process ∈ service.watched
  pending : service.restarts = true → service.Pending

theorem noneWatched {watched : List Pid} :
    ∀ process ∈ (none : Option Pid), process ∈ watched :=
  fun _ isProcess => absurd isProcess (Option.not_mem_none _)

theorem scheduleRestart_timer :
    service.scheduleRestart.restartTimer.isSome = true := by
  have inside : min service.restartAttempts (delays.length - 1) <
      delays.length :=
    Nat.lt_of_le_of_lt (Nat.min_le_right _ _) (by decide)
  simp only [scheduleRestart, List.getElem?_eq_getElem inside, Option.isSome_some]

theorem Supervised.scheduleIfRestarts
    (watched : ∀ process ∈ service.serverProcess, process ∈ service.watched) :
    service.scheduleIfRestarts.Supervised := by
  rw [ServerProcessService.scheduleIfRestarts]
  split
  · exact ⟨watched, fun _ => Or.inl scheduleRestart_timer⟩
  · rename_i noRestart
    exact ⟨watched, fun restarts => absurd restarts noRestart⟩

theorem Supervised.startServer (supervised : service.Supervised) :
    service.startServer.Supervised := by
  rw [ServerProcessService.startServer]
  split
  · exact supervised
  · exact ⟨supervised.watched, fun _ =>
      Or.inr (Or.inl ⟨_, List.mem_cons_self, by simp⟩)⟩

theorem Supervised.stopServer (supervised : service.Supervised)
    (ofRestart : Bool) : (service.stopServer ofRestart).Supervised := by
  rw [ServerProcessService.stopServer]
  split
  · exact supervised
  · refine ⟨supervised.watched, fun restarts => ?_⟩
    cases restarts

theorem Supervised.step (supervised : service.Supervised)
    (steps : service.step event = some next) : next.Supervised := by
  cases event with
  | startServer =>
      cases steps
      exact supervised.startServer
  | stopServer =>
      cases steps
      exact supervised.stopServer false
  | restartServer =>
      cases steps
      rw [ServerProcessService.restartServer]
      split
      · exact supervised.stopServer true
      · exact supervised.startServer
  | spawn task =>
      obtain ⟨-, rfl⟩ := provided_eq_some.mp steps
      exact ⟨supervised.watched, fun _ =>
        Or.inr (Or.inl ⟨_, List.mem_cons_self, by simp⟩)⟩
  | started task process =>
      obtain ⟨-, rfl⟩ := provided_eq_some.mp steps
      refine ⟨fun other isOther => ?_, fun _ =>
        Or.inr (Or.inr (Or.inr (List.cons_ne_nil _ _)))⟩
      cases isOther
      exact List.mem_cons_self
  | settingsSaved task process =>
      obtain ⟨⟨member, isSaving⟩, rfl⟩ := provided_eq_some.mp steps
      refine ⟨supervised.watched, fun restarts => ?_⟩
      rcases supervised.pending restarts with
        timer | ⟨other, isOther, notSaving⟩ | rest
      · exact Or.inl timer
      · have different : other ≠ task := by
          rintro rfl
          exact notSaving process isSaving
        exact Or.inr (Or.inl
          ⟨other, (List.mem_erase_of_ne different).mpr isOther, notSaving⟩)
      · exact Or.inr (Or.inr rest)
  | startFails task =>
      obtain ⟨-, rfl⟩ := provided_eq_some.mp steps
      exact Supervised.scheduleIfRestarts noneWatched
  | exit process =>
      obtain ⟨-, rfl⟩ := provided_eq_some.mp steps
      exact ⟨supervised.watched, supervised.pending⟩
  | exitNotified process =>
      obtain ⟨-, rfl⟩ := provided_eq_some.mp steps
      exact ⟨noneWatched, fun _ =>
        Or.inr (Or.inr (Or.inl (List.cons_ne_nil _ _)))⟩
  | exitCleaned process =>
      obtain ⟨-, rfl⟩ := provided_eq_some.mp steps
      exact Supervised.scheduleIfRestarts supervised.watched
  | stopResumed task =>
      obtain ⟨-, rfl⟩ := provided_eq_some.mp steps
      exact ⟨noneWatched, supervised.pending⟩
  | stopTimeout task =>
      obtain ⟨-, rfl⟩ := provided_eq_some.mp steps
      exact ⟨noneWatched, supervised.pending⟩
  | stopDone task failed =>
      obtain ⟨-, rfl⟩ := provided_eq_some.mp steps
      exact ⟨supervised.watched, supervised.pending⟩
  | restartResumed task =>
      obtain ⟨-, rfl⟩ := provided_eq_some.mp steps
      exact Supervised.startServer ⟨supervised.watched, supervised.pending⟩
  | timerFires =>
      obtain ⟨-, rfl⟩ := provided_eq_some.mp steps
      rw [ServerProcessService.timerFires]
      split
      · exact ⟨supervised.watched, fun _ =>
          Or.inr (Or.inl ⟨_, List.mem_cons_self, by simp⟩)⟩
      · rename_i guard
        refine ⟨supervised.watched, fun restarts => ?_⟩
        have sameRestarts : service.restarts = true := restarts
        have running : service.serverProcess.isSome = true := by
          rw [sameRestarts, isRunning] at guard
          simpa only [Bool.true_and, Bool.not_eq_true', Bool.not_eq_false]
            using guard
        obtain ⟨process, isProcess⟩ := Option.isSome_iff_exists.mp running
        have isWatched := supervised.watched process isProcess
        exact Or.inr (Or.inr (Or.inr (List.ne_nil_of_mem isWatched)))

/-! ## Restarts that a call does not prevent -/

/-- A process can be made without a call that starts one. -/
def CanSpawn (service : ServerProcessService) : Prop :=
  ∃ events last, Run step Quiet service events last ∧
    ∃ event ∈ events, event.isSpawn = true

/-- Events that are no calls happen whatever is in progress. -/
theorem quiet_of_not_call (isNoCall : event.isCall = false) :
    service.Quiet event := by
  constructor
  · intro isCall
    rw [isNoCall] at isCall
    cases isCall
  · cases event <;> first | rfl | cases isNoCall

theorem CanSpawn.before (isNoCall : event.isCall = false)
    (steps : service.step event = some next) (later : next.CanSpawn) :
    service.CanSpawn := by
  obtain ⟨events, last, run, spawnEvent, member, isSpawn⟩ := later
  exact ⟨event :: events, last, .cons (quiet_of_not_call isNoCall) steps run,
    spawnEvent, List.mem_cons_of_mem _ member, isSpawn⟩

theorem canSpawn_of_preparing (member : task ∈ service.starts)
    (isPreparing : task.phase = .preparing) : service.CanSpawn := by
  have steps : service.step (.spawn task) = some (service.spawn task) :=
    provided_eq_some.mpr ⟨⟨member, isPreparing⟩, rfl⟩
  exact ⟨[.spawn task], _, .single (quiet_of_not_call rfl) steps, _,
    List.mem_singleton_self _, rfl⟩

section Unstopped

variable (restarts : service.restarts = true)

include restarts

theorem canSpawn_of_timer (notRunning : service.isRunning = false)
    (timer : service.restartTimer.isSome = true) : service.CanSpawn := by
  have steps : service.step .timerFires = some service.timerFires :=
    provided_eq_some.mpr ⟨timer, rfl⟩
  have begun : { phase := .preparing, ofCall := false } ∈
      service.timerFires.starts := by
    simp [timerFires, restarts, notRunning, startOnce]
  exact .before rfl steps (canSpawn_of_preparing begun rfl)

theorem canSpawn_scheduled (notRunning : service.isRunning = false) :
    service.scheduleIfRestarts.CanSpawn := by
  have scheduled : service.scheduleRestart.CanSpawn :=
    canSpawn_of_timer restarts notRunning scheduleRestart_timer
  rwa [scheduleIfRestarts, if_pos restarts]

theorem canSpawn_of_exits (notRunning : service.isRunning = false)
    (waits : process ∈ service.exits) : service.CanSpawn := by
  have steps : service.step (.exitCleaned process) =
      some (service.exitCleaned process) :=
    provided_eq_some.mpr ⟨waits, rfl⟩
  have scheduled : (service.exitCleaned process).CanSpawn :=
    canSpawn_scheduled restarts notRunning
  exact .before rfl steps scheduled

/-- The callback clears the field, whatever process it holds. -/
theorem canSpawn_of_notified (isWatched : process ∈ service.watched)
    (isDead : process ∉ service.alive) : service.CanSpawn := by
  have steps : service.step (.exitNotified process) =
      some (service.exitNotified process) :=
    provided_eq_some.mpr ⟨⟨isWatched, isDead⟩, rfl⟩
  have waits : process ∈ (service.exitNotified process).exits :=
    List.mem_cons_self
  have cleaned : (service.exitNotified process).CanSpawn :=
    canSpawn_of_exits restarts rfl waits
  exact .before rfl steps cleaned

theorem canSpawn_of_watched (isWatched : process ∈ service.watched) :
    service.CanSpawn := by
  by_cases isAlive : process ∈ service.alive
  · have steps : service.step (.exit process) =
        some { service with
          alive := service.alive.filter (· ≠ process) } :=
      provided_eq_some.mpr ⟨isAlive, rfl⟩
    refine .before rfl steps (canSpawn_of_notified restarts isWatched ?_)
    intro stillAlive
    simp at stillAlive
  · exact canSpawn_of_notified restarts isWatched isAlive

theorem canSpawn_of_starts (member : task ∈ service.starts) :
    service.CanSpawn := by
  -- A start that fails is repeated by the timer.
  have failing (service : ServerProcessService)
      (restarts : service.restarts = true) (task : StartTask)
      (member : task ∈ service.starts)
      (throws : task.phase.isSpawned = false) : service.CanSpawn := by
    have steps : service.step (.startFails task) =
        some (service.startFails task) :=
      provided_eq_some.mpr ⟨⟨member, throws⟩, rfl⟩
    have scheduled : (service.startFails task).CanSpawn :=
      canSpawn_scheduled restarts rfl
    exact .before rfl steps scheduled
  cases isPhase : task.phase with
  | spawned process =>
      have steps : service.step (.started task process) =
          some (service.started task process) :=
        provided_eq_some.mpr ⟨⟨member, isPhase⟩, rfl⟩
      have saving : { task with phase := .saving process } ∈
          (service.started task process).starts :=
        List.mem_cons_self
      exact .before rfl steps (failing _ restarts _ saving rfl)
  | _ => exact failing service restarts task member (by rw [isPhase]; rfl)

theorem canSpawn_of_pending (notRunning : service.isRunning = false)
    (pending : service.Pending) : service.CanSpawn := by
  rcases pending with timer | ⟨task, member, -⟩ | waits | watched
  · exact canSpawn_of_timer restarts notRunning timer
  · exact canSpawn_of_starts restarts member
  · obtain ⟨process, waits⟩ := List.exists_mem_of_ne_nil _ waits
    exact canSpawn_of_exits restarts notRunning waits
  · obtain ⟨process, isWatched⟩ := List.exists_mem_of_ne_nil _ watched
    exact canSpawn_of_watched restarts isWatched

end Unstopped

/-! ## Stopping -/

/-- A call of `stopServer` that finds a server can complete while what is
going to make a process still is. -/
theorem stopServer_completes (noCall : service.NoCall)
    (isProcess : service.serverProcess = some process) :
    ∃ events last, Run step Quiet (service.stopServer false) events last ∧
      last.stops = [] ∧ last.starts = service.starts := by
  let task : StopTask := { process, ofRestart := false, phase := .waiting }
  let cleaning : StopTask := { task with phase := .cleaning false }
  have stops : (service.stopServer false).stops = [task] := by
    simp [stopServer, isProcess, noCall.1, task]
  have starts : (service.stopServer false).starts = service.starts := by
    simp [stopServer, isProcess]
  have running : (service.stopServer false).isRunning = true := by
    simp [stopServer, isProcess, isRunning]
  generalize service.stopServer false = stopping at *
  have times : stopping.step (.stopTimeout task) =
      some (stopping.finallyStop task false) := by
    refine provided_eq_some.mpr ⟨⟨?_, rfl⟩, ?_⟩
    · rw [stops]
      exact List.mem_cons_self
    · rw [running]
      rfl
  have cleans : (stopping.finallyStop task false).step
        (.stopDone cleaning false) =
      some ((stopping.finallyStop task false).stopDone cleaning false) :=
    provided_eq_some.mpr ⟨⟨List.mem_cons_self, rfl⟩, rfl⟩
  have run := (Run.single (quiet_of_not_call rfl) times).append
    (Run.single (quiet_of_not_call rfl) cleans)
  refine ⟨_, _, run, ?_, starts⟩
  simp [stopDone, finallyStop, stops, task, cleaning]

theorem StopFinal.not_canSpawn (final : service.StopFinal)
    {waiting : List ServiceEvent} {middle : ServerProcessService}
    (run : Run step Quiet (service.stopServer false) waiting middle)
    (completed : middle.stops = []) : ¬ middle.CanSpawn := by
  rintro ⟨later, last, afterwards, event, member, isSpawn⟩
  have noSpawn := final run completed afterwards event member
  rw [noSpawn] at isSpawn
  cases isSpawn

/-- Whenever no call is in progress, a call of `stopServer` is final if and
only if it finds the server running or not to be restarted, and no start that
is going to make a process. -/
theorem stopServer_final_iff {events : List ServiceEvent}
    (run : Run step Serial initial events service)
    (noCall : service.NoCall) :
    service.StopFinal ↔ service.StopEffective := by
  refine ⟨fun final => ?_, stopFinal_of_effective noCall⟩
  have supervised : service.Supervised :=
    run.preserves Supervised (fun _ steps supervised => supervised.step steps)
      ⟨noneWatched, fun restarts => by cases restarts⟩
  cases isProcess : service.serverProcess with
  | none =>
      have notRunning : service.isRunning = false := by
        simp [isRunning, isProcess]
      have returns : service.stopServer false = service := by
        simp [stopServer, isProcess]
      have completed : Run step Quiet (service.stopServer false) [] service := by
        rw [returns]
        exact .nil service
      have noSpawn := final.not_canSpawn completed noCall.1
      constructor
      · right
        by_contra restarts
        rw [Bool.not_eq_false] at restarts
        exact noSpawn (canSpawn_of_pending restarts notRunning
          (supervised.pending restarts))
      · exact fun task member isPreparing =>
          noSpawn (canSpawn_of_preparing member isPreparing)
  | some process =>
      obtain ⟨waiting, middle, completed, noStops, sameStarts⟩ :=
        stopServer_completes noCall isProcess
      have noSpawn := final.not_canSpawn completed noStops
      constructor
      · left
        simp [isRunning, isProcess]
      · intro task member isPreparing
        rw [← sameStarts] at member
        exact noSpawn (canSpawn_of_preparing member isPreparing)

/-! ## A crash before the stop -/

/-- A server has been started. -/
def startedOnce : List ServiceEvent :=
  [.startServer, .spawn { phase := .preparing, ofCall := true },
    .started { phase := .spawned 0, ofCall := true } 0,
    .settingsSaved { phase := .saving 0, ofCall := true } 0]

/-- It has crashed as well, and waits to be restarted. -/
def crashedOnce : List ServiceEvent :=
  startedOnce ++ [.exit 0, .exitNotified 0, .exitCleaned 0]

theorem stopServer_final_startedOnce :
    ∃ service, Run step Serial initial startedOnce service ∧
      service.isRunning = true ∧ service.StopFinal := by
  have computed : ∃ service,
      runEvents step Serial initial startedOnce = some service ∧
        service.NoCall ∧ service.isRunning = true ∧
          ∀ task ∈ service.starts, task.phase ≠ .preparing :=
    ⟨_, rfl, by decide, rfl, by decide⟩
  obtain ⟨service, isRun, noCall, running, noneMade⟩ := computed
  have run := run_of_runEvents _ _ isRun
  exact ⟨service, run, running,
    (stopServer_final_iff run noCall).mpr ⟨Or.inl running, noneMade⟩⟩

/-- The call returns early, and the timer starts the server all the same. -/
theorem crashedOnce_not_final :
    ∃ service last, Run step Serial initial crashedOnce service ∧
      service.NoCall ∧ service.stopServer false = service ∧
      Run step Quiet service
        [.timerFires, .spawn { phase := .preparing, ofCall := false }] last ∧
      last.alive = [1] ∧ ¬ service.StopFinal := by
  have computed : ∃ service last,
      runEvents step Serial initial crashedOnce = some service ∧
        service.NoCall ∧ service.stopServer false = service ∧
        runEvents step Quiet service
          [.timerFires, .spawn { phase := .preparing, ofCall := false }] =
            some last ∧
        last.alive = [1] :=
    ⟨_, _, rfl, by decide, rfl, rfl, rfl⟩
  obtain ⟨service, last, isRun, noCall, returns, restarts, isAlive⟩ := computed
  have later := run_of_runEvents _ _ restarts
  refine ⟨service, last, run_of_runEvents _ _ isRun, noCall, returns, later,
    isAlive, fun final => ?_⟩
  have completed : Run step Quiet (service.stopServer false) [] service := by
    rw [returns]
    exact .nil service
  have noSpawn := final completed noCall.1 later
    (.spawn { phase := .preparing, ofCall := false })
  simp [ServiceEvent.isSpawn] at noSpawn

end ServerProcessService

end MouseHero
