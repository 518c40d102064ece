import MouseHero.Gui.ServerProcess

/-!
# One server process

The guards of `ServerProcessService` look at a field that is set late and
cleared early.  As long as no start passes its guard while a process runs or is
about to be made, at most one process runs.
-/

namespace MouseHero

namespace ServerProcessService

variable {service next : ServerProcessService} {event : ServiceEvent}
variable {task : StartTask} {phase : StartPhase}

/-- The tasks that are going to make a process. -/
def preparing (service : ServerProcessService) : Nat :=
  service.starts.countP StartTask.isPreparing

/-- The processes that run and those that are going to be made. -/
def load (service : ServerProcessService) : Nat :=
  service.alive.length + service.preparing

/-- The event is a start that passes its guard. -/
def begins (service : ServerProcessService) : ServiceEvent → Bool
  | .startServer => !service.isRunning
  | .restartServer => !service.isRunning
  | .restartResumed _ => !service.isRunning
  | .timerFires => service.restarts && !service.isRunning
  | _ => false

/-- No process runs, and no task is going to make one. -/
def Vacant (service : ServerProcessService) : Prop :=
  service.alive = [] ∧ ∀ task ∈ service.starts, task.phase ≠ .preparing

/-- A start that passes its guard finds no other one. -/
def StartsAlone (service : ServerProcessService) (event : ServiceEvent) :
    Prop :=
  service.begins event = true → service.Vacant

instance : Decidable service.Vacant :=
  inferInstanceAs (Decidable (_ ∧ _))

instance : Decidable (service.StartsAlone event) :=
  inferInstanceAs (Decidable (_ → _))

/-! ## What the methods do to the load -/

theorem preparing_endStart (member : task ∈ service.starts) :
    service.preparing =
      (service.endStart task).preparing +
        (if task.isPreparing then 1 else 0) := by
  have taken := (List.perm_cons_erase member).countP_eq StartTask.isPreparing
  rw [List.countP_cons] at taken
  exact taken

theorem preparing_goOn (isMade : phase ≠ .preparing) :
    (service.goOn task phase).preparing =
      (service.endStart task).preparing := by
  rw [preparing, goOn, List.countP_cons, preparing, endStart]
  simp [StartTask.isPreparing, isMade]

@[simp] theorem load_cleanupProcess :
    service.cleanupProcess.load = service.load :=
  rfl

@[simp] theorem load_scheduleIfRestarts :
    service.scheduleIfRestarts.load = service.load := by
  rw [scheduleIfRestarts]
  split <;> rfl

theorem load_startServer :
    service.startServer.load =
      service.load + if service.isRunning then 0 else 1 := by
  rw [startServer]
  split
  · rfl
  · simp [load, preparing, startOnce, StartTask.isPreparing, Nat.add_assoc]

@[simp] theorem load_stopServer {ofRestart : Bool} :
    (service.stopServer ofRestart).load = service.load := by
  rw [stopServer]
  split <;> rfl

theorem load_endStart (member : task ∈ service.starts) :
    service.load =
      (service.endStart task).load + (if task.isPreparing then 1 else 0) := by
  rw [load, preparing_endStart member, load, Nat.add_assoc]
  rfl

theorem load_goOn (isMade : phase ≠ .preparing) :
    (service.goOn task phase).load = (service.endStart task).load := by
  have counted : (service.goOn task phase).preparing =
      (service.endStart task).preparing := preparing_goOn isMade
  rw [load, counted]
  rfl

/-! ## Steps -/

theorem step_load (steps : service.step event = some next) :
    next.load ≤ service.load + if service.begins event then 1 else 0 := by
  cases event with
  | startServer =>
      cases steps
      rw [load_startServer]
      cases running : service.isRunning <;> simp [begins, running]
  | stopServer =>
      cases steps
      simp [begins]
  | restartServer =>
      cases steps
      rw [restartServer]
      cases running : service.isRunning with
      | true => simp [begins]
      | false => simp [begins, running, load_startServer]
  | spawn task =>
      obtain ⟨⟨member, isPreparing⟩, rfl⟩ := provided_eq_some.mp steps
      have counted := load_endStart member
      have made : (service.spawn task).load =
          (service.goOn task (.spawned service.spawned)).load + 1 := by
        simp [load, spawn, preparing, goOn]
        omega
      have isTask : task.isPreparing = true := by
        simp [StartTask.isPreparing, isPreparing]
      rw [made, load_goOn (by simp)]
      rw [isTask, if_pos rfl] at counted
      omega
  | started task process =>
      obtain ⟨⟨member, isSpawned⟩, rfl⟩ := provided_eq_some.mp steps
      have counted := load_endStart member
      have same : (service.started task process).load =
          (service.goOn task (.saving process)).load := rfl
      rw [same, load_goOn (by simp)]
      omega
  | settingsSaved task process =>
      obtain ⟨⟨member, -⟩, rfl⟩ := provided_eq_some.mp steps
      have counted := load_endStart member
      have same : (service.settingsSaved task).load =
          (service.endStart task).load := rfl
      omega
  | startFails task =>
      obtain ⟨⟨member, -⟩, rfl⟩ := provided_eq_some.mp steps
      have counted := load_endStart member
      rw [startFails, load_scheduleIfRestarts, load_cleanupProcess]
      omega
  | exit process =>
      obtain ⟨-, rfl⟩ := provided_eq_some.mp steps
      have fewer := List.length_filter_le (· ≠ process) service.alive
      simp only [load, preparing]
      omega
  | exitNotified process =>
      obtain ⟨-, rfl⟩ := provided_eq_some.mp steps
      exact Nat.le_add_right _ _
  | exitCleaned process =>
      obtain ⟨-, rfl⟩ := provided_eq_some.mp steps
      rw [exitCleaned, load_scheduleIfRestarts]
      exact Nat.le_add_right _ _
  | stopResumed task =>
      obtain ⟨-, rfl⟩ := provided_eq_some.mp steps
      exact Nat.le_add_right _ _
  | stopTimeout task =>
      obtain ⟨-, rfl⟩ := provided_eq_some.mp steps
      exact Nat.le_add_right _ _
  | stopDone task failed =>
      obtain ⟨-, rfl⟩ := provided_eq_some.mp steps
      exact Nat.le_add_right _ _
  | restartResumed task =>
      obtain ⟨-, rfl⟩ := provided_eq_some.mp steps
      rw [load_startServer]
      cases running : service.isRunning <;>
        simp [begins, isRunning, load, preparing] at * <;> simp [running]
  | timerFires =>
      obtain ⟨-, rfl⟩ := provided_eq_some.mp steps
      rw [timerFires, begins]
      split
      · simp [load, preparing, startOnce, StartTask.isPreparing, Nat.add_assoc]
      · exact Nat.le_add_right _ _

theorem load_of_vacant (vacant : service.Vacant) : service.load = 0 := by
  obtain ⟨noneAlive, noneMade⟩ := vacant
  have notCounted : service.preparing = 0 := by
    rw [preparing, List.countP_eq_zero]
    intro task member isPreparing
    exact noneMade task member (of_decide_eq_true isPreparing)
  rw [load, notCounted, noneAlive, List.length_nil]

theorem load_le_one {events : List ServiceEvent}
    (run : Run step StartsAlone service events next)
    (bounded : service.load ≤ 1) :
    next.load ≤ 1 := by
  refine run.preserves (fun service => service.load ≤ 1) ?_ bounded
  intro before after event alone steps bounded
  have counted := step_load steps
  split at counted
  · rename_i isStart
    have empty := load_of_vacant (alone isStart)
    omega
  · omega

/-- If no start passes its guard while there is a process or another start that
is going to make one, at most one process runs at any time. -/
theorem alive_le_one {events : List ServiceEvent}
    (run : Run step StartsAlone initial events service) :
    service.alive.length ≤ 1 := by
  have bounded := load_le_one run (Nat.zero_le 1)
  rw [load] at bounded
  omega

/-! ## Overtaking -/

/-- A start that passes its guard is going to make a process. -/
theorem step_begins (isStart : service.begins event = true)
    (steps : service.step event = some next) :
    ∃ ofCall,
      next.starts = { phase := .preparing, ofCall } :: service.starts ∧
        next.alive = service.alive := by
  cases event with
  | startServer =>
      cases steps
      rw [begins, Bool.not_eq_true'] at isStart
      refine ⟨true, ?_⟩
      simp [startServer, isStart, startOnce]
  | restartServer =>
      cases steps
      rw [begins, Bool.not_eq_true'] at isStart
      refine ⟨true, ?_⟩
      simp [restartServer, startServer, isStart, startOnce]
  | restartResumed task =>
      obtain ⟨-, rfl⟩ := provided_eq_some.mp steps
      rw [begins, Bool.not_eq_true', isRunning] at isStart
      refine ⟨true, ?_⟩
      simp [startServer, isRunning, isStart, startOnce]
  | timerFires =>
      obtain ⟨-, rfl⟩ := provided_eq_some.mp steps
      rw [begins] at isStart
      refine ⟨false, ?_⟩
      simp [timerFires, isStart, startOnce]
  | _ => cases isStart

theorem step_spawn (member : task ∈ service.starts)
    (isPreparing : task.phase = .preparing) :
    service.step (.spawn task) = some (service.spawn task) :=
  provided_eq_some.mpr ⟨⟨member, isPreparing⟩, rfl⟩

theorem startsAlone_spawn : service.StartsAlone (.spawn task) := by
  intro isStart
  cases isStart

/-- A start that is not alone can end with two processes. -/
theorem two_alive (isStart : service.begins event = true)
    (steps : service.step event = some next) (crowded : ¬ service.Vacant) :
    ∃ events last,
      Run step StartsAlone next events last ∧ 2 ≤ last.alive.length := by
  obtain ⟨ofCall, isNew, sameAlive⟩ := step_begins isStart steps
  have newMember : { phase := .preparing, ofCall } ∈ next.starts := by
    simp [isNew]
  have first := Run.single startsAlone_spawn (step_spawn newMember rfl)
  by_cases noneAlive : service.alive = []
  · -- Another start is going to make a process as well.
    have another : ∃ task ∈ service.starts, task.phase = .preparing := by
      by_contra noOther
      exact crowded ⟨noneAlive, fun task member isPreparing =>
        noOther ⟨task, member, isPreparing⟩⟩
    obtain ⟨task, member, isPreparing⟩ := another
    have still : task ∈
        (next.spawn { phase := .preparing, ofCall }).starts := by
      simp [spawn, goOn, isNew, member]
    have second := Run.single startsAlone_spawn (step_spawn still isPreparing)
    refine ⟨_, _, first.append second, ?_⟩
    simp [spawn]
  · have positive : 0 < service.alive.length := List.length_pos_iff.mpr noneAlive
    refine ⟨_, _, first, ?_⟩
    simp only [spawn, sameAlive, List.length_cons]
    omega

/-- What a start that passes its guard leads to, as long as the later ones are
alone. -/
theorem vacant_iff {events : List ServiceEvent}
    (run : Run step StartsAlone initial events service)
    (isStart : service.begins event = true)
    (steps : service.step event = some next) :
    (∀ later last, Run step StartsAlone next later last →
      last.alive.length ≤ 1) ↔ service.Vacant := by
  constructor
  · intro single
    by_contra crowded
    obtain ⟨later, last, isRun, two⟩ := two_alive isStart steps crowded
    have one := single later last isRun
    omega
  · intro vacant later last isRun
    exact alive_le_one (run.append (.cons (fun _ => vacant) steps isRun))

/-! ## A process that is forgotten -/

def callTask (phase : StartPhase) : StartTask where
  phase
  ofCall := true

def timerTask (phase : StartPhase) : StartTask where
  phase
  ofCall := false

/-- A server is started, and its settings are written. -/
def ordinaryStart : List ServiceEvent :=
  [.startServer, .spawn (callTask .preparing), .started (callTask (.spawned 0)) 0,
    .settingsSaved (callTask (.saving 0)) 0]

theorem alive_le_one_ordinaryStart :
    ∃ service, Run step StartsAlone initial ordinaryStart service ∧
      service.alive = [0] ∧ service.alive.length ≤ 1 := by
  have computed : ∃ service,
      runEvents step StartsAlone initial ordinaryStart = some service ∧
        service.alive = [0] := ⟨_, rfl, rfl⟩
  obtain ⟨service, isRun, isAlive⟩ := computed
  have run := run_of_runEvents _ _ isRun
  exact ⟨service, run, isAlive, alive_le_one run⟩

/-- The settings cannot be written, the process is forgotten, and the restart
timer starts another one. -/
def forgottenStart : List ServiceEvent :=
  [.startServer, .spawn (callTask .preparing), .started (callTask (.spawned 0)) 0,
    .startFails (callTask (.saving 0)), .timerFires,
    .spawn (timerTask .preparing)]

theorem forgottenStart_alive :
    ∃ service, Run step (fun _ _ => True) initial forgottenStart service ∧
      service.alive = [1, 0] ∧ ¬ service.alive.length ≤ 1 := by
  have computed : ∃ service,
      runEvents step (fun _ _ => True) initial forgottenStart = some service ∧
        service.alive = [1, 0] := ⟨_, rfl, rfl⟩
  obtain ⟨service, isRun, isAlive⟩ := computed
  refine ⟨service, run_of_runEvents _ _ isRun, isAlive, ?_⟩
  rw [isAlive]
  decide

end ServerProcessService

end MouseHero
