import MouseHero.Library.Runs

/-!
# The supervisor of the server process

`ServerProcessService` of the desktop application.  Its methods are cut at
their awaits: what waits is a task in the state, and what it does when it goes
on is a step.  Log lines, subscriptions, the PID file and the stored settings
are left out, as nothing here depends on them.
-/

namespace MouseHero

abbrev Pid : Type := Nat

/-- Where a run of `_startOnce` waits: before there is a process, until
`Process.start` returns it, or for the settings. -/
inductive StartPhase where
  | preparing
  | spawned (process : Pid)
  | saving (process : Pid)
  deriving DecidableEq, Repr

/-- `Process.start` has made a process that it has not returned yet. -/
def StartPhase.isSpawned : StartPhase → Bool
  | spawned _ => true
  | _ => false

/-- A run of `_startOnce`, for a call of `startServer` or for the timer. -/
structure StartTask where
  phase : StartPhase
  ofCall : Bool
  deriving DecidableEq, Repr

/-- The task is going to make a process. -/
def StartTask.isPreparing (task : StartTask) : Bool :=
  task.phase = .preparing

/-- Where a run of `stopServer` waits: for the exit code, in its `finally`, or,
if it has returned to `restartServer`, for that to go on. -/
inductive StopPhase where
  | waiting
  | cleaning (failed : Bool)
  | returned
  deriving DecidableEq, Repr

/-- A run of `stopServer` that has stopped a process. -/
structure StopTask where
  process : Pid
  ofRestart : Bool
  phase : StopPhase
  deriving DecidableEq, Repr

/-- The fields of `ServerProcessService`, and what it waits for: its tasks, the
processes whose exit code is awaited by the callback of `_startOnce`, the
callbacks that wait for `_cleanupPidFile`, and the processes that run. -/
structure ServerProcessService where
  serverProcess : Option Pid
  restartTimer : Option Nat
  autoRestart : Bool
  stopping : Bool
  restartAttempts : Nat
  starts : List StartTask
  stops : List StopTask
  watched : List Pid
  exits : List Pid
  alive : List Pid
  spawned : Nat
  deriving DecidableEq, Repr

namespace ServerProcessService

variable (service : ServerProcessService)

/-- Nothing has been started. -/
def initial : ServerProcessService where
  serverProcess := none
  restartTimer := none
  autoRestart := false
  stopping := false
  restartAttempts := 0
  starts := []
  stops := []
  watched := []
  exits := []
  alive := []
  spawned := 0

def isRunning : Bool :=
  service.serverProcess.isSome

/-- `_autoRestart && !_stopping`. -/
def restarts : Bool :=
  service.autoRestart && !service.stopping

/-! ## Methods -/

/-- `_cleanupProcess`. -/
def cleanupProcess : ServerProcessService :=
  { service with serverProcess := none }

/-- The delays of `_scheduleRestart`, in seconds. -/
def delays : List Nat := [1, 2, 5, 10, 30]

/-- `_scheduleRestart`. -/
def scheduleRestart : ServerProcessService :=
  { service with
    restartTimer := delays[min service.restartAttempts (delays.length - 1)]?
    restartAttempts := min (service.restartAttempts + 1) 1000 }

/-- Schedule a restart if the guard of its callers says so. -/
def scheduleIfRestarts : ServerProcessService :=
  if service.restarts then service.scheduleRestart else service

/-- `_startOnce`, up to its first await. -/
def startOnce (ofCall : Bool) : ServerProcessService :=
  { service with starts := { phase := .preparing, ofCall } :: service.starts }

/-- `startServer`. -/
def startServer : ServerProcessService :=
  if service.isRunning then service
  else
    startOnce
      { service with
        autoRestart := true
        stopping := false
        restartAttempts := 0 } true

/-- `stopServer`, up to its first await. -/
def stopServer (ofRestart : Bool) : ServerProcessService :=
  match service.serverProcess with
  | none => service
  | some process =>
      { service with
        stopping := true
        autoRestart := false
        restartTimer := none
        stops := { process, ofRestart, phase := .waiting } :: service.stops }

/-- `restartServer`, up to its first await. -/
def restartServer : ServerProcessService :=
  if service.isRunning then service.stopServer true else service.startServer

/-! ## What follows an await -/

/-- A task of `_startOnce` waits for something else. -/
def goOn (task : StartTask) (phase : StartPhase) : ServerProcessService :=
  { service with
    starts := { task with phase } :: service.starts.erase task }

/-- A task of `_startOnce` is done. -/
def endStart (task : StartTask) : ServerProcessService :=
  { service with starts := service.starts.erase task }

/-- The system makes a process. -/
def spawn (task : StartTask) : ServerProcessService :=
  let next := service.goOn task (.spawned service.spawned)
  { next with
    alive := service.spawned :: service.alive
    spawned := service.spawned + 1 }

/-- `Process.start` has returned the process. -/
def started (task : StartTask) (process : Pid) : ServerProcessService :=
  let next := service.goOn task (.saving process)
  { next with
    serverProcess := some process
    watched := process :: service.watched }

/-- The settings are written. -/
def settingsSaved (task : StartTask) : ServerProcessService :=
  { service.endStart task with restartAttempts := 0 }

/-- The `catch` of `_startOnce`. -/
def startFails (task : StartTask) : ServerProcessService :=
  (service.endStart task).cleanupProcess.scheduleIfRestarts

/-- The callback for the exit code, up to its await. -/
def exitNotified (process : Pid) : ServerProcessService :=
  let next := service.cleanupProcess
  { next with
    watched := service.watched.erase process
    exits := process :: service.exits }

/-- The rest of the callback. -/
def exitCleaned (process : Pid) : ServerProcessService :=
  scheduleIfRestarts { service with exits := service.exits.erase process }

/-- A task of `stopServer` enters its `finally`. -/
def finallyStop (task : StopTask) (failed : Bool) : ServerProcessService :=
  let next := service.cleanupProcess
  { next with
    stops :=
      { task with phase := .cleaning failed } :: service.stops.erase task }

/-- The end of `stopServer`; a call of `restartServer` waits for it. -/
def stopDone (task : StopTask) (failed : Bool) : ServerProcessService :=
  { service with
    restartAttempts := 0
    stops :=
      (if task.ofRestart && !failed then [{ task with phase := .returned }]
      else []) ++ service.stops.erase task }

/-- The callback of the restart timer. -/
def timerFires : ServerProcessService :=
  let next := { service with restartTimer := none }
  if service.restarts && !service.isRunning then next.startOnce false else next

end ServerProcessService

/-! ## Steps -/

/-- What can happen: a call, or something that is awaited. -/
inductive ServiceEvent where
  | startServer
  | stopServer
  | restartServer
  | spawn (task : StartTask)
  | started (task : StartTask) (process : Pid)
  | settingsSaved (task : StartTask) (process : Pid)
  | startFails (task : StartTask)
  | exit (process : Pid)
  | exitNotified (process : Pid)
  | exitCleaned (process : Pid)
  | stopResumed (task : StopTask)
  | stopTimeout (task : StopTask)
  | stopDone (task : StopTask) (failed : Bool)
  | restartResumed (task : StopTask)
  | timerFires
  deriving DecidableEq, Repr

/-- A state that is reached if something is the case. -/
def provided (enabled : Prop) [Decidable enabled]
    (next : ServerProcessService) : Option ServerProcessService :=
  if enabled then some next else none

theorem provided_eq_some {enabled : Prop} [Decidable enabled]
    {next service : ServerProcessService} :
    provided enabled next = some service ↔ enabled ∧ next = service := by
  rw [provided]
  split <;> simp [*]

namespace ServerProcessService

/-- One step, if the event can happen. -/
def step (service : ServerProcessService) :
    ServiceEvent → Option ServerProcessService
  | .startServer => some service.startServer
  | .stopServer => some (service.stopServer false)
  | .restartServer => some service.restartServer
  | .spawn task =>
      provided (task ∈ service.starts ∧ task.phase = .preparing)
        (service.spawn task)
  | .started task process =>
      provided (task ∈ service.starts ∧ task.phase = .spawned process)
        (service.started task process)
  | .settingsSaved task process =>
      provided (task ∈ service.starts ∧ task.phase = .saving process)
        (service.settingsSaved task)
  | .startFails task =>
      -- A process that has been made is also returned.
      provided (task ∈ service.starts ∧ task.phase.isSpawned = false)
        (service.startFails task)
  | .exit process =>
      provided (process ∈ service.alive)
        { service with alive := service.alive.filter (· ≠ process) }
  | .exitNotified process =>
      provided (process ∈ service.watched ∧ process ∉ service.alive)
        (service.exitNotified process)
  | .exitCleaned process =>
      provided (process ∈ service.exits) (service.exitCleaned process)
  | .stopResumed task =>
      provided (task ∈ service.stops ∧ task.phase = .waiting ∧
          task.process ∉ service.alive)
        (service.finallyStop task false)
  | .stopTimeout task =>
      -- `_serverProcess!` throws if there is no process any more.
      provided (task ∈ service.stops ∧ task.phase = .waiting)
        (service.finallyStop task (!service.isRunning))
  | .stopDone task failed =>
      provided (task ∈ service.stops ∧ task.phase = .cleaning failed)
        (service.stopDone task failed)
  | .restartResumed task =>
      provided (task ∈ service.stops ∧ task.phase = .returned)
        (startServer { service with stops := service.stops.erase task })
  | .timerFires =>
      provided (service.restartTimer.isSome = true) service.timerFires

end ServerProcessService

end MouseHero
