import MouseHero.Library.Runs
import MouseHero.Support.LogSteps

/-!
# File errors while logging

The stream is closed and opened again inside the rotation, and whoever calls it
does not look at what came of that.  When `fopen` is refused there, the message
is put to a null stream.  As long as every rotation opens the file again, no
other error keeps a message from being put to the file.
-/

namespace MouseHero

open FaultM

/-! ## Steps -/

/-- One call with the answers of the system, if it returns. -/
def logStep (debug : Bool) (world : LogWorld) (event : LogOutcomes × LogCall) :
    Option LogWorld :=
  match yaLoggerLog debug event.1 event.2 world with
  | (.ok (), reached) => some reached
  | (.error _, _) => none

/-- If the call finds the log file full, the file can be opened again. -/
def Reopens (debug : Bool) (config : YaLoggerConfig) (logFile : List UInt8)
    (world : LogWorld) (event : LogOutcomes × LogCall) : Prop :=
  (messageOf debug config event.2).isSome →
    (event.1.stat && world.disk.isFull config logFile) = true →
      event.1.fopen = true

/-- The text that a call writes, unless `fputs` fails. -/
def textOf (debug : Bool) (config : YaLoggerConfig)
    (event : LogOutcomes × LogCall) : Option (List UInt8) :=
  if event.1.fputs.isNone then messageOf debug config event.2 else none

section Steps

variable {debug : Bool} {config : YaLoggerConfig} {logFile : List UInt8}
variable {world first last : LogWorld} {event : LogOutcomes × LogCall}
variable {events : List (LogOutcomes × LogCall)}

private theorem logStep_of_ok {reached : LogWorld}
    (returned : yaLoggerLog debug event.1 event.2 world = (.ok (), reached)) :
    logStep debug world event = some reached := by
  rw [logStep, returned]

private theorem ok_of_logStep {reached : LogWorld}
    (steps : logStep debug world event = some reached) :
    yaLoggerLog debug event.1 event.2 world = (.ok (), reached) := by
  rw [logStep] at steps
  split at steps
  · cases steps
    assumption
  · cases steps

/-- A call whose rotation opens the file again returns, and the logger stays open
with the message written. -/
theorem logStep_of_reopens (isFile : config.logFile = some logFile)
    (isOpen : OpenOn config logFile world)
    (reopens : Reopens debug config logFile world event) :
    ∃ reached, logStep debug world event = some reached ∧
      OpenOn config logFile reached ∧
      written reached.disk.moments =
        written world.disk.moments ++ (textOf debug config event).toList := by
  cases isMessage : messageOf debug config event.2 with
  | none =>
      obtain ⟨logger, _, _, isLogger, hasConfig, _, _⟩ := id isOpen
      have silent := @yaLoggerLog_of_filtered _ event.1 _ debug event.2 isLogger
        (hasConfig ▸ isMessage)
      refine ⟨world, logStep_of_ok silent, isOpen, ?_⟩
      rw [textOf, isMessage, ite_self]
      exact (List.append_nil _).symm
  | some text =>
      obtain ⟨reached, logs, reachedOpen, reachedDisk⟩ :=
        yaLoggerLog_of_open isFile isOpen isMessage
          (reopens (by rw [isMessage]; rfl))
      refine ⟨reached, logStep_of_ok logs, reachedOpen, ?_⟩
      rw [reachedDisk, written_logged, textOf, isMessage]
      split <;> rfl

/-- A call whose rotation cannot open the file again puts its message to a null
stream. -/
theorem yaLoggerLog_of_not_reopens (isFile : config.logFile = some logFile)
    (isOpen : OpenOn config logFile world)
    (lost : ¬ Reopens debug config logFile world event) :
    ∃ reached, yaLoggerLog debug event.1 event.2 world =
      (.error .nullDereference, reached) := by
  simp only [Reopens, Classical.not_imp, Bool.not_eq_true] at lost
  obtain ⟨passes, full, refused⟩ := lost
  obtain ⟨text, isMessage⟩ := Option.isSome_iff_exists.mp passes
  exact yaLoggerLog_of_refused isFile isOpen isMessage full refused

/-- In a run whose rotations all open the file again, the logger is open in every
state that is reached, and every message that is not filtered out is written. -/
theorem logRun_stays_open (isFile : config.logFile = some logFile)
    (isOpen : OpenOn config logFile first)
    (run : Run (logStep debug) (Reopens debug config logFile) first events last) :
    OpenOn config logFile last ∧
      written last.disk.moments =
        written first.disk.moments ++ events.filterMap (textOf debug config) := by
  induction run with
  | nil state => exact ⟨isOpen, (List.append_nil _).symm⟩
  | @cons state middle last event events reopens steps _ inductionHypothesis =>
      obtain ⟨reached, returns, reachedOpen, grows⟩ :=
        logStep_of_reopens isFile isOpen reopens
      cases steps.symm.trans returns
      obtain ⟨lastOpen, all⟩ := inductionHypothesis reachedOpen
      refine ⟨lastOpen, ?_⟩
      rw [all, grows, List.append_assoc]
      cases isText : textOf debug config event with
      | none => rw [List.filterMap_cons_none isText]; rfl
      | some text => rw [List.filterMap_cons_some isText]; rfl

/-- Once the logger has no stream, no call opens one or writes to a file, whatever
the system would answer. -/
theorem yaLoggerLog_of_no_stream {logger : YaLogger} (outcomes : LogOutcomes)
    (call : LogCall) (isLogger : world.logger = some logger)
    (isNull : logger.logFp = none) :
    ∃ reached, yaLoggerLog debug outcomes call world = (.ok (), reached) ∧
      reached.logger = some logger ∧ reached.disk = world.disk := by
  cases isMessage : messageOf debug logger.config call with
  | none =>
      exact ⟨world, yaLoggerLog_of_filtered isLogger isMessage, isLogger, rfl⟩
  | some text =>
      obtain ⟨message, apart⟩ :=
        @yaLoggerLog_of_message _ outcomes _ debug _ _ isLogger isMessage
      obtain ⟨console, systemLog, elsewhere⟩ :=
        @logElsewhere_frame logger.config call.level text message world
      refine ⟨{ world with console := console, systemLog := systemLog }, ?_,
        isLogger, rfl⟩
      rw [apart, isNull]
      exact elsewhere

/-- However many messages follow, nothing is written any more. -/
theorem logMessages_of_no_stream {logger : YaLogger}
    (isLogger : world.logger = some logger) (isNull : logger.logFp = none)
    (events : List (LogOutcomes × LogCall)) :
    ∃ reached, logMessages debug events world = (.ok (), reached) ∧
      reached.disk = world.disk := by
  induction events generalizing world with
  | nil => exact ⟨world, rfl, rfl⟩
  | cons event events inductionHypothesis =>
      obtain ⟨after, returns, afterLogger, afterDisk⟩ :=
        @yaLoggerLog_of_no_stream debug world logger event.1 event.2 isLogger isNull
      obtain ⟨reached, runs, sameDisk⟩ := inductionHypothesis afterLogger
      exact ⟨reached, (bind_of_ok returns).trans runs, sameDisk.trans afterDisk⟩

end Steps

/-! ## Surviving -/

/-- In a run whose rotations all open the file again, every message is written and
the logger is open in every state that is reached; and the next call goes well if,
and only if, it opens the file again where it rotates it. -/
theorem logging_survives_iff_reopens (debug : Bool) (config : YaLoggerConfig)
    (logFile : List UInt8) (isFile : config.logFile = some logFile)
    (first last : LogWorld) (events : List (LogOutcomes × LogCall))
    (isOpen : OpenOn config logFile first)
    (run : Run (logStep debug) (Reopens debug config logFile) first events last) :
    OpenOn config logFile last ∧
      written last.disk.moments =
        written first.disk.moments ++ events.filterMap (textOf debug config) ∧
      ∀ event : LogOutcomes × LogCall,
        (∃ reached, yaLoggerLog debug event.1 event.2 last = (.ok (), reached) ∧
          OpenOn config logFile reached) ↔
        Reopens debug config logFile last event := by
  obtain ⟨lastOpen, all⟩ := logRun_stays_open isFile isOpen run
  refine ⟨lastOpen, all, fun event => ⟨?_, ?_⟩⟩
  · intro survives
    obtain ⟨reached, returns, _⟩ := survives
    by_contra lost
    obtain ⟨stopped, faults⟩ := yaLoggerLog_of_not_reopens isFile lastOpen lost
    cases returns.symm.trans faults
  · intro reopens
    obtain ⟨reached, steps, reachedOpen, _⟩ :=
      logStep_of_reopens isFile lastOpen reopens
    exact ⟨reached, ok_of_logStep steps, reachedOpen⟩

/-- Renaming and `stat` may fail. -/
theorem logging_survives_small :
    ∃ first last,
      yaLoggerInit { malloc := true, fopen := true } (some smallLog) noFiles =
        (.ok true, first) ∧
      Run (logStep false) (Reopens false smallLog [108]) first
        [({ LogOutcomes.success with rename := fun _ => false }, smallCall),
          ({ LogOutcomes.success with stat := false }, smallCall)] last ∧
      OpenOn smallLog [108] last := by
  obtain ⟨first, opens, isOpen, _⟩ :=
    @yaLoggerInit_opens smallLog [108] rfl noFiles
  obtain ⟨middle, firstStep, middleOpen, _⟩ :=
    @logStep_of_reopens false smallLog [108] first
      ({ LogOutcomes.success with rename := fun _ => false }, smallCall) rfl isOpen
      fun _ _ => rfl
  obtain ⟨last, secondStep, _, _⟩ :=
    @logStep_of_reopens false smallLog [108] middle
      ({ LogOutcomes.success with stat := false }, smallCall) rfl middleOpen
      fun _ _ => rfl
  have run : Run (logStep false) (Reopens false smallLog [108]) first _ last :=
    .cons (fun _ _ => rfl) firstStep (.single (fun _ _ => rfl) secondStep)
  exact ⟨first, last, opens, run,
    (logging_survives_iff_reopens false smallLog [108] rfl first last _ isOpen run).1⟩

/-- The first message leaves a full file, and the file cannot be opened again for the
second one. -/
theorem logging_stops_without_reopen :
    ((do
      let _ ← yaLoggerInit { malloc := true, fopen := true } (some smallLog)
      logMessages false
        [(.success, smallCall), ({ LogOutcomes.success with fopen := false }, smallCall)] :
        LogM Unit) noFiles).1 =
      .error .nullDereference := by
  rfl

end MouseHero
