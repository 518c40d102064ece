import MouseHero.Support.Logger

/-!
# What a call of the logger does

One message logged to an open file: the text that is composed is never cut
short, and what happens to the files depends on whether the file is rotated
and whether it can be opened again.
-/

namespace MouseHero

open FaultM Numerals

/-! ## The text of a message -/

/-- The position in the source, when it is printed. -/
def positionText (format : YaLogFormat) (call : LogCall) : List UInt8 :=
  match format.includeFileLine, call.file with
  | true, some file =>
      bracketed (file.text ++ literal ":" ++ signedDecimal call.line.toInt)
  | _, _ => []

/-- The text of a message that passes the filter. -/
def finalText (format : YaLogFormat) (call : LogCall) (text : List UInt8) :
    List UInt8 :=
  (if format.includeTimestamp then bracketed call.timestamp.text else []) ++
    (if format.includeLevel then bracketed (yaLoggerLevelName call.level) else []) ++
    positionText format call ++
    (formatMessage text ++ if format.autoNewline then literal "\n" else [])

/-- The state of `final_message` while nothing was cut off. -/
def FinalMessage.whole (text : List UInt8) : FinalMessage where
  text := text
  written := text.length

theorem FinalMessage.whole_nil :
    FinalMessage.whole [] = { text := [], written := 0 } :=
  rfl

theorem FinalMessage.print_whole {text printed : List UInt8}
    (fits : text.length + printed.length < MAX_FINAL_MESSAGE_SIZE) :
    (FinalMessage.whole text).print printed = .ok (.whole (text ++ printed)) := by
  have inside : ¬ MAX_FINAL_MESSAGE_SIZE < (whole text).written := by
    simp only [whole]
    omega
  have short : printed.length ≤
      MAX_FINAL_MESSAGE_SIZE - (whole text).written - 1 := by
    simp only [whole]
    omega
  rw [print, if_neg inside, List.take_of_length_le short]
  simp only [whole, List.length_append]

theorem length_bracketed (text : List UInt8) :
    (bracketed text).length = text.length + 3 := by
  have opening : (literal "[").length = 1 := by decide
  have closing : (literal "] ").length = 2 := by decide
  simp only [bracketed, List.length_append, opening, closing]
  omega

private theorem length_yaLoggerLevelName_le (level : UInt32) :
    (yaLoggerLevelName level).length ≤ 7 := by
  have unknown : (literal "UNKNOWN").length ≤ 7 := by decide
  rw [yaLoggerLevelName]
  split
  · rename_i inRange
    have names : ∀ number : Fin 7,
        (literal (levelNames.getD number.val "UNKNOWN")).length ≤ 7 := by
      decide
    have small : level.toNat < 7 := by
      have atMost := UInt32.le_iff_toNat_le.mp inRange.2
      exact Nat.lt_succ_of_le atMost
    exact names ⟨level.toNat, small⟩
  · exact unknown

private theorem length_formatMessage_lt (text : List UInt8) :
    (formatMessage text).length < MAX_MESSAGE_SIZE := by
  have cut : (formatMessage text).length ≤ (text.take (MAX_MESSAGE_SIZE - 1)).length :=
    (List.takeWhile_sublist _).length_le
  rw [List.length_take] at cut
  have : MAX_MESSAGE_SIZE = 8192 := rfl
  omega

private theorem length_line_le (line : Int32) :
    (signedDecimal line.toInt).length ≤ 11 := by
  apply @length_signedDecimal_le _ 10 (by decide)
  have below := line.toInt_lt
  have above := line.le_toInt
  omega

private theorem length_optional_le (isPrinted : Bool) (printed : List UInt8) :
    (if isPrinted then printed else []).length ≤ printed.length := by
  split
  · exact Nat.le_refl _
  · exact Nat.zero_le _

theorem FinalMessage.printWhen_whole {text printed : List UInt8} {isPrinted : Bool}
    (fits : text.length + printed.length < MAX_FINAL_MESSAGE_SIZE) :
    (FinalMessage.whole text).printWhen isPrinted printed =
      .ok (.whole (text ++ if isPrinted then printed else [])) := by
  cases isPrinted with
  | false => simp [printWhen]
  | true => exact print_whole fits

/-- The position is printed by one of the two ways through the code. -/
theorem FinalMessage.printPosition_whole {text : List UInt8} {format : YaLogFormat}
    {call : LogCall}
    (fits : text.length + (positionText format call).length <
      MAX_FINAL_MESSAGE_SIZE) :
    (FinalMessage.whole text).printPosition format call =
      .ok (.whole (text ++ positionText format call)) := by
  rw [positionText] at fits ⊢
  rw [printPosition]
  cases isPrinted : format.includeFileLine with
  | false => simp
  | true =>
      cases isNamed : call.file with
      | none => simp
      | some file =>
          rw [isPrinted, isNamed] at fits
          exact print_whole fits

private theorem length_positionText_le (format : YaLogFormat) (call : LogCall) :
    (positionText format call).length ≤ PATH_MAX + 14 := by
  have colon : (literal ":").length = 1 := by decide
  have line := length_line_le call.line
  rw [positionText]
  split
  · rename_i file _ _
    have short := file.fits
    rw [length_bracketed, List.length_append, List.length_append, colon]
    omega
  · exact Nat.zero_le _

/-- No part of a message is cut off behind the 8191 bytes of the text itself,
and nothing is written behind the array. -/
theorem composeMessage_eq (format : YaLogFormat) (call : LogCall)
    (text : List UInt8) :
    composeMessage format call text =
      .ok (.whole (finalText format call text)) := by
  have stamp : (bracketed call.timestamp.text).length < 35 := by
    have short : call.timestamp.text.length < 32 := call.timestamp.fits
    rw [length_bracketed]
    omega
  have level : (bracketed (yaLoggerLevelName call.level)).length ≤ 10 := by
    have short := length_yaLoggerLevelName_le call.level
    rw [length_bracketed]
    omega
  have position := length_positionText_le format call
  have message := length_formatMessage_lt text
  have newline : (if format.autoNewline then literal "\n" else []).length ≤ 1 :=
    length_optional_le _ (literal "\n")
  have stamped := length_optional_le format.includeTimestamp
    (bracketed call.timestamp.text)
  have levelled := length_optional_le format.includeLevel
    (bracketed (yaLoggerLevelName call.level))
  have sizes : PATH_MAX = 4096 ∧ MAX_MESSAGE_SIZE = 8192 ∧
      MAX_FINAL_MESSAGE_SIZE = 16384 := ⟨rfl, rfl, rfl⟩
  -- One equation for each of the four calls of `snprintf`.
  have first := @FinalMessage.printWhen_whole [] (bracketed call.timestamp.text)
    format.includeTimestamp (by simp only [List.length_nil]; omega)
  have second := @FinalMessage.printWhen_whole
    ([] ++ if format.includeTimestamp then bracketed call.timestamp.text else [])
    (bracketed (yaLoggerLevelName call.level)) format.includeLevel
    (by simp only [List.nil_append]; omega)
  have third := @FinalMessage.printPosition_whole
    ([] ++ (if format.includeTimestamp then bracketed call.timestamp.text else []) ++
      if format.includeLevel then bracketed (yaLoggerLevelName call.level) else [])
    format call (by simp only [List.nil_append, List.length_append]; omega)
  have last := @FinalMessage.print_whole
    ([] ++ (if format.includeTimestamp then bracketed call.timestamp.text else []) ++
      (if format.includeLevel then bracketed (yaLoggerLevelName call.level) else []) ++
      positionText format call)
    (formatMessage text ++ if format.autoNewline then literal "\n" else [])
    (by simp only [List.nil_append, List.length_append]; omega)
  rw [composeMessage, ← FinalMessage.whole_nil, first, except_ok_bind, second,
    except_ok_bind, third, except_ok_bind, last, List.nil_append, finalText]

/-- What a call writes: nothing when its level is filtered out. -/
def messageOf (debug : Bool) (config : YaLoggerConfig) (call : LogCall) :
    Option (List UInt8) :=
  match call.format with
  | none => none
  | some text =>
      if call.level = YA_LOG_LEVEL_OFF ∨ call.level < config.level then none
      else some (finalText (gLogFormat debug) call text)

/-! ## The files during a rotation -/

namespace Disk

/-- The files after the loop that renames. -/
def renameBackups (disk : Disk) (outcomes : LogOutcomes) (logFile : List UInt8) :
    Nat → Disk
  | 0 => disk
  | i + 1 =>
      (disk.rename (outcomes.rename i) (logName logFile i)
        (logName logFile (i + 1))).renameBackups outcomes logFile i

/-- Whether `stat` finds the log file at its largest size. -/
def isFull (disk : Disk) (config : YaLoggerConfig) (logFile : List UInt8) : Bool :=
  (disk.files logFile).any fun content => content.length ≥ config.maxFileSize

/-- The files of a rotation before the log file is opened again. -/
def shifted (disk : Disk) (outcomes : LogOutcomes) (config : YaLoggerConfig)
    (logFile : List UInt8) : Disk :=
  (disk.fclose logFile).renameBackups outcomes logFile config.maxBackupFiles.toNat

/-- The files when a message is about to be written. -/
def beforeWrite (disk : Disk) (outcomes : LogOutcomes) (config : YaLoggerConfig)
    (logFile : List UInt8) : Disk :=
  if outcomes.stat && disk.isFull config logFile then
    (disk.shifted outcomes config logFile).fopen logFile
  else
    disk

/-- The files after a message. -/
def logged (disk : Disk) (outcomes : LogOutcomes) (config : YaLoggerConfig)
    (logFile text : List UInt8) : Disk :=
  if outcomes.fputs.isNone then
    (disk.beforeWrite outcomes config logFile).write logFile text
  else
    disk.beforeWrite outcomes config logFile

end Disk

/-- The texts that reached a file, in order. -/
def written : List Moment → List (List UInt8)
  | [] => []
  | moment :: past =>
      match moment.call with
      | .write _ bytes => written past ++ [bytes]
      | _ => written past

private theorem written_rename (disk : Disk) (succeeds : Bool) (oldName newName : List UInt8) :
    written (disk.rename succeeds oldName newName).moments = written disk.moments := by
  unfold Disk.rename
  split
  · rfl
  · rfl

private theorem written_renameBackups (disk : Disk) (outcomes : LogOutcomes)
    (logFile : List UInt8) (backups : Nat) :
    written (disk.renameBackups outcomes logFile backups).moments =
      written disk.moments := by
  induction backups generalizing disk with
  | zero => rfl
  | succ i inductionHypothesis =>
      exact (inductionHypothesis _).trans (written_rename ..)

private theorem written_beforeWrite (disk : Disk) (outcomes : LogOutcomes)
    (config : YaLoggerConfig) (logFile : List UInt8) :
    written (disk.beforeWrite outcomes config logFile).moments =
      written disk.moments := by
  rw [Disk.beforeWrite]
  split
  · exact written_renameBackups (disk.fclose logFile) ..
  · rfl

/-- One message is written, unless `fputs` fails. -/
theorem written_logged (disk : Disk) (outcomes : LogOutcomes)
    (config : YaLoggerConfig) (logFile text : List UInt8) :
    written (disk.logged outcomes config logFile text).moments =
      written disk.moments ++ if outcomes.fputs.isNone then [text] else [] := by
  rw [Disk.logged]
  split
  · exact congrArg (· ++ [text]) (written_beforeWrite ..)
  · exact (written_beforeWrite ..).trans (List.append_nil _).symm

private theorem renameBackups_apply (outcomes : LogOutcomes) (logFile : List UInt8)
    (backups : Nat) (world : LogWorld) :
    renameBackups outcomes logFile backups world =
      (.ok (),
        { world with disk := world.disk.renameBackups outcomes logFile backups }) := by
  induction backups generalizing world with
  | zero => rfl
  | succ i inductionHypothesis => exact inductionHypothesis _

/-! ## A logger that is open on its file -/

/-- The logger writes to its file, and nothing is left to be flushed. -/
def OpenOn (config : YaLoggerConfig) (logFile : List UInt8) (world : LogWorld) :
    Prop :=
  ∃ (logger : YaLogger) (fp : Nat) (unbuffered : Bool),
    world.logger = some logger ∧ logger.config = config ∧ logger.logFp = some fp ∧
      world.streams fp =
        some { path := logFile, unbuffered := unbuffered, pending := [] }

section Open

variable {config : YaLoggerConfig} {logFile : List UInt8} {world : LogWorld}
variable {outcomes : LogOutcomes} {fp : Nat} {unbuffered : Bool}
variable {logger : YaLogger}

theorem stat_apply (succeeds : Bool) (path : List UInt8) (world : LogWorld) :
    stat succeeds path world =
      (.ok (if succeeds then (world.disk.files path).map List.length else none),
        world) :=
  rfl

private theorem fclose_of_flushed
    (isStream : world.streams fp =
      some { path := logFile, unbuffered := unbuffered, pending := [] }) :
    fclose (some fp) world =
      (.ok (),
        { world with
          disk := world.disk.fclose logFile
          streams := Function.update world.streams fp none }) := by
  simp [fclose, fflush, openStream, bind_apply, isStream, modifyDisk, setStream]

private theorem checkAndRotateLog_of_not_full
    (isFile : logger.config.logFile = some logFile)
    (isFp : logger.logFp = some fp)
    (stays : (outcomes.stat && world.disk.isFull logger.config logFile) = false) :
    checkAndRotateLog outcomes logger world = (.ok (), world) := by
  rw [checkAndRotateLog]
  simp only [isFile, isFp]
  rw [bind_of_ok (stat_apply _ _ _)]
  cases answered : outcomes.stat with
  | false => simp
  | true =>
      cases found : world.disk.files logFile with
      | none => simp
      | some content =>
          have small : ¬ content.length ≥ logger.config.maxFileSize := by
            simpa [answered, Disk.isFull, found] using stays
          simp [small]

theorem checkAndRotateLog_of_full
    (isFile : logger.config.logFile = some logFile)
    (isFp : logger.logFp = some fp)
    (full : (outcomes.stat && world.disk.isFull logger.config logFile) = true) :
    checkAndRotateLog outcomes logger world =
      rotateLog outcomes logger.config logFile fp world := by
  obtain ⟨answered, isFull⟩ := Bool.and_eq_true_iff.mp full
  rw [checkAndRotateLog]
  simp only [isFile, isFp]
  rw [bind_of_ok (stat_apply _ _ _), if_pos answered]
  cases found : world.disk.files logFile with
  | none => simp [Disk.isFull, found] at isFull
  | some content =>
      have large : content.length ≥ logger.config.maxFileSize := by
        simpa [Disk.isFull, found] using isFull
      simp [large]

/-- The file is closed and the names are shifted; whether there is a stream
afterwards depends on `fopen`. -/
theorem rotateLog_apply
    (isLogger : world.logger = some logger)
    (isStream : world.streams fp =
      some { path := logFile, unbuffered := unbuffered, pending := [] }) :
    rotateLog outcomes config logFile fp world =
      (.ok (),
        if outcomes.fopen then
          { world with
            disk := (world.disk.shifted outcomes config logFile).fopen logFile
            streams :=
              Function.update (Function.update world.streams fp none) world.opened
                (some { path := logFile, unbuffered := false, pending := [] })
            opened := world.opened + 1
            logger := some { logger with logFp := some world.opened } }
        else
          { world with
            disk := world.disk.shifted outcomes config logFile
            streams := Function.update world.streams fp none
            logger := some { logger with logFp := none } }) := by
  rw [rotateLog, bind_of_ok (fclose_of_flushed isStream),
    bind_of_ok (renameBackups_apply _ _ _ _)]
  cases answered : outcomes.fopen with
  | false => simp [fopen, bind_apply, modifyLogger, Disk.shifted, isLogger]
  | true =>
      simp [fopen, bind_apply, modifyLogger, modifyDisk, setStream, Disk.shifted,
        isLogger]

/-- The stream is open after the check, if it can be opened where it has to
be. -/
theorem checkAndRotateLog_opens
    (isFile : config.logFile = some logFile)
    (isLogger : world.logger = some logger) (hasConfig : logger.config = config)
    (isFp : logger.logFp = some fp)
    (isStream : world.streams fp =
      some { path := logFile, unbuffered := unbuffered, pending := [] })
    (reopens : (outcomes.stat && world.disk.isFull config logFile) = true →
      outcomes.fopen = true) :
    ∃ reached, checkAndRotateLog outcomes logger world = (.ok (), reached) ∧
      OpenOn config logFile reached ∧
      reached.disk = world.disk.beforeWrite outcomes config logFile := by
  subst hasConfig
  cases full : outcomes.stat && world.disk.isFull logger.config logFile with
  | false =>
      refine ⟨world, checkAndRotateLog_of_not_full isFile isFp full,
        ⟨logger, fp, unbuffered, isLogger, rfl, isFp, isStream⟩, ?_⟩
      rw [Disk.beforeWrite, full]
      exact (if_neg Bool.false_ne_true).symm
  | true =>
      rw [checkAndRotateLog_of_full isFile isFp full,
        rotateLog_apply isLogger isStream, if_pos (reopens full), Disk.beforeWrite,
        full, if_pos rfl]
      refine ⟨_, rfl, ⟨_, world.opened, false, rfl, rfl, rfl, ?_⟩, rfl⟩
      exact Function.update_self ..

private theorem checkAndRotateLog_loses
    (isFile : config.logFile = some logFile)
    (isLogger : world.logger = some logger) (hasConfig : logger.config = config)
    (isFp : logger.logFp = some fp)
    (isStream : world.streams fp =
      some { path := logFile, unbuffered := unbuffered, pending := [] })
    (full : (outcomes.stat && world.disk.isFull config logFile) = true)
    (refused : outcomes.fopen = false) :
    ∃ reached, checkAndRotateLog outcomes logger world = (.ok (), reached) ∧
      reached.logger.bind YaLogger.logFp = none := by
  subst hasConfig
  rw [checkAndRotateLog_of_full isFile isFp full, rotateLog_apply isLogger isStream,
    refused]
  exact ⟨_, rfl, rfl⟩

private theorem putMessage_of_open {text : List UInt8} (isOpen : OpenOn config logFile world)
    (nonempty : text ≠ []) :
    ∃ reached, putMessage outcomes text world = (.ok (), reached) ∧
      OpenOn config logFile reached ∧
      reached.disk =
        if outcomes.fputs.isNone then world.disk.write logFile text
        else world.disk := by
  obtain ⟨logger, fp, unbuffered, isLogger, hasConfig, isFp, isStream⟩ := isOpen
  cases failed : outcomes.fputs with
  | some reason =>
      refine ⟨{ world with logger := some { logger with lastError := some reason } },
        ?_, ⟨_, fp, unbuffered, rfl, hasConfig, isFp, isStream⟩, rfl⟩
      simp [putMessage, loggerFp, fputs, fflush, openStream, modifyLogger, bind_apply,
        isLogger, isFp, isStream, failed]
  | none =>
      cases unbuffered with
      | true =>
          refine ⟨{ world with disk := world.disk.write logFile text }, ?_,
            ⟨logger, fp, true, isLogger, hasConfig, isFp, isStream⟩, rfl⟩
          simp [putMessage, loggerFp, fputs, fflush, openStream, modifyDisk, bind_apply,
            isLogger, isFp, isStream, failed]
      | false =>
          refine ⟨{ world with
              disk := world.disk.write logFile text
              streams := Function.update world.streams fp
                (some { path := logFile, unbuffered := false, pending := [] }) }, ?_,
            ⟨logger, fp, false, isLogger, hasConfig, isFp, ?_⟩, rfl⟩
          · simp [putMessage, loggerFp, fputs, fflush, openStream, modifyDisk,
              setStream, bind_apply, isLogger, isFp, isStream, failed, nonempty]
          · exact Function.update_self ..

private theorem putMessage_of_null {text : List UInt8}
    (isNull : world.logger.bind YaLogger.logFp = none) :
    putMessage outcomes text world = (.error .nullDereference, world) := by
  simp [putMessage, loggerFp, fputs, openStream, bind_apply, isNull]

/-! ## One call -/

private theorem finalText_ne_nil (debug : Bool) (call : LogCall) (text : List UInt8) :
    finalText (gLogFormat debug) call text ≠ [] := by
  intro empty
  have newline : literal "\n" ≠ [] := by decide
  have parts := List.append_eq_nil_iff.mp (List.append_eq_nil_iff.mp empty).2
  exact newline parts.2

private theorem ne_nil_of_messageOf {debug : Bool} {call : LogCall} {text : List UInt8}
    (isMessage : messageOf debug config call = some text) : text ≠ [] := by
  rw [messageOf] at isMessage
  split at isMessage
  · cases isMessage
  · split at isMessage
    · cases isMessage
    · cases isMessage
      exact finalText_ne_nil debug call _

theorem yaLoggerLog_of_filtered {debug : Bool} {call : LogCall}
    (isLogger : world.logger = some logger)
    (filtered : messageOf debug logger.config call = none) :
    yaLoggerLog debug outcomes call world = (.ok (), world) := by
  rw [yaLoggerLog, bind_of_ok (getState_apply world)]
  rw [messageOf] at filtered
  cases isFormat : call.format with
  | none => simp [isLogger]
  | some text =>
      have silent : call.level = YA_LOG_LEVEL_OFF ∨
          call.level < logger.config.level := by
        by_contra passes
        simp [isFormat, passes] at filtered
      simp only [isLogger, if_pos silent, pure_apply]

theorem logElsewhere_frame (level : UInt32) (finalMessage message : List UInt8)
    (world : LogWorld) :
    ∃ console systemLog,
      logElsewhere config level finalMessage message world =
        (.ok (), { world with console := console, systemLog := systemLog }) := by
  cases useConsole : config.useConsole <;>
    cases useSystemLog : config.useSystemLog <;>
    simp [logElsewhere, useConsole, useSystemLog, writeToSystemLog, bind_apply]
  exact ⟨world.console, world.systemLog, rfl⟩

theorem yaLoggerLog_of_message {debug : Bool} {call : LogCall} {text : List UInt8}
    (isLogger : world.logger = some logger)
    (isMessage : messageOf debug logger.config call = some text) :
    ∃ message, yaLoggerLog debug outcomes call world =
      (do
        if logger.logFp.isSome then
          checkAndRotateLog outcomes logger
          putMessage outcomes text
        logElsewhere logger.config call.level text message) world := by
  rw [messageOf] at isMessage
  cases isFormat : call.format with
  | none => simp [isFormat] at isMessage
  | some format =>
      by_cases silent : call.level = YA_LOG_LEVEL_OFF ∨
          call.level < logger.config.level
      · simp [isFormat, silent] at isMessage
      · simp only [isFormat, if_neg silent, Option.some.injEq] at isMessage
        subst isMessage
        refine ⟨formatMessage format, ?_⟩
        rw [yaLoggerLog, bind_of_ok (getState_apply world)]
        simp only [isLogger, isFormat, if_neg silent, composeMessage_eq]
        rfl

/-- A message that passes the filter is put to the file, if the file can be opened
again where it has to be. -/
theorem yaLoggerLog_of_open {debug : Bool} {call : LogCall} {text : List UInt8}
    (isFile : config.logFile = some logFile) (isOpen : OpenOn config logFile world)
    (isMessage : messageOf debug config call = some text)
    (reopens : (outcomes.stat && world.disk.isFull config logFile) = true →
      outcomes.fopen = true) :
    ∃ reached, yaLoggerLog debug outcomes call world = (.ok (), reached) ∧
      OpenOn config logFile reached ∧
      reached.disk = world.disk.logged outcomes config logFile text := by
  obtain ⟨logger, fp, unbuffered, isLogger, hasConfig, isFp, isStream⟩ := isOpen
  obtain ⟨checked, checks, checkedOpen, checkedDisk⟩ :=
    checkAndRotateLog_opens isFile isLogger hasConfig isFp isStream reopens
  obtain ⟨put, puts, putOpen, putDisk⟩ :=
    @putMessage_of_open _ _ _ outcomes _ checkedOpen (ne_nil_of_messageOf isMessage)
  subst hasConfig
  obtain ⟨message, apart⟩ :=
    @yaLoggerLog_of_message _ outcomes _ _ _ _ isLogger isMessage
  obtain ⟨console, systemLog, elsewhere⟩ :=
    @logElsewhere_frame logger.config call.level text message put
  refine ⟨{ put with console := console, systemLog := systemLog }, ?_, ?_, ?_⟩
  · rw [apart, isFp]
    exact (bind_of_ok checks).trans ((bind_of_ok puts).trans elsewhere)
  · exact putOpen
  · rw [Disk.logged, ← checkedDisk]
    exact putDisk

/-- A message whose file cannot be opened again is put to a null stream. -/
theorem yaLoggerLog_of_refused {debug : Bool} {call : LogCall} {text : List UInt8}
    (isFile : config.logFile = some logFile) (isOpen : OpenOn config logFile world)
    (isMessage : messageOf debug config call = some text)
    (full : (outcomes.stat && world.disk.isFull config logFile) = true)
    (refused : outcomes.fopen = false) :
    ∃ reached, yaLoggerLog debug outcomes call world =
      (.error .nullDereference, reached) := by
  obtain ⟨logger, fp, unbuffered, isLogger, hasConfig, isFp, isStream⟩ := isOpen
  obtain ⟨checked, checks, isNull⟩ :=
    checkAndRotateLog_loses isFile isLogger hasConfig isFp isStream full refused
  subst hasConfig
  obtain ⟨message, apart⟩ :=
    @yaLoggerLog_of_message _ outcomes _ _ _ _ isLogger isMessage
  refine ⟨checked, ?_⟩
  rw [apart, isFp]
  exact (bind_of_ok checks).trans (bind_of_fault (putMessage_of_null isNull))

/-! ## Runs -/

/-- One message after another. -/
def logMessages (debug : Bool) : List (LogOutcomes × LogCall) → LogM Unit
  | [] => return ()
  | (outcomes, call) :: rest => do
      yaLoggerLog debug outcomes call
      logMessages debug rest

private theorem makeLogDirectory_frame (logFile : List UInt8) (world : LogWorld) :
    ∃ directories, makeLogDirectory logFile world =
      (.ok (), { world with directories := directories }) := by
  cases found : directoryOf logFile with
  | none => exact ⟨world.directories, by rw [makeLogDirectory, found]; rfl⟩
  | some directory =>
      by_cases short : directory.length < 256
      · exact ⟨directory :: world.directories, by simp [makeLogDirectory, found, short]⟩
      · exact ⟨world.directories, by simp [makeLogDirectory, found, short]⟩

theorem yaLoggerInit_opens (isFile : config.logFile = some logFile)
    (world : LogWorld) :
    ∃ reached,
      yaLoggerInit { malloc := true, fopen := true } (some config) world =
        (.ok true, reached) ∧
      OpenOn config logFile reached ∧ reached.disk = world.disk.fopen logFile := by
  obtain ⟨directories, made⟩ := makeLogDirectory_frame logFile world
  refine ⟨{ world with
      directories := directories
      disk := world.disk.fopen logFile
      streams :=
        Function.update world.streams world.opened
          (some { path := logFile, unbuffered := true, pending := [] })
      opened := world.opened + 1
      logger :=
        some { config := config, logFp := some world.opened, lastError := none } },
    ?_, ⟨_, world.opened, true, rfl, rfl, rfl, ?_⟩, rfl⟩
  · simp only [yaLoggerInit, isFile]
    rw [if_neg (by decide), bind_of_ok made]
    simp [fopen, setUnbuffered, openStream, setStream, modifyDisk, bind_apply]
  · exact Function.update_self ..

end Open

/-- There are no files, and no logger. -/
def noFiles : LogWorld where
  disk := { files := fun _ => none, moments := [] }
  streams := fun _ => none
  opened := 0
  directories := []
  logger := none
  console := []
  systemLog := []

/-- A log file `l` with one backup, for messages of one line. -/
def smallLog : YaLoggerConfig where
  level := YA_LOG_LEVEL_INFO
  logFile := some [108]
  useConsole := false
  useSystemLog := false
  maxFileSize := 1
  maxBackupFiles := 1

/-- An empty text that is logged. -/
def smallCall : LogCall where
  level := YA_LOG_LEVEL_INFO
  file := none
  line := 0
  format := some []
  timestamp := safeStrncpy []

end MouseHero
