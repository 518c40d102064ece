import Mathlib.Logic.Function.Basic
import MouseHero.Buffer
import MouseHero.Config.Store
import MouseHero.Library.Numerals
import MouseHero.Mpack.Writer

/-!
# The logger

`ya_logger.c` in the Linux branch, over files that are named by their paths.
What the operating system answers to a call is given with the call.  A file
operation that changes the files leaves a record of the files it leads to, so
that every moment of a run can be looked at, those between two renamings
included.
-/

namespace MouseHero

open FaultM Numerals

/-! ## Levels and formats -/

abbrev YA_LOG_LEVEL_TRACE : UInt32 := 0
abbrev YA_LOG_LEVEL_DEBUG : UInt32 := 1
abbrev YA_LOG_LEVEL_INFO : UInt32 := 2
abbrev YA_LOG_LEVEL_WARN : UInt32 := 3
abbrev YA_LOG_LEVEL_ERROR : UInt32 := 4
abbrev YA_LOG_LEVEL_FATAL : UInt32 := 5
abbrev YA_LOG_LEVEL_OFF : UInt32 := 6

/-- `level_names`. -/
def levelNames : List String :=
  ["TRACE", "DEBUG", "INFO", "WARN", "ERROR", "FATAL", "OFF"]

/-- `ya_logger_level_name`. -/
def yaLoggerLevelName (level : UInt32) : List UInt8 :=
  if level ≥ YA_LOG_LEVEL_TRACE ∧ level ≤ YA_LOG_LEVEL_OFF then
    literal (levelNames.getD level.toNat "UNKNOWN")
  else
    literal "UNKNOWN"

/-- `ya_logger_config_t`. -/
structure YaLoggerConfig where
  level : UInt32
  logFile : Option (List UInt8)
  useConsole : Bool
  useSystemLog : Bool
  maxFileSize : Nat
  maxBackupFiles : Int
  deriving DecidableEq

/-- `ya_log_format_t`, without the format of the date. -/
structure YaLogFormat where
  includeTimestamp : Bool
  includeLevel : Bool
  includeFileLine : Bool
  autoNewline : Bool

/-- `g_log_format`, by whether `DEBUG` is defined. -/
def gLogFormat (debug : Bool) : YaLogFormat where
  includeTimestamp := true
  includeLevel := true
  includeFileLine := debug
  autoNewline := true

abbrev MAX_TIMESTAMP_SIZE : Nat := 32

abbrev MAX_MESSAGE_SIZE : Nat := 8192

abbrev MAX_FINAL_MESSAGE_SIZE : Nat := 16384

/-- The longest path, with its NUL, a source file is compiled under. -/
abbrev PATH_MAX : Nat := 4096

/-- A call of `ya_logger_log`, with the local time it is made at. -/
structure LogCall where
  level : UInt32
  /-- The macros pass `__FILE__`. -/
  file : Option (CharArray PATH_MAX)
  line : Int32
  /-- What the format prints with its arguments, if it is not null. -/
  format : Option (List UInt8)
  timestamp : CharArray MAX_TIMESTAMP_SIZE

/-! ## The text of a message -/

/-- `final_message`, with the count of bytes that were to be written to it. -/
structure FinalMessage where
  text : List UInt8
  written : Nat

/-- `written += snprintf(final_message + written, …)`.  Beyond the array the
difference of the sizes wraps around. -/
def FinalMessage.print (message : FinalMessage) (printed : List UInt8) :
    Except Fault FinalMessage :=
  if MAX_FINAL_MESSAGE_SIZE < message.written then
    .error .outOfBoundsWrite
  else
    .ok
      { text := message.text ++
          printed.take (MAX_FINAL_MESSAGE_SIZE - message.written - 1)
        written := message.written + printed.length }

/-- `[…] ` around a text. -/
def bracketed (text : List UInt8) : List UInt8 :=
  literal "[" ++ text ++ literal "] "

/-- The message after `vsnprintf`. -/
def formatMessage (text : List UInt8) : List UInt8 :=
  cString (text.take (MAX_MESSAGE_SIZE - 1))

/-- Print what an option of the format asks for. -/
def FinalMessage.printWhen (message : FinalMessage) (isPrinted : Bool)
    (printed : List UInt8) : Except Fault FinalMessage :=
  if isPrinted then message.print printed else .ok message

/-- Print the position in the source. -/
def FinalMessage.printPosition (message : FinalMessage) (format : YaLogFormat)
    (call : LogCall) : Except Fault FinalMessage :=
  match format.includeFileLine, call.file with
  | true, some file =>
      message.print
        (bracketed (file.text ++ literal ":" ++ signedDecimal call.line.toInt))
  | _, _ => .ok message

/-- The part of `ya_logger_log` that composes `final_message`. -/
def composeMessage (format : YaLogFormat) (call : LogCall) (text : List UInt8) :
    Except Fault FinalMessage := do
  let finalMessage : FinalMessage := { text := [], written := 0 }
  let finalMessage ← finalMessage.printWhen format.includeTimestamp
    (bracketed call.timestamp.text)
  let finalMessage ← finalMessage.printWhen format.includeLevel
    (bracketed (yaLoggerLevelName call.level))
  let finalMessage ← finalMessage.printPosition format call
  finalMessage.print
    (formatMessage text ++ if format.autoNewline then literal "\n" else [])

/-! ## Files -/

/-- The contents of the files, by their paths. -/
abbrev Files := List UInt8 → Option (List UInt8)

/-- A call that changes the files or ends the use of one. -/
inductive FileCall where
  | fopen (path : List UInt8)
  | fclose (path : List UInt8)
  | rename (oldName newName : List UInt8)
  /-- A stream hands bytes over to its file. -/
  | write (path bytes : List UInt8)
  deriving DecidableEq

/-- The files right after a call. -/
structure Moment where
  call : FileCall
  files : Files

/-- The files and all that happened to them, the latest first. -/
structure Disk where
  files : Files
  moments : List Moment

namespace Disk

/-- Change the files by a call. -/
def record (disk : Disk) (call : FileCall) (files : Files) : Disk where
  files := files
  moments := { call := call, files := files } :: disk.moments

/-- The files after `fopen` in the mode `a`. -/
def fopen (disk : Disk) (path : List UInt8) : Disk :=
  disk.record (.fopen path)
    (Function.update disk.files path (some ((disk.files path).getD [])))

/-- The files after `fclose`. -/
def fclose (disk : Disk) (path : List UInt8) : Disk :=
  disk.record (.fclose path) disk.files

/-- The files after `rename`, which replaces a file of the new name. -/
def rename (disk : Disk) (succeeds : Bool) (oldName newName : List UInt8) : Disk :=
  match succeeds, disk.files oldName with
  | true, some content =>
      disk.record (.rename oldName newName)
        (Function.update (Function.update disk.files oldName none) newName
          (some content))
  | _, _ => disk

/-- The files after bytes were appended to one. -/
def write (disk : Disk) (path bytes : List UInt8) : Disk :=
  disk.record (.write path bytes)
    (Function.update disk.files path
      (some ((disk.files path).getD [] ++ bytes)))

end Disk

/-- An open stream.  Its file is known by its path, since no file is renamed
while a stream is open on it. -/
structure Stream where
  path : List UInt8
  unbuffered : Bool
  pending : List UInt8

/-- `ya_logger_t`; a stream is known by the number of its opening. -/
structure YaLogger where
  config : YaLoggerConfig
  logFp : Option Nat
  lastError : Option (List UInt8)

inductive SyslogLevel where
  | debug | info | warning | err | crit
  deriving DecidableEq

/-- What the logger works on. -/
structure LogWorld where
  disk : Disk
  streams : Nat → Option Stream
  opened : Nat
  directories : List (List UInt8)
  /-- `g_logger`. -/
  logger : Option YaLogger
  console : List UInt8
  systemLog : List (SyslogLevel × List UInt8)

abbrev LogM := FaultM Fault LogWorld

def modifyDisk (update : Disk → Disk) : LogM Unit :=
  modifyState fun world => { world with disk := update world.disk }

def modifyLogger (update : YaLogger → YaLogger) : LogM Unit :=
  modifyState fun world => { world with logger := world.logger.map update }

def setStream (fp : Nat) (stream : Option Stream) : LogM Unit :=
  modifyState fun world =>
    { world with streams := Function.update world.streams fp stream }

/-- The stream behind a pointer. -/
def openStream (fp : Option Nat) : LogM (Nat × Stream) := do
  let world ← getState
  match fp with
  | none => fault .nullDereference
  | some fp =>
      match world.streams fp with
      | none => fault .useAfterFree
      | some stream => return (fp, stream)

/-- `stat`: the size of the file. -/
def stat (succeeds : Bool) (path : List UInt8) : LogM (Option Nat) := do
  let world ← getState
  return if succeeds then (world.disk.files path).map List.length else none

/-- `fopen(path, "a")`. -/
def fopen (succeeds : Bool) (path : List UInt8) : LogM (Option Nat) := do
  if succeeds then
    let world ← getState
    modifyDisk fun disk => disk.fopen path
    setStream world.opened
      (some { path := path, unbuffered := false, pending := [] })
    modifyState fun world => { world with opened := world.opened + 1 }
    return some world.opened
  else
    return none

/-- `fflush`. -/
def fflush (fp : Option Nat) : LogM Unit := do
  let (fp, stream) ← openStream fp
  if stream.pending = [] then
    return ()
  else
    modifyDisk fun disk => disk.write stream.path stream.pending
    setStream fp (some { stream with pending := [] })

/-- `fclose`. -/
def fclose (fp : Option Nat) : LogM Unit := do
  fflush fp
  let (fp, stream) ← openStream fp
  modifyDisk fun disk => disk.fclose stream.path
  setStream fp none

/-- `fputs`, and whether it does not return `EOF`.  A buffered stream keeps the
bytes until it is flushed. -/
def fputs (succeeds : Bool) (text : List UInt8) (fp : Option Nat) : LogM Bool := do
  let (fp, stream) ← openStream fp
  if !succeeds then
    return false
  else if stream.unbuffered then
    modifyDisk fun disk => disk.write stream.path text
    return true
  else
    setStream fp (some { stream with pending := stream.pending ++ text })
    return true

/-- `setvbuf(fp, NULL, _IONBF, 0)`. -/
def setUnbuffered (fp : Option Nat) : LogM Unit := do
  let (fp, stream) ← openStream fp
  setStream fp (some { stream with unbuffered := true })

/-! ## Rotation -/

/-- What the operating system answers while a message is logged. -/
structure LogOutcomes where
  stat : Bool
  rename : Nat → Bool
  fopen : Bool
  /-- The text of the error when `fputs` fails. -/
  fputs : Option (List UInt8)

/-- Every file operation succeeds. -/
def LogOutcomes.success : LogOutcomes where
  stat := true
  rename := fun _ => true
  fopen := true
  fputs := none

/-- `snprintf` into a name of 256 bytes. -/
def fileName (text : List UInt8) : List UInt8 :=
  text.take 255

/-- The name of the log file, or of a backup of it. -/
def logName (logFile : List UInt8) : Nat → List UInt8
  | 0 => fileName logFile
  | number + 1 => fileName (logFile ++ literal "." ++ decimal (number + 1))

/-- The loop of `check_and_rotate_log`, from `i = backups - 1` down to zero. -/
def renameBackups (outcomes : LogOutcomes) (logFile : List UInt8) :
    Nat → LogM Unit
  | 0 => return ()
  | i + 1 => do
      modifyDisk fun disk =>
        disk.rename (outcomes.rename i) (logName logFile i) (logName logFile (i + 1))
      renameBackups outcomes logFile i

/-- The part of `check_and_rotate_log` behind the check of the size. -/
def rotateLog (outcomes : LogOutcomes) (config : YaLoggerConfig)
    (logFile : List UInt8) (fp : Nat) : LogM Unit := do
  fclose (some fp)
  renameBackups outcomes logFile config.maxBackupFiles.toNat
  let reopened ← fopen outcomes.fopen logFile
  modifyLogger fun logger => { logger with logFp := reopened }

/-- `check_and_rotate_log`. -/
def checkAndRotateLog (outcomes : LogOutcomes) (logger : YaLogger) : LogM Unit :=
  match logger.config.logFile, logger.logFp with
  | some logFile, some fp => do
      match ← stat outcomes.stat logFile with
      | none => return ()
      | some size =>
          if size ≥ logger.config.maxFileSize then
            rotateLog outcomes logger.config logFile fp
          else
            return ()
  | _, _ => return ()

/-! ## Logging -/

/-- `write_to_system_log`. -/
def writeToSystemLog (level : UInt32) (message : List UInt8) : LogM Unit :=
  let syslogLevel : SyslogLevel :=
    if level = YA_LOG_LEVEL_TRACE ∨ level = YA_LOG_LEVEL_DEBUG then .debug
    else if level = YA_LOG_LEVEL_INFO then .info
    else if level = YA_LOG_LEVEL_WARN then .warning
    else if level = YA_LOG_LEVEL_ERROR then .err
    else if level = YA_LOG_LEVEL_FATAL then .crit
    else .info
  modifyState fun world =>
    { world with systemLog := (syslogLevel, message) :: world.systemLog }

/-- The stream of the logger. -/
def loggerFp : LogM (Option Nat) := do
  let world ← getState
  return world.logger.bind YaLogger.logFp

/-- Write a message to the stream of the logger and flush it. -/
def putMessage (outcomes : LogOutcomes) (finalMessage : List UInt8) : LogM Unit := do
  let fp ← loggerFp
  let success ← fputs outcomes.fputs.isNone finalMessage fp
  if !success then
    modifyLogger fun logger => { logger with lastError := outcomes.fputs }
  let fp ← loggerFp
  fflush fp

/-- Output to the console and to the system log, where the configuration asks
for it. -/
def logElsewhere (config : YaLoggerConfig) (level : UInt32)
    (finalMessage message : List UInt8) : LogM Unit := do
  if config.useConsole then
    modifyState fun world =>
      { world with console := world.console ++ finalMessage }
  if config.useSystemLog then
    writeToSystemLog level message

/-- `ya_logger_log` on the global logger. -/
def yaLoggerLog (debug : Bool) (outcomes : LogOutcomes) (call : LogCall) :
    LogM Unit := do
  let world ← getState
  match world.logger, call.format with
  | some logger, some text =>
      if call.level = YA_LOG_LEVEL_OFF ∨ call.level < logger.config.level then
        return ()
      else
        match composeMessage (gLogFormat debug) call text with
        | .error reason => fault reason
        | .ok finalMessage => do
            if logger.logFp.isSome then
              checkAndRotateLog outcomes logger
              putMessage outcomes finalMessage.text
            logElsewhere logger.config call.level finalMessage.text
              (formatMessage text)
  | _, _ => return ()

/-! ## The life of a logger -/

/-- What the system answers to `ya_logger_init`. -/
structure InitOutcomes where
  malloc : Bool
  fopen : Bool

/-- The path up to its last slash, if there is one. -/
def directoryOf (path : List UInt8) : Option (List UInt8) :=
  if byteOfChar '/' ∈ path then
    some ((path.reverse.dropWhile (· ≠ byteOfChar '/')).drop 1).reverse
  else
    none

/-- Make the directory of the log file. -/
def makeLogDirectory (logFile : List UInt8) : LogM Unit :=
  match directoryOf logFile with
  | none => return ()
  | some directory =>
      if directory.length < 256 then
        modifyState fun world =>
          { world with directories := directory :: world.directories }
      else
        return ()

/-- `ya_logger_init`, and whether a logger is returned. -/
def yaLoggerInit (outcomes : InitOutcomes) (config : Option YaLoggerConfig) :
    LogM Bool :=
  match config with
  | none => return false
  | some config =>
      if !outcomes.malloc then
        return false
      else
        match config.logFile with
        | none => do
            modifyState fun world =>
              { world with
                logger :=
                  some { config := config, logFp := none, lastError := none } }
            return true
        | some logFile => do
            makeLogDirectory logFile
            let fp ← fopen outcomes.fopen logFile
            if fp.isNone then
              return false
            else
              setUnbuffered fp
              modifyState fun world =>
                { world with
                  logger :=
                    some { config := config, logFp := fp, lastError := none } }
              return true

end MouseHero
