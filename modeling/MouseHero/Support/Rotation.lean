import MouseHero.Library.RollingSlots
import MouseHero.Support.LogSteps

/-!
# Log rotation

The log file and its backups are rolling slots: slot zero is the log file, and
slot `i` the backup with the number `i`.  At every moment of a run they hold an
end of all that was written, in order.
-/

namespace MouseHero

open FaultM Numerals RollingSlots

/-! ## Names -/

/-- The names of the log file and its backups fit into the arrays for them. -/
def NamesFit (logFile : List UInt8) (backups : Nat) : Prop :=
  logFile.length + 1 + (decimal backups).length < 256

section Names

variable {logFile : List UInt8} {backups number other : Nat}

theorem fileName_of_short {text : List UInt8} (short : text.length < 256) :
    fileName text = text :=
  List.take_of_length_le (Nat.le_of_lt_succ short)

theorem logName_zero (fit : NamesFit logFile backups) : logName logFile 0 = logFile :=
  fileName_of_short (by rw [NamesFit] at fit; omega)

private theorem logName_succ (fit : NamesFit logFile backups) (inside : number + 1 ≤ backups) :
    logName logFile (number + 1) =
      logFile ++ (literal "." ++ decimal (number + 1)) := by
  have dot : (literal ".").length = 1 := by decide
  have shorter := length_decimal_mono inside
  rw [NamesFit] at fit
  rw [logName, fileName_of_short, List.append_assoc]
  rw [List.length_append, List.length_append, dot]
  omega

private theorem logName_injective (fit : NamesFit logFile backups) (inside : number ≤ backups)
    (otherInside : other ≤ backups)
    (same : logName logFile number = logName logFile other) : number = other := by
  have notEmpty : ∀ digits, literal "." ++ digits ≠ [] := by
    intro digits empty
    have dot : literal "." ≠ [] := by decide
    exact dot (List.append_eq_nil_iff.mp empty).1
  cases number with
  | zero =>
      cases other with
      | zero => rfl
      | succ other =>
          rw [logName_zero fit, logName_succ fit otherInside] at same
          exact absurd (List.self_eq_append_right.mp same) (notEmpty _)
  | succ number =>
      cases other with
      | zero =>
          rw [logName_zero fit, logName_succ fit inside] at same
          exact absurd (List.self_eq_append_right.mp same.symm) (notEmpty _)
      | succ other =>
          rw [logName_succ fit inside, logName_succ fit otherInside] at same
          have suffixes := List.append_cancel_left (List.append_cancel_left same)
          exact decimal_injective suffixes

end Names

/-! ## Files as slots -/

/-- The contents of the log file and its backups. -/
def slotsOf (logFile : List UInt8) (backups : Nat) (files : Files) :
    Slots UInt8 :=
  fun number => if number ≤ backups then files (logName logFile number) else none

/-- The contents of `file.B`, …, `file.1`, `file` one after another. -/
def logHistory (logFile : List UInt8) (backups : Nat) (files : Files) : List UInt8 :=
  joined (slotsOf logFile backups files) (backups + 1)

/-- How often a file was closed to be rotated. -/
def rotations : List Moment → Nat
  | [] => 0
  | moment :: past =>
      match moment.call with
      | .fclose _ => rotations past + 1
      | _ => rotations past

section Slots

variable {logFile : List UInt8} {backups number : Nat} {files : Files}

theorem slotsOf_of_le (inside : number ≤ backups) :
    slotsOf logFile backups files number = files (logName logFile number) :=
  if_pos inside

theorem slotsOf_update (fit : NamesFit logFile backups) (inside : number ≤ backups)
    (content : Option (List UInt8)) :
    slotsOf logFile backups
        (Function.update files (logName logFile number) content) =
      Function.update (slotsOf logFile backups files) number content := by
  funext index
  rw [slotsOf, Function.update_apply, Function.update_apply]
  by_cases isIndex : index = number
  · subst isIndex
    rw [if_pos inside, if_pos rfl, if_pos rfl]
  · rw [if_neg isIndex]
    by_cases indexInside : index ≤ backups
    · have differs : logName logFile index ≠ logName logFile number :=
        fun same => isIndex (logName_injective fit indexInside inside same)
      rw [if_pos indexInside, if_neg differs, slotsOf_of_le indexInside]
    · rw [if_neg indexInside, slotsOf, if_neg indexInside]

theorem slotsOf_rename (fit : NamesFit logFile backups)
    (inside : number + 1 ≤ backups) (disk : Disk) :
    slotsOf logFile backups
        (disk.rename true (logName logFile number)
          (logName logFile (number + 1))).files =
      shift (slotsOf logFile backups disk.files) number := by
  have slot : slotsOf logFile backups disk.files number =
      disk.files (logName logFile number) := slotsOf_of_le (by omega)
  cases found : disk.files (logName logFile number) with
  | none =>
      rw [shift_of_empty (slot.trans found)]
      simp only [Disk.rename, found]
  | some content =>
      rw [shift_of_some (slot.trans found)]
      simp only [Disk.rename, found, Disk.record]
      rw [slotsOf_update fit inside, slotsOf_update fit (by omega)]

private theorem slotsOf_append (fit : NamesFit logFile backups) (files : Files)
    (text : List UInt8) :
    slotsOf logFile backups
        (Function.update files logFile
          (some ((files logFile).getD [] ++ text))) =
      append (slotsOf logFile backups files) text := by
  have name := logName_zero fit
  have update := @slotsOf_update logFile backups 0 files fit (Nat.zero_le _)
  rw [name] at update
  rw [update, append, slotsOf_of_le (Nat.zero_le _), name]

end Slots

/-! ## What holds at every moment -/

/-- What the files are at a moment, after all that was done up to it. -/
structure Kept (config : YaLoggerConfig) (logFile : List UInt8) (backups : Nat)
    (past : List Moment) (files : Files) : Prop where
  holds : Holds (slotsOf logFile backups files) (backups + 1) (written past).flatten
    (rotations past < backups + 1)
  named : ∀ path content, files path = some content →
    ∃ number ≤ backups, path = logName logFile number
  sized : ∀ path content, files path = some content →
    content.length < max config.maxFileSize 1 ∨
      ∃ text ∈ written past,
        content.length < max config.maxFileSize 1 + text.length

/-- All moments that are recorded are kept. -/
def AlwaysKept (config : YaLoggerConfig) (logFile : List UInt8) (backups : Nat)
    (moments : List Moment) : Prop :=
  ∀ moment past, moment :: past <:+ moments →
    Kept config logFile backups (moment :: past) moment.files

/-- The files between two messages. -/
structure Rolling (config : YaLoggerConfig) (logFile : List UInt8) (backups : Nat)
    (disk : Disk) : Prop where
  always : AlwaysKept config logFile backups disk.moments
  now : Kept config logFile backups disk.moments disk.files
  unused : ∀ number, rotations disk.moments < number →
    slotsOf logFile backups disk.files number = none

/-- The files in the middle of a rotation, when the names below `next` are still to
be changed. -/
structure Turning (config : YaLoggerConfig) (logFile : List UInt8) (backups : Nat)
    (depth next : Nat) (disk : Disk) : Prop where
  always : AlwaysKept config logFile backups disk.moments
  now : Kept config logFile backups disk.moments disk.files
  counted : rotations disk.moments = depth + 1
  shifting : Shifting (slotsOf logFile backups disk.files) (backups + 1)
    (written disk.moments).flatten depth next

section Moments

variable {config : YaLoggerConfig} {logFile : List UInt8} {backups depth next : Nat}
variable {disk : Disk}

theorem AlwaysKept.record {call : FileCall} {files : Files}
    (always : AlwaysKept config logFile backups disk.moments)
    (kept : Kept config logFile backups
      ({ call := call, files := files } :: disk.moments) files) :
    AlwaysKept config logFile backups (disk.record call files).moments := by
  intro moment past isPast
  rcases List.suffix_cons_iff.mp isPast with isLast | isEarlier
  · cases isLast
    exact kept
  · exact always moment past isEarlier

theorem rolling_of_empty (config : YaLoggerConfig) (logFile : List UInt8)
    (backups : Nat) :
    Rolling config logFile backups { files := fun _ => none, moments := [] } := by
  have empty : slotsOf logFile backups (fun _ => none) = fun _ => none := by
    funext number
    exact ite_self _
  have nothing : ∀ count, joined (fun _ => none : Slots UInt8) count = [] := by
    intro count
    induction count with
    | zero => rfl
    | succ count inductionHypothesis => exact inductionHypothesis
  refine ⟨fun moment past isPast => ?_, ⟨?_, fun _ _ found => ?_, fun _ _ found => ?_⟩,
    fun number _ => ?_⟩
  · exact absurd (List.suffix_nil.mp isPast) (List.cons_ne_nil _ _)
  · rw [empty]
    exact ⟨nothing _ ▸ List.suffix_rfl, fun _ => nothing _⟩
  · cases found
  · cases found
  · rw [empty]

/-- A call that appends to the log file, and to the texts that were written. -/
theorem Rolling.grow {call : FileCall} {text : List UInt8} {files : Files}
    {added : List (List UInt8)} (fit : NamesFit logFile backups)
    (rolling : Rolling config logFile backups disk)
    (appends : files =
      Function.update disk.files logFile
        (some ((disk.files logFile).getD [] ++ text)))
    (writes : written ({ call := call, files := files } :: disk.moments) =
      written disk.moments ++ added)
    (isText : added.flatten = text)
    (stays : rotations ({ call := call, files := files } :: disk.moments) =
      rotations disk.moments)
    (sized : ((disk.files logFile).getD [] ++ text).length < max config.maxFileSize 1 ∨
      ∃ other ∈ written disk.moments ++ added,
        ((disk.files logFile).getD [] ++ text).length <
          max config.maxFileSize 1 + other.length) :
    Rolling config logFile backups (disk.record call files) := by
  have slots : slotsOf logFile backups files =
      append (slotsOf logFile backups disk.files) text := by
    rw [appends, slotsOf_append fit]
  have kept : Kept config logFile backups
      ({ call := call, files := files } :: disk.moments) files := by
    refine ⟨?_, ?_, ?_⟩
    · rw [slots, writes, List.flatten_append, isText, stays]
      exact rolling.now.holds.append (Nat.succ_pos backups)
    · intro path content found
      by_cases isLog : path = logFile
      · exact ⟨0, Nat.zero_le _, isLog.trans (logName_zero fit).symm⟩
      · rw [appends, Function.update_of_ne isLog] at found
        exact rolling.now.named path content found
    · intro path content found
      rw [writes]
      by_cases isLog : path = logFile
      · rw [appends, isLog, Function.update_self] at found
        cases found
        exact sized
      · rw [appends, Function.update_of_ne isLog] at found
        refine (rolling.now.sized path content found).imp_right ?_
        intro earlier
        obtain ⟨other, member, less⟩ := earlier
        exact ⟨other, List.mem_append_left _ member, less⟩
  refine ⟨rolling.always.record kept, kept, ?_⟩
  intro number isDeep
  have deep : rotations disk.moments < number := stays ▸ isDeep
  have positive : number ≠ 0 := Nat.ne_of_gt (Nat.zero_lt_of_lt deep)
  exact (congrFun slots number).trans
    ((Function.update_of_ne positive ..).trans (rolling.unused number deep))

theorem Rolling.write {text : List UInt8} (fit : NamesFit logFile backups)
    (rolling : Rolling config logFile backups disk)
    (small : ((disk.files logFile).getD []).length < max config.maxFileSize 1) :
    Rolling config logFile backups (disk.write logFile text) := by
  have isText : [text].flatten = text := List.append_nil text
  apply rolling.grow fit rfl rfl isText rfl
  refine Or.inr ⟨text, List.mem_append_right _ (List.mem_singleton_self _), ?_⟩
  rw [List.length_append]
  omega

theorem Rolling.fopen (fit : NamesFit logFile backups)
    (rolling : Rolling config logFile backups disk) :
    Rolling config logFile backups (disk.fopen logFile) := by
  have same : (disk.files logFile).getD [] ++ [] = (disk.files logFile).getD [] :=
    List.append_nil _
  have wrote : written (disk.fopen logFile).moments =
      written disk.moments ++ [] :=
    (List.append_nil _).symm
  apply rolling.grow fit (by rw [same]) wrote List.flatten_nil rfl
  rw [same, List.append_nil]
  cases before : disk.files logFile with
  | none => exact Or.inl (Nat.lt_of_lt_of_le Nat.one_pos (Nat.le_max_right _ _))
  | some content => exact rolling.now.sized logFile content before

theorem Rolling.fclose (rolling : Rolling config logFile backups disk) :
    Turning config logFile backups (rotations disk.moments) backups
      (disk.fclose logFile) := by
  have shifting := Shifting.start rolling.now.holds rolling.unused
  have kept : Kept config logFile backups (disk.fclose logFile).moments
      disk.files :=
    ⟨shifting.holds, rolling.now.named, rolling.now.sized⟩
  exact ⟨rolling.always.record kept, kept, rfl, shifting⟩

private theorem exists_of_rename {oldName newName path content : List UInt8}
    (found : (disk.rename true oldName newName).files path = some content) :
    (path = newName ∧ disk.files oldName = some content) ∨
      disk.files path = some content := by
  cases moved : disk.files oldName with
  | none =>
      simp only [Disk.rename, moved] at found
      exact Or.inr found
  | some movedContent =>
      simp only [Disk.rename, moved, Disk.record, Function.update_apply] at found
      split at found
      · exact Or.inl ⟨‹_›, found⟩
      · split at found
        · cases found
        · exact Or.inr found

theorem Turning.rename (fit : NamesFit logFile backups) (inside : next + 1 ≤ backups)
    (turning : Turning config logFile backups depth (next + 1) disk) :
    Turning config logFile backups depth next
      (disk.rename true (logName logFile next) (logName logFile (next + 1))) := by
  have slots := slotsOf_rename fit inside disk
  have shifting := turning.shifting.shift (by omega)
  cases moved : disk.files (logName logFile next) with
  | none =>
      -- There is no such file, and nothing happens.
      have same : disk.rename true (logName logFile next) (logName logFile (next + 1)) =
          disk := by
        simp only [Disk.rename, moved]
      rw [same] at slots ⊢
      rw [← slots] at shifting
      exact ⟨turning.always, turning.now, turning.counted, shifting⟩
  | some content =>
      obtain ⟨files, renamed⟩ : ∃ files,
          disk.rename true (logName logFile next) (logName logFile (next + 1)) =
            disk.record (.rename (logName logFile next) (logName logFile (next + 1)))
              files := by
        simp only [Disk.rename, moved]
        exact ⟨_, rfl⟩
      have before : ∀ path content, files path = some content →
          (path = logName logFile (next + 1) ∧
              disk.files (logName logFile next) = some content) ∨
            disk.files path = some content := by
        intro path content found
        apply exists_of_rename
        rw [renamed]
        exact found
      rw [renamed] at slots ⊢
      rw [← slots] at shifting
      have kept : Kept config logFile backups
          (disk.record (.rename (logName logFile next) (logName logFile (next + 1)))
            files).moments files := by
        refine ⟨?_, ?_, ?_⟩
        · apply shifting.holds.weaken
          intro notDropped
          exact turning.counted ▸ notDropped
        · intro path content found
          rcases before path content found with ⟨isNew, _⟩ | isOld
          · exact ⟨next + 1, inside, isNew⟩
          · exact turning.now.named path content isOld
        · intro path content found
          rcases before path content found with ⟨_, isMoved⟩ | isOld
          · exact turning.now.sized _ content isMoved
          · exact turning.now.sized path content isOld
      exact ⟨turning.always.record kept, kept, turning.counted, shifting⟩

theorem Turning.renameBackups (fit : NamesFit logFile backups) (inside : next ≤ backups)
    (turning : Turning config logFile backups depth next disk) :
    Turning config logFile backups depth 0
      (disk.renameBackups .success logFile next) := by
  induction next generalizing disk with
  | zero => exact turning
  | succ next inductionHypothesis =>
      exact inductionHypothesis (by omega) (turning.rename fit inside)

theorem Turning.finish (turning : Turning config logFile backups depth 0 disk) :
    Rolling config logFile backups disk where
  always := turning.always
  now := turning.now
  unused := by
    intro number isDeep
    rw [turning.counted] at isDeep
    exact turning.shifting.unused number isDeep

theorem Turning.log_eq_none (fit : NamesFit logFile backups) (positive : 0 < backups)
    (turning : Turning config logFile backups depth 0 disk) :
    disk.files logFile = none := by
  rcases turning.shifting.free with isFree | ⟨isLast, _⟩
  · rwa [slotsOf_of_le (Nat.zero_le _), logName_zero fit] at isFree
  · omega

/-- The files when a message is about to be written: they are as good as before, and
the log file is not full. -/
theorem Rolling.beforeWrite (fit : NamesFit logFile config.maxBackupFiles.toNat)
    (positive : 0 < config.maxBackupFiles.toNat)
    (rolling : Rolling config logFile config.maxBackupFiles.toNat disk) :
    Rolling config logFile config.maxBackupFiles.toNat
        (disk.beforeWrite .success config logFile) ∧
      (((disk.beforeWrite .success config logFile).files logFile).getD []).length <
        max config.maxFileSize 1 := by
  cases full : disk.isFull config logFile with
  | false =>
      have same : disk.beforeWrite .success config logFile = disk := by
        rw [Disk.beforeWrite, full]
        rfl
      rw [same]
      refine ⟨rolling, ?_⟩
      cases found : disk.files logFile with
      | none => exact Nat.lt_of_lt_of_le Nat.one_pos (Nat.le_max_right _ _)
      | some content =>
          have small : content.length < config.maxFileSize := by
            simpa [Disk.isFull, found] using full
          exact Nat.lt_of_lt_of_le small (Nat.le_max_left _ _)
  | true =>
      have turned := rolling.fclose.renameBackups fit (Nat.le_refl _)
      have rotated : disk.beforeWrite .success config logFile =
          (disk.shifted .success config logFile).fopen logFile := by
        rw [Disk.beforeWrite, full]
        rfl
      rw [rotated]
      refine ⟨turned.finish.fopen fit, ?_⟩
      have gone : (disk.shifted .success config logFile).files logFile = none :=
        turned.log_eq_none fit positive
      have empty : ((disk.shifted .success config logFile).fopen logFile).files logFile =
          some [] := by
        simp [Disk.fopen, Disk.record, gone]
      rw [empty]
      exact Nat.lt_of_lt_of_le Nat.one_pos (Nat.le_max_right _ _)

theorem Rolling.logged {text : List UInt8}
    (fit : NamesFit logFile config.maxBackupFiles.toNat)
    (positive : 0 < config.maxBackupFiles.toNat)
    (rolling : Rolling config logFile config.maxBackupFiles.toNat disk) :
    Rolling config logFile config.maxBackupFiles.toNat
      (disk.logged .success config logFile text) := by
  obtain ⟨before, small⟩ := rolling.beforeWrite fit positive
  exact before.write fit small

end Moments

/-! ## Whole runs -/

section Runs

variable {debug : Bool} {config : YaLoggerConfig} {logFile : List UInt8}
variable {world : LogWorld}

/-- From a logger that is open on its file, all messages are written one after
another, and the files stay as they should be. -/
theorem logMessages_rolling (isFile : config.logFile = some logFile)
    (fit : NamesFit logFile config.maxBackupFiles.toNat)
    (positive : 0 < config.maxBackupFiles.toNat) (calls : List LogCall)
    (isOpen : OpenOn config logFile world)
    (rolling : Rolling config logFile config.maxBackupFiles.toNat world.disk) :
    ∃ reached,
      logMessages debug (calls.map fun call => (.success, call)) world =
        (.ok (), reached) ∧
      Rolling config logFile config.maxBackupFiles.toNat reached.disk ∧
      written reached.disk.moments =
        written world.disk.moments ++ calls.filterMap (messageOf debug config) := by
  induction calls generalizing world with
  | nil => exact ⟨world, rfl, rolling, (List.append_nil _).symm⟩
  | cons call calls inductionHypothesis =>
      cases isMessage : messageOf debug config call with
      | none =>
          obtain ⟨logger, _, _, isLogger, hasConfig, _, _⟩ := id isOpen
          have silent : yaLoggerLog debug .success call world = (.ok (), world) :=
            yaLoggerLog_of_filtered isLogger (hasConfig ▸ isMessage)
          obtain ⟨reached, runs, stays, all⟩ := inductionHypothesis isOpen rolling
          refine ⟨reached, (bind_of_ok silent).trans runs, stays, ?_⟩
          rw [all, List.filterMap_cons_none isMessage]
      | some text =>
          obtain ⟨after, logs, afterOpen, afterDisk⟩ :=
            @yaLoggerLog_of_open _ _ _ .success _ _ _ isFile isOpen isMessage
              fun _ => rfl
          have afterRolling := @Rolling.logged _ _ _ text fit positive rolling
          rw [← afterDisk] at afterRolling
          obtain ⟨reached, runs, stays, all⟩ :=
            inductionHypothesis afterOpen afterRolling
          refine ⟨reached, (bind_of_ok logs).trans runs, stays, ?_⟩
          rw [all, afterDisk, written_logged, List.filterMap_cons_some isMessage,
            List.append_assoc]
          rfl

/-- The log file and its backups keep the newest history in order. -/
theorem log_keeps_newest_history (debug : Bool) (config : YaLoggerConfig)
    (logFile : List UInt8) (isFile : config.logFile = some logFile)
    (positive : 1 ≤ config.maxBackupFiles)
    (fit : NamesFit logFile config.maxBackupFiles.toNat) (calls : List LogCall) :
    ∃ world,
      (do
        let _ ← yaLoggerInit { malloc := true, fopen := true } (some config)
        logMessages debug (calls.map fun call => (.success, call))) noFiles =
        (.ok (), world) ∧
      written world.disk.moments = calls.filterMap (messageOf debug config) ∧
      ∀ moment past, moment :: past <:+ world.disk.moments →
        logHistory logFile config.maxBackupFiles.toNat moment.files <:+
          (written (moment :: past)).flatten ∧
        (rotations (moment :: past) ≤ config.maxBackupFiles.toNat →
          logHistory logFile config.maxBackupFiles.toNat moment.files =
            (written (moment :: past)).flatten) ∧
        ∀ path content, moment.files path = some content →
          (∃ number ≤ config.maxBackupFiles.toNat, path = logName logFile number) ∧
          (content.length < max config.maxFileSize 1 ∨
            ∃ text ∈ written (moment :: past),
              content.length < max config.maxFileSize 1 + text.length) := by
  have backups : 0 < config.maxBackupFiles.toNat := by omega
  obtain ⟨opened, opens, isOpen, openedDisk⟩ := yaLoggerInit_opens isFile noFiles
  have rolling : Rolling config logFile config.maxBackupFiles.toNat opened.disk := by
    rw [openedDisk]
    exact (rolling_of_empty config logFile _).fopen fit
  obtain ⟨world, runs, stays, all⟩ :=
    @logMessages_rolling debug _ _ _ isFile fit backups calls isOpen rolling
  refine ⟨world, (bind_of_ok opens).trans runs, ?_, ?_⟩
  · rw [all, openedDisk]
    rfl
  · intro moment past isPast
    have kept := stays.always moment past isPast
    exact ⟨kept.holds.isSuffix, fun few => kept.holds.isWhole (Nat.lt_succ_of_le few),
      fun path content found =>
        ⟨kept.named path content found, kept.sized path content found⟩⟩

/-- Two messages, the second one after a rotation. -/
theorem log_keeps_newest_history_small :
    ∃ world,
      (do
        let _ ← yaLoggerInit { malloc := true, fopen := true } (some smallLog)
        logMessages false
          ([smallCall, smallCall].map fun call => (.success, call))) noFiles =
        (.ok (), world) ∧
      ∀ moment past, moment :: past <:+ world.disk.moments →
        logHistory [108] 1 moment.files <:+ (written (moment :: past)).flatten := by
  obtain ⟨world, runs, _, always⟩ :=
    log_keeps_newest_history false smallLog [108] rfl (by decide)
      (by unfold NamesFit; decide) [smallCall, smallCall]
  exact ⟨world, runs, fun moment past isPast => (always moment past isPast).1⟩

end Runs

end MouseHero
