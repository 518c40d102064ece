import MouseHero.Config.Store
import MouseHero.Library.BoundedHistory

/-!
# The error stack

`ya_error.c` on one thread.  The context that is allocated on demand keeps the
errors in an array of a fixed size, and the array is a bounded history of the
errors that were set.
-/

namespace MouseHero

open BoundedHistory

/-! ## The context of a thread -/

abbrev YA_OK : Int32 := 0

abbrev YA_ERR_UNKNOWN : Int32 := -1

abbrev YA_ERROR_STACK_SIZE : Nat := 64

/-- `ya_error_info_t`. -/
structure YaErrorInfo where
  code : Int32
  message : CharArray 256
  file : CharArray 256
  line : Int32
  function : CharArray 64
  deriving DecidableEq

/-- `ya_error_context_t`. -/
structure YaErrorContext where
  stack : Vector YaErrorInfo YA_ERROR_STACK_SIZE
  stackSize : Nat
  lastError : Int32
  inArray : stackSize ≤ YA_ERROR_STACK_SIZE

/-- The arguments of `ya_error_set`. -/
structure ErrorCall where
  code : Int32
  message : Option (List UInt8)
  file : Option (List UInt8)
  line : Int32
  function : Option (List UInt8)

/-- What is handed to the logger. -/
inductive ErrorLog where
  | allocationFailed
  | occurred (error : ErrorCall)

/-- What one thread sees: its `error_context` and the logger. -/
structure ErrorThread where
  context : Option YaErrorContext
  logged : List ErrorLog

/-- A thread that starts. -/
def ErrorThread.start : ErrorThread where
  context := none
  logged := []

/-! ## The functions -/

/-- An entry that is zeroed. -/
def YaErrorInfo.zero : YaErrorInfo where
  code := 0
  message := safeStrncpy []
  file := safeStrncpy []
  line := 0
  function := safeStrncpy []

/-- The context that `calloc` returns. -/
def YaErrorContext.zero : YaErrorContext where
  stack := Vector.replicate YA_ERROR_STACK_SIZE .zero
  stackSize := 0
  lastError := 0
  inArray := Nat.zero_le _

/-- `ya_error_init`. -/
def yaErrorInit (allocates : Bool) (thread : ErrorThread) : ErrorThread :=
  match thread.context with
  | some _ => thread
  | none =>
      if allocates then { thread with context := some .zero }
      else { thread with logged := .allocationFailed :: thread.logged }

/-- `ya_error_cleanup`. -/
def yaErrorCleanup (thread : ErrorThread) : ErrorThread :=
  { thread with context := none }

/-- `memmove` of all entries but the first one to the front of the array. -/
def moveToFront (stack : Vector YaErrorInfo YA_ERROR_STACK_SIZE) :
    Vector YaErrorInfo YA_ERROR_STACK_SIZE :=
  Vector.ofFn fun index =>
    if inside : index.val + 1 < YA_ERROR_STACK_SIZE then stack[index.val + 1]
    else stack[index]

/-- The context after the oldest error has made room, if that was necessary. -/
def makeRoom (context : YaErrorContext) :
    { context : YaErrorContext // context.stackSize < YA_ERROR_STACK_SIZE } :=
  if full : context.stackSize ≥ YA_ERROR_STACK_SIZE then
    ⟨{ context with
        stack := moveToFront context.stack
        stackSize := YA_ERROR_STACK_SIZE - 1
        inArray := Nat.sub_le .. },
      Nat.sub_lt (Nat.succ_pos 63) Nat.one_pos⟩
  else
    ⟨context, Nat.lt_of_not_le full⟩

/-- The entry for an error.  A null pointer stands for the empty string, and
`strncpy` is followed by a NUL in the last byte. -/
def ErrorCall.info (error : ErrorCall) : YaErrorInfo where
  code := error.code
  message := safeStrncpy (error.message.getD [])
  file := safeStrncpy (error.file.getD [])
  line := error.line
  function := safeStrncpy (error.function.getD [])

/-- The part of `ya_error_set` behind the allocation. -/
def pushError (context : YaErrorContext) (error : ErrorCall) : YaErrorContext :=
  let room := makeRoom { context with lastError := error.code }
  { room.val with
    stack := room.val.stack.set room.val.stackSize error.info room.property
    stackSize := room.val.stackSize + 1
    inArray := room.property }

/-- `ya_error_set`. -/
def yaErrorSet (allocates : Bool) (error : ErrorCall) (thread : ErrorThread) :
    ErrorThread :=
  let ready := yaErrorInit allocates thread
  match ready.context with
  | none => ready
  | some context =>
      { context := some (pushError context error)
        logged := .occurred error :: ready.logged }

/-- `ya_error_get_last`. -/
def yaErrorGetLast (thread : ErrorThread) : Int32 :=
  match thread.context with
  | some context => context.lastError
  | none => YA_ERR_UNKNOWN

/-- `ya_error_get_stack`: the array, if it is not null, and the size, if there is a
pointer for it. -/
def yaErrorGetStack (hasSize : Bool) (thread : ErrorThread) :
    Option (Vector YaErrorInfo YA_ERROR_STACK_SIZE) × Option Nat :=
  match thread.context, hasSize with
  | some context, true => (some context.stack, some context.stackSize)
  | none, true => (none, some 0)
  | _, false => (none, none)

/-- `ya_error_clear`. -/
def yaErrorClear (thread : ErrorThread) : ErrorThread :=
  match thread.context with
  | none => thread
  | some context =>
      { thread with
        context :=
          some
            { context with
              stackSize := 0
              lastError := YA_OK
              inArray := Nat.zero_le _ } }

/-! ## Runs -/

/-- A call that changes the context. -/
inductive ErrorOp where
  | set (error : ErrorCall)
  | clear
  | init
  | cleanup

/-- One call, with what `calloc` answers. -/
def ErrorOp.run (allocates : Bool) (thread : ErrorThread) : ErrorOp → ErrorThread
  | .set error => yaErrorSet allocates error thread
  | .clear => yaErrorClear thread
  | .init => yaErrorInit allocates thread
  | .cleanup => yaErrorCleanup thread

/-- The calls of a thread one after another, while allocation succeeds. -/
def runErrors (ops : List ErrorOp) : ErrorThread :=
  ops.foldl (ErrorOp.run true) .start

/-! ## The specification -/

/-- A call that empties the stack. -/
def ErrorOp.resets : ErrorOp → Bool
  | .clear => true
  | .cleanup => true
  | _ => false

/-- The error that a call sets. -/
def ErrorOp.error : ErrorOp → Option ErrorCall
  | .set error => some error
  | _ => none

/-- The errors set since the most recent clear or cleanup, the oldest first. -/
def errorsSinceReset (ops : List ErrorOp) : List ErrorCall :=
  (ops.rtakeWhile fun op => !op.resets).filterMap ErrorOp.error

/-- A call that leaves a context behind. -/
def ErrorOp.allocates : ErrorOp → Bool
  | .set _ => true
  | .init => true
  | _ => false

/-- A call that frees the context. -/
def ErrorOp.frees : ErrorOp → Bool
  | .cleanup => true
  | _ => false

/-- Whether a context was allocated since the most recent cleanup. -/
def contextAllocated (ops : List ErrorOp) : Bool :=
  (ops.rtakeWhile fun op => !op.frees).any ErrorOp.allocates

/-- What a reader of an entry sees. -/
structure ErrorRecord where
  code : Int32
  message : List UInt8
  file : List UInt8
  line : Int32
  function : List UInt8
  deriving DecidableEq

/-- An error as it should be read back: its strings are cut to 255, 255 and 63
bytes. -/
def ErrorCall.record (error : ErrorCall) : ErrorRecord where
  code := error.code
  message := (cString (error.message.getD [])).take 255
  file := (cString (error.file.getD [])).take 255
  line := error.line
  function := (cString (error.function.getD [])).take 63

/-- What is read from an entry. -/
def YaErrorInfo.record (info : YaErrorInfo) : ErrorRecord where
  code := info.code
  message := info.message.text
  file := info.file.text
  line := info.line
  function := info.function.text

/-- The entries that `ya_error_get_stack` gives access to. -/
def stackEntries (thread : ErrorThread) : List YaErrorInfo :=
  match yaErrorGetStack true thread with
  | (some stack, some size) => stack.toList.take size
  | _ => []

theorem record_info (error : ErrorCall) : error.info.record = error.record :=
  rfl

/-! ## The array is a bounded history -/

/-- The entries in use. -/
def YaErrorContext.entries (context : YaErrorContext) : List YaErrorInfo :=
  context.stack.toList.take context.stackSize

theorem YaErrorContext.length_entries (context : YaErrorContext) :
    context.entries.length = context.stackSize := by
  rw [entries, List.length_take, Vector.length_toList]
  exact Nat.min_eq_left context.inArray

private theorem take_toList_moveToFront
    (stack : Vector YaErrorInfo YA_ERROR_STACK_SIZE) :
    (moveToFront stack).toList.take (YA_ERROR_STACK_SIZE - 1) = stack.toList.tail := by
  apply List.ext_getElem
  · rw [List.length_take, List.length_tail, Vector.length_toList, Vector.length_toList]
    rfl
  · intro index first second
    have inside : index + 1 < YA_ERROR_STACK_SIZE := by
      rw [List.length_tail, Vector.length_toList] at second
      exact Nat.add_lt_of_lt_sub second
    simp [moveToFront, inside]

private theorem entries_makeRoom (context : YaErrorContext) :
    (makeRoom context).val.entries =
      if context.entries.length < YA_ERROR_STACK_SIZE then context.entries
      else context.entries.tail := by
  rw [context.length_entries, makeRoom]
  by_cases full : context.stackSize ≥ YA_ERROR_STACK_SIZE
  · have isSize : context.stackSize = YA_ERROR_STACK_SIZE :=
      Nat.le_antisymm context.inArray full
    have all : context.entries = context.stack.toList := by
      rw [YaErrorContext.entries, isSize]
      exact List.take_of_length_le (Nat.le_of_eq context.stack.length_toList)
    rw [dif_pos full, if_neg (Nat.not_lt_of_le full), all]
    exact take_toList_moveToFront context.stack
  · rw [dif_neg full, if_pos (Nat.lt_of_not_le full)]

private theorem take_set_next {entries : List YaErrorInfo} {size : Nat} (info : YaErrorInfo)
    (inside : size < entries.length) :
    (entries.set size info).take (size + 1) = entries.take size ++ [info] := by
  rw [List.take_add_one, List.take_set_of_le (Nat.le_refl size),
    List.getElem?_set_self inside]
  rfl

private theorem entries_pushError (context : YaErrorContext) (error : ErrorCall) :
    (pushError context error).entries =
      push YA_ERROR_STACK_SIZE context.entries error.info := by
  have room : (makeRoom { context with lastError := error.code }).val.entries =
      if context.entries.length < YA_ERROR_STACK_SIZE then context.entries
      else context.entries.tail :=
    entries_makeRoom _
  have added : (pushError context error).entries =
      (makeRoom { context with lastError := error.code }).val.entries ++
        [error.info] := by
    simp only [pushError, YaErrorContext.entries, Vector.toList_set]
    apply take_set_next
    rw [Vector.length_toList]
    exact (makeRoom { context with lastError := error.code }).property
  rw [added, room, push]
  exact apply_ite (· ++ [error.info]) ..

private theorem lastError_pushError (context : YaErrorContext) (error : ErrorCall) :
    (pushError context error).lastError = error.code := by
  simp only [pushError, makeRoom]
  split <;> rfl

/-! ## One call -/

/-- What a thread holds after calls: the newest errors, and the code of the last. -/
structure Recent (ops : List ErrorOp) (thread : ErrorThread) : Prop where
  entries : stackEntries thread =
    ((errorsSinceReset ops).rtake YA_ERROR_STACK_SIZE).map ErrorCall.info
  allocated : thread.context.isSome = contextAllocated ops
  last : ∀ context, thread.context = some context →
    context.lastError = ((errorsSinceReset ops).getLast?.map ErrorCall.code).getD YA_OK

section Steps

variable {ops : List ErrorOp} {thread : ErrorThread}

theorem stackEntries_of_some {context : YaErrorContext}
    (isContext : thread.context = some context) :
    stackEntries thread = context.entries := by
  simp only [stackEntries, yaErrorGetStack, isContext]
  rfl

theorem stackEntries_of_none (isNull : thread.context = none) :
    stackEntries thread = [] := by
  simp only [stackEntries, yaErrorGetStack, isNull]

private theorem errorsSinceReset_concat_set (ops : List ErrorOp) (error : ErrorCall) :
    errorsSinceReset (ops ++ [.set error]) = errorsSinceReset ops ++ [error] := by
  rw [errorsSinceReset, List.rtakeWhile_concat_pos _ _ _ rfl, List.filterMap_append]
  rfl

theorem errorsSinceReset_concat_init (ops : List ErrorOp) :
    errorsSinceReset (ops ++ [.init]) = errorsSinceReset ops := by
  rw [errorsSinceReset, List.rtakeWhile_concat_pos _ _ _ rfl, List.filterMap_append]
  exact List.append_nil _

theorem errorsSinceReset_concat_reset {op : ErrorOp} (resets : op.resets = true)
    (ops : List ErrorOp) : errorsSinceReset (ops ++ [op]) = [] := by
  rw [errorsSinceReset, List.rtakeWhile_concat_neg _ _ _ (by simp [resets])]
  rfl

theorem contextAllocated_concat_kept {op : ErrorOp} (kept : op.frees = false)
    (ops : List ErrorOp) :
    contextAllocated (ops ++ [op]) = (contextAllocated ops || op.allocates) := by
  rw [contextAllocated, List.rtakeWhile_concat_pos _ _ _ (by simp [kept]),
    List.any_append]
  simp [contextAllocated]

private theorem contextAllocated_concat_freed {op : ErrorOp} (freed : op.frees = true)
    (ops : List ErrorOp) : contextAllocated (ops ++ [op]) = false := by
  rw [contextAllocated, List.rtakeWhile_concat_neg _ _ _ (by simp [freed])]
  rfl

theorem Recent.errors_eq_nil (recent : Recent ops thread)
    (isNull : thread.context = none) : errorsSinceReset ops = [] := by
  have empty := recent.entries
  rw [stackEntries_of_none isNull] at empty
  have none := congrArg List.length empty
  rw [List.length_map, length_rtake, List.length_nil] at none
  apply List.eq_nil_of_length_eq_zero
  have positive : 0 < YA_ERROR_STACK_SIZE := by decide
  omega

/-- The errors are kept by a context whose entries and last error are theirs. -/
theorem Recent.of_context {context : YaErrorContext}
    (isContext : thread.context = some context)
    (allocated : contextAllocated ops = true)
    (entries : context.entries =
      ((errorsSinceReset ops).rtake YA_ERROR_STACK_SIZE).map ErrorCall.info)
    (last : context.lastError =
      ((errorsSinceReset ops).getLast?.map ErrorCall.code).getD YA_OK) :
    Recent ops thread where
  entries := (stackEntries_of_some isContext).trans entries
  allocated := by rw [isContext, allocated]; rfl
  last := by
    intro other isOther
    cases isContext.symm.trans isOther
    exact last

theorem Recent.of_null (isNull : thread.context = none)
    (allocated : contextAllocated ops = false) (errors : errorsSinceReset ops = []) :
    Recent ops thread where
  entries := by
    rw [stackEntries_of_none isNull, errors]
    rfl
  allocated := by rw [isNull, allocated]; rfl
  last := by
    intro context isContext
    cases isNull.symm.trans isContext

private theorem push_map_info (errors : List ErrorCall) (error : ErrorCall) :
    push YA_ERROR_STACK_SIZE
        ((errors.rtake YA_ERROR_STACK_SIZE).map ErrorCall.info) error.info =
      ((errors ++ [error]).rtake YA_ERROR_STACK_SIZE).map ErrorCall.info := by
  rw [← push_rtake (by decide) errors error, push, push, List.length_map,
    apply_ite (List.map ErrorCall.info), List.map_append, List.map_append,
    List.map_tail]
  rfl

theorem Recent.pushError {context : YaErrorContext} {error : ErrorCall}
    {after : ErrorThread}
    (entries : context.entries =
      ((errorsSinceReset ops).rtake YA_ERROR_STACK_SIZE).map ErrorCall.info)
    (isContext : after.context = some (MouseHero.pushError context error)) :
    Recent (ops ++ [.set error]) after := by
  apply Recent.of_context isContext
  · rw [contextAllocated_concat_kept rfl]
    exact Bool.or_true _
  · rw [entries_pushError, entries, errorsSinceReset_concat_set, push_map_info]
  · rw [lastError_pushError, errorsSinceReset_concat_set, List.getLast?_concat]
    rfl

theorem YaErrorContext.entries_of_empty {context : YaErrorContext}
    (empty : context.stackSize = 0) : context.entries = [] := by
  rw [entries, empty, List.take_zero]

theorem yaErrorInit_context (thread : ErrorThread) :
    (yaErrorInit true thread).context = some (thread.context.getD .zero) := by
  rw [yaErrorInit]
  split
  · rename_i context isContext
    rw [isContext]
    rfl
  · rename_i isNull
    rw [isNull]
    rfl

theorem Recent.init (recent : Recent ops thread) :
    Recent (ops ++ [.init]) (yaErrorInit true thread) := by
  have allocated : contextAllocated (ops ++ [.init]) = true := by
    rw [contextAllocated_concat_kept rfl]
    exact Bool.or_true _
  apply Recent.of_context (yaErrorInit_context thread) allocated
  · rw [errorsSinceReset_concat_init, ← recent.entries]
    cases isContext : thread.context with
    | none =>
        rw [stackEntries_of_none isContext]
        exact YaErrorContext.entries_of_empty rfl
    | some context => exact (stackEntries_of_some isContext).symm
  · rw [errorsSinceReset_concat_init]
    cases isContext : thread.context with
    | none =>
        rw [recent.errors_eq_nil isContext]
        rfl
    | some context => exact recent.last context isContext

theorem Recent.set (recent : Recent ops thread) (error : ErrorCall) :
    Recent (ops ++ [.set error]) (yaErrorSet true error thread) := by
  have ready := yaErrorInit_context thread
  have isReady := recent.init
  have entries := isReady.entries
  rw [stackEntries_of_some ready, errorsSinceReset_concat_init] at entries
  apply Recent.pushError entries
  simp only [yaErrorSet, ready]

theorem Recent.clear (recent : Recent ops thread) :
    Recent (ops ++ [.clear]) (yaErrorClear thread) := by
  have errors := @errorsSinceReset_concat_reset .clear rfl ops
  have allocated : contextAllocated (ops ++ [.clear]) = contextAllocated ops := by
    rw [contextAllocated_concat_kept rfl]
    exact Bool.or_false _
  cases isContext : thread.context with
  | none =>
      have isNull : (yaErrorClear thread).context = none := by
        simp only [yaErrorClear, isContext]
      apply Recent.of_null isNull _ errors
      rw [allocated, ← recent.allocated, isContext]
      rfl
  | some context =>
      have cleared : (yaErrorClear thread).context =
          some
            { context with
              stackSize := 0
              lastError := YA_OK
              inArray := Nat.zero_le _ } := by
        simp only [yaErrorClear, isContext]
      apply Recent.of_context cleared
      · rw [allocated, ← recent.allocated, isContext]
        rfl
      · rw [errors]
        exact YaErrorContext.entries_of_empty rfl
      · rw [errors]
        rfl

theorem Recent.cleanup : Recent (ops ++ [.cleanup]) (yaErrorCleanup thread) :=
  .of_null rfl (contextAllocated_concat_freed rfl ops)
    (errorsSinceReset_concat_reset rfl ops)

end Steps

/-! ## Whole runs -/

private theorem recent_runErrors (ops : List ErrorOp) : Recent ops (runErrors ops) := by
  induction ops using List.reverseRecOn with
  | nil => exact .of_null rfl rfl rfl
  | append_singleton ops op inductionHypothesis =>
      rw [runErrors, List.foldl_append]
      cases op with
      | set error => exact inductionHypothesis.set error
      | clear => exact inductionHypothesis.clear
      | init => exact inductionHypothesis.init
      | cleanup => exact .cleanup

/-- The stack is the newest 64 errors since it was last emptied, and the last error
is the newest of them. -/
theorem errorStack_is_bounded_history (ops : List ErrorOp) :
    (stackEntries (runErrors ops)).map YaErrorInfo.record =
        ((errorsSinceReset ops).rtake 64).map ErrorCall.record ∧
      (yaErrorGetStack true (runErrors ops)).2 =
        some (min (errorsSinceReset ops).length 64) ∧
      (runErrors ops).context.isSome = contextAllocated ops ∧
      yaErrorGetLast (runErrors ops) =
        match (errorsSinceReset ops).getLast? with
        | some error => error.code
        | none => if contextAllocated ops then YA_OK else YA_ERR_UNKNOWN := by
  have recent := recent_runErrors ops
  refine ⟨?_, ?_, recent.allocated, ?_⟩
  · rw [recent.entries, List.map_map]
    exact List.map_congr_left fun error _ => record_info error
  · have length := congrArg List.length recent.entries
    rw [List.length_map, length_rtake, Nat.min_comm] at length
    cases isContext : (runErrors ops).context with
    | none =>
        rw [recent.errors_eq_nil isContext]
        simp only [yaErrorGetStack, isContext]
        rfl
    | some context =>
        rw [stackEntries_of_some isContext, context.length_entries] at length
        simp only [yaErrorGetStack, isContext]
        exact congrArg some length
  · cases isContext : (runErrors ops).context with
    | none =>
        have notAllocated : contextAllocated ops = false := by
          rw [← recent.allocated, isContext]
          rfl
        rw [recent.errors_eq_nil isContext, notAllocated]
        simp only [yaErrorGetLast, isContext]
        rfl
    | some context =>
        have isAllocated : contextAllocated ops = true := by
          rw [← recent.allocated, isContext]
          rfl
        simp only [yaErrorGetLast, isContext]
        rw [recent.last context isContext, isAllocated]
        cases (errorsSinceReset ops).getLast? <;> rfl

end MouseHero
