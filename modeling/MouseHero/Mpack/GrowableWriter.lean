import MouseHero.Buffer
import MouseHero.Library.Allocations
import MouseHero.Library.BlockHeap
import MouseHero.Mpack.Writer

/-!
# The growable writer

`mpack_writer_init_growable` and the writing functions on a buffer that is
moved to a larger block when it is full.  No element is under construction and
nothing is tracked; what `malloc` and `realloc` answer is a parameter.
-/

namespace MouseHero

open FaultM

/-- `mpack_error_t`, as far as the writer raises it. -/
inductive WriterError where
  | ok
  | io
  | memory
  | tooBig
  deriving DecidableEq, Repr

/-- `mpack_writer_t`: the block at `buffer`, the distances of `position` and
`end` from it, and whether `flush` and `teardown` are those of a growable
writer or null. -/
structure MpackWriter where
  buffer : Option Nat
  position : Nat
  size : Nat
  error : WriterError
  growable : Bool

/-- The writer, the memory, the calls for memory so far with the latest one
first, and what `target_data` and `target_size` lead to. -/
structure WriterState where
  writer : MpackWriter
  heap : BlockHeap
  calls : List Allocation
  target : Option (Nat × Nat)

/-- What the writer can run into. -/
inductive WriterFault where
  | undefined (reason : Fault)
  /-- The loop that doubles the size does not end. -/
  | diverges
  deriving DecidableEq, Repr

abbrev WriterM := FaultM WriterFault WriterState

/-! ## Memory -/

/-- Ask for memory. -/
def askMemory (allocator : Allocator) (size : Nat) : WriterM (Option (Nat → UInt8)) := do
  let state ← getState
  let answer := allocator.answer state.calls.length size
  modifyState fun state =>
    { state with calls := { size, granted := answer.isSome } :: state.calls }
  return answer

/-- A change of the memory that has to be possible. -/
def changeHeap (reason : Fault) (change : BlockHeap → Option BlockHeap) :
    WriterM Unit := do
  let state ← getState
  match change state.heap with
  | none => fault (.undefined reason)
  | some heap => modifyState fun state => { state with heap }

/-- `MPACK_MALLOC`. -/
def mpackMalloc (allocator : Allocator) (size : Nat) : WriterM (Option Nat) := do
  match ← askMemory allocator size with
  | none => return none
  | some fresh => do
      let state ← getState
      changeHeap .useAfterFree fun heap => some (heap.allocate { size, bytes := fresh })
      return some state.heap.next

/-- `mpack_realloc`, which is `realloc`: nothing has changed if it fails. -/
def mpackRealloc (allocator : Allocator) (old : Option Nat) (size : Nat) :
    WriterM (Option Nat) := do
  match old with
  | none => mpackMalloc allocator size
  | some address =>
      match ← askMemory allocator size with
      | none => return none
      | some fresh => do
          let state ← getState
          changeHeap .useAfterFree fun heap => heap.reallocate address size fresh
          return some state.heap.next

/-- `MPACK_FREE`. -/
def mpackFree (pointer : Option Nat) : WriterM Unit :=
  match pointer with
  | none => return ()
  | some address => changeHeap .doubleFree fun heap => heap.release address

/-! ## The buffer -/

def modifyWriter (change : MpackWriter → MpackWriter) : WriterM Unit :=
  modifyState fun state => { state with writer := change state.writer }

/-- `mpack_writer_buffer_used`. -/
def MpackWriter.used (writer : MpackWriter) : Nat :=
  writer.position

/-- `mpack_writer_buffer_left`. -/
def MpackWriter.left (writer : MpackWriter) : Nat :=
  writer.size - writer.position

/-- `mpack_writer_flag_error`: the first error stays. -/
def mpackWriterFlagError (error : WriterError) : WriterM Unit :=
  modifyWriter fun writer =>
    if writer.error = .ok then { writer with error } else writer

/-- Copy bytes to the position and move it behind them. -/
def putBytes (bytes : List UInt8) : WriterM Unit := do
  let state ← getState
  match state.writer.buffer with
  | none => fault (.undefined .nullDereference)
  | some address =>
      changeHeap .outOfBoundsWrite fun heap =>
        heap.storeAll address state.writer.position bytes
      modifyWriter fun writer =>
        { writer with position := writer.position + bytes.length }

/-- `while (new_size < used + count) new_size *= 2;`.  After 64 rounds the size
has wrapped around to zero, where it stays. -/
def doubleSize (needed : Nat) : Nat → Nat → WriterM Nat
  | 0, _ => fault .diverges
  | rounds + 1, newSize =>
      if newSize < needed then doubleSize needed rounds (sizeT (newSize * 2))
      else return newSize

/-- The second half of `mpack_growable_writer_flush`: move the buffer to a block
with room for the extra bytes, and append them. -/
def growBufferFor (allocator : Allocator) (extra : List UInt8) : WriterM Unit := do
  let state ← getState
  let used := state.writer.used
  let newSize ←
    doubleSize (sizeT (used + extra.length)) 65 (sizeT (state.writer.size * 2))
  match ← mpackRealloc allocator state.writer.buffer newSize with
  | none => mpackWriterFlagError .memory
  | some newBuffer => do
      modifyWriter fun writer =>
        { writer with buffer := some newBuffer, position := used, size := newSize }
      if extra.length > 0 then putBytes extra else return ()

/-- `mpack_growable_writer_flush` of the buffer itself. -/
def flushBuffer (allocator : Allocator) (count : Nat) : WriterM Unit := do
  let state ← getState
  -- In the teardown there is nothing to do.
  if state.writer.used = count then return ()
  else
    modifyWriter fun writer => { writer with position := count }
    growBufferFor allocator []

/-- `mpack_writer_flush_unchecked`. -/
def mpackWriterFlushUnchecked (allocator : Allocator) : WriterM Unit := do
  let state ← getState
  modifyWriter fun writer => { writer with position := 0 }
  flushBuffer allocator state.writer.used

/-- `mpack_writer_ensure`. -/
def mpackWriterEnsure (allocator : Allocator) (count : Nat) : WriterM Bool := do
  let state ← getState
  if state.writer.error ≠ .ok then return false
  else if state.writer.growable = false then
    mpackWriterFlagError .tooBig
    return false
  else
    mpackWriterFlushUnchecked allocator
    let state ← getState
    if state.writer.error ≠ .ok then return false
    else if count ≤ state.writer.left then return true
    else
      mpackWriterFlagError .io
      return false

/-- `MPACK_WRITE_ENCODED`. -/
def writeEncoded (allocator : Allocator) (bytes : List UInt8) : WriterM Unit := do
  let state ← getState
  if bytes.length ≤ state.writer.left then putBytes bytes
  else if ← mpackWriterEnsure allocator bytes.length then putBytes bytes
  else return ()

/-- `mpack_write_native_straddle`. -/
def mpackWriteNativeStraddle (allocator : Allocator) (bytes : List UInt8) :
    WriterM Unit := do
  let state ← getState
  if state.writer.error ≠ .ok then return ()
  else if state.writer.growable = false then mpackWriterFlagError .tooBig
  else
    mpackWriterFlushUnchecked allocator
    let state ← getState
    if state.writer.error ≠ .ok then return ()
    else if bytes.length > state.writer.left then growBufferFor allocator bytes
    else putBytes bytes

/-- `mpack_write_native`. -/
def mpackWriteNative (allocator : Allocator) (bytes : List UInt8) : WriterM Unit := do
  let state ← getState
  if state.writer.left < bytes.length then mpackWriteNativeStraddle allocator bytes
  else putBytes bytes

/-! ## Elements -/

/-- A call of a function that writes an element or the start of one.  There are
as many bytes at `data` as are to be written. -/
inductive MpackCall (F : Type) where
  | bool (value : Bool)
  | u32 (value : UInt32)
  | i32 (value : Int32)
  | u64 (value : UInt64)
  | float (value : F)
  | startArray (count : UInt32)
  | startMap (count : UInt32)
  | str (data : List UInt8) (count : UInt32) (readable : count.toNat ≤ data.length)

/-- The header that `mpack_write_str` writes. -/
def strHeader (count : UInt32) : List UInt8 :=
  if count ≤ 31 then [UInt8.ofNat (0xa0 + count.toNat)]
  else if count ≤ 0xff then 0xd9 :: storeWord 1 count.toNat
  else if count ≤ 0xffff then 0xda :: storeWord 2 count.toNat
  else 0xdb :: storeWord 4 count.toNat

/-- `mpack_write_str` on the buffer: a short string together with its header, a
longer one behind it unless both fit. -/
def writeStr (allocator : Allocator) (data : List UInt8) (count : UInt32) :
    WriterM Unit := do
  let text := data.take count.toNat
  let state ← getState
  if count ≤ 31 then writeEncoded allocator (strHeader count ++ text)
  else if count ≤ 0xff ∧ (strHeader count ++ text).length ≤ state.writer.left then
    putBytes (strHeader count ++ text)
  else
    writeEncoded allocator (strHeader count)
    mpackWriteNative allocator text

/-- What a call appends. -/
def MpackCall.bytes {F : Type} [CFloat F] : MpackCall F → List UInt8
  | .bool value => mpackWriteBool value
  | .u32 value => mpackWriteU32 value
  | .i32 value => mpackWriteI32 value
  | .u64 value => mpackWriteU64 value
  | .float value => mpackWriteFloat value
  | .startArray count => mpackStartArray count
  | .startMap count => mpackStartMap count
  | .str data count _ => mpackWriteStr data count

/-- What a call does to the buffer. -/
def MpackCall.perform {F : Type} [CFloat F] (allocator : Allocator) :
    MpackCall F → WriterM Unit
  | .str data count _ => writeStr allocator data count
  | call => writeEncoded allocator call.bytes

/-- The calls of a function that writes a message. -/
def performCalls {F : Type} [CFloat F] (allocator : Allocator) :
    List (MpackCall F) → WriterM Unit
  | [] => return ()
  | call :: calls => do
      call.perform allocator
      performCalls allocator calls

/-! ## From the start to the end -/

abbrev MPACK_BUFFER_SIZE : Nat := 4096

/-- `mpack_writer_init_growable`. -/
def mpackWriterInitGrowable (allocator : Allocator) : WriterM Unit := do
  modifyState fun state => { state with target := none }
  match ← mpackMalloc allocator MPACK_BUFFER_SIZE with
  | none =>
      modifyWriter fun _ =>
        { buffer := none, position := 0, size := 0, error := .memory, growable := false }
  | some buffer =>
      modifyWriter fun _ =>
        { buffer := some buffer
          position := 0
          size := MPACK_BUFFER_SIZE
          error := .ok
          growable := true }

/-- Hand the buffer over: the end of the successful branch of the teardown. -/
def handBufferOver : WriterM Unit :=
  modifyState fun state =>
    { state with
      target := state.writer.buffer.map fun buffer => (buffer, state.writer.used)
      writer := { state.writer with buffer := none } }

/-- `mpack_growable_writer_teardown`. -/
def mpackGrowableWriterTeardown (allocator : Allocator) : WriterM Unit := do
  let state ← getState
  if state.writer.error = .ok then
    if state.writer.used < state.writer.size / 2 then
      let used := state.writer.used
      match ← mpackRealloc allocator state.writer.buffer (if used ≠ 0 then used else 1) with
      | none => do
          mpackFree state.writer.buffer
          mpackWriterFlagError .memory
      | some buffer => do
          modifyWriter fun writer =>
            { writer with buffer := some buffer, position := used, size := used }
          handBufferOver
    else handBufferOver
  else
    mpackFree state.writer.buffer
    modifyWriter fun writer => { writer with buffer := none }

/-- `mpack_writer_destroy`. -/
def mpackWriterDestroy (allocator : Allocator) : WriterM WriterError := do
  let state ← getState
  if state.writer.error = .ok ∧ state.writer.used ≠ 0 ∧ state.writer.growable then
    flushBuffer allocator state.writer.used
  if state.writer.growable then
    mpackGrowableWriterTeardown allocator
  let state ← getState
  return state.writer.error

/-- A message: the error, and what `target_data` and `target_size` lead to. -/
def writeMessage {F : Type} [CFloat F] (allocator : Allocator)
    (calls : List (MpackCall F)) : WriterM WriterError := do
  mpackWriterInitGrowable allocator
  performCalls allocator calls
  mpackWriterDestroy allocator

end MouseHero
