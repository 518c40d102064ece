import MouseHero.Mpack.GrowableWriter

/-!
# Messages of any length

A growable writer appends to a list of bytes, as long as it gets the memory it
asks for.  It never writes outside its buffer or to one that has moved, its
size never wraps around, and in the end the buffer is handed over or freed.
-/

namespace MouseHero

open FaultM

variable {start state : WriterState} {allocator : Allocator}
variable {written bytes : List UInt8}

/-! ## Sizes -/

/-- Doubling ends at a power of two that is large enough, before the size wraps
around. -/
theorem doubleSize_returns {needed exponent rounds : Nat} (fits : needed ≤ 2 ^ 63)
    (inRange : exponent ≤ 63) (enough : 63 < exponent + rounds)
    (state : WriterState) :
    ∃ last, exponent ≤ last ∧ last ≤ 63 ∧ needed ≤ 2 ^ last ∧
      doubleSize needed rounds (2 ^ exponent) state = (.ok (2 ^ last), state) := by
  induction rounds generalizing exponent with
  | zero => omega
  | succ rounds inductionHypothesis =>
      by_cases tooSmall : 2 ^ exponent < needed
      · have below : 2 ^ exponent < 2 ^ 63 := Nat.lt_of_lt_of_le tooSmall fits
        have less : exponent < 63 := (Nat.pow_lt_pow_iff_right (by decide)).mp below
        have doubled : sizeT (2 ^ exponent * 2) = 2 ^ (exponent + 1) := by
          rw [← Nat.pow_succ]
          apply sizeT_of_lt
          exact Nat.pow_lt_pow_right (by decide) (by omega)
        obtain ⟨last, after, bounded, large, returned⟩ :=
          @inductionHypothesis (exponent + 1) (by omega) (by omega)
        refine ⟨last, by omega, bounded, large, ?_⟩
        rw [doubleSize, if_pos tooSmall, doubled, returned]
      · refine ⟨exponent, Nat.le_refl _, inRange, Nat.le_of_not_lt tooSmall, ?_⟩
        rw [doubleSize, if_neg tooSmall]
        rfl

/-! ## What is kept -/

/-- The buffer is a block of its own, and the position is in it. -/
structure MpackWriter.Buffers (base heap : BlockHeap) (writer : MpackWriter)
    (address : Nat) (block : MemoryBlock) : Prop where
  buffer : writer.buffer = some address
  owns : base.Owns heap address block
  size : block.size = writer.size
  inside : writer.position ≤ writer.size
  growable : writer.growable = true

/-- All bytes so far are in the buffer. -/
structure WriterState.Written (start state : WriterState)
    (written : List UInt8) : Prop where
  ok : state.writer.error = .ok
  buffers : ∃ address block,
    state.writer.Buffers start.heap state.heap address block ∧ block.Holds written
  counted : state.writer.position = written.length
  sized : ∃ exponent, 12 ≤ exponent ∧ exponent ≤ 62 ∧
    state.writer.size = 2 ^ exponent
  granted : CallsSince start.calls state.calls true
  target : state.target = none

/-- Memory has been refused; there may be no buffer at all. -/
structure WriterState.Refused (start state : WriterState) : Prop where
  memory : state.writer.error = .memory
  buffers : (∃ address block, state.writer.Buffers start.heap state.heap address block) ∨
    state.writer.buffer = none ∧ state.writer.size = 0 ∧
      state.writer.growable = false ∧ state.heap.block = start.heap.block
  refused : CallsSince start.calls state.calls false
  target : state.target = none

/-- The bytes are written, unless memory has been refused. -/
def WriterState.Progress (start state : WriterState) (written : List UInt8) :
    Prop :=
  start.Written state written ∨ start.Refused state

/-- The computation returns, and appends the bytes. -/
def Appends (start : WriterState) (bytes : List UInt8) (computation : WriterM Unit) :
    Prop :=
  ∀ written state, start.Progress state written →
    ∃ after, computation state = (.ok (), after) ∧
      start.Progress after (written ++ bytes)

theorem WriterState.Written.inside (isWritten : start.Written state written) :
    written.length ≤ state.writer.size ∧ 4096 ≤ state.writer.size := by
  obtain ⟨address, block, buffers, holds⟩ := isWritten.buffers
  obtain ⟨exponent, least, -, isPower⟩ := isWritten.sized
  have large : 2 ^ 12 ≤ 2 ^ exponent := Nat.pow_le_pow_right (by decide) least
  rw [← isPower] at large
  exact ⟨buffers.size ▸ holds.inside, large⟩

/-! ## Memory -/

theorem askMemory_apply (allocator : Allocator) (size : Nat) (state : WriterState) :
    askMemory allocator size state =
      (.ok (allocator.answer state.calls.length size),
        { state with
          calls :=
            { size, granted := (allocator.answer state.calls.length size).isSome } ::
              state.calls }) :=
  rfl

theorem changeHeap_of_some (reason : Fault)
    (change : BlockHeap → Option BlockHeap) (state : WriterState) {heap : BlockHeap}
    (changes : change state.heap = some heap) :
    changeHeap reason change state = (.ok (), { state with heap }) := by
  rw [changeHeap, bind_of_ok (getState_apply state), changes]
  rfl

/-- What a call for memory leaves behind. -/
structure WriterState.Asked (state after : WriterState) (granted : Bool) : Prop where
  writer : after.writer = state.writer
  target : after.target = state.target
  calls : ∃ size, after.calls = { size, granted } :: state.calls

/-- The state in which a call for memory has been answered. -/
def WriterState.answered (state : WriterState) (size : Nat) (granted : Bool) :
    WriterState :=
  { state with calls := { size, granted } :: state.calls }

theorem WriterState.answered_asked (state : WriterState) (size : Nat) (granted : Bool)
    (heap : BlockHeap) :
    state.Asked { state.answered size granted with heap } granted where
  writer := rfl
  target := rfl
  calls := ⟨size, rfl⟩

/-- There is a new block, or the call is refused. -/
theorem mpackMalloc_outcome (allocator : Allocator) (size : Nat) (state : WriterState) :
    (∃ after, mpackMalloc allocator size state = (.ok none, after) ∧
        state.Asked after false ∧ after.heap = state.heap) ∨
      ∃ after address fresh,
        mpackMalloc allocator size state = (.ok (some address), after) ∧
          state.Asked after true ∧ size ≤ PTRDIFF_MAX ∧
          state.heap.Owns after.heap address { size, bytes := fresh } := by
  have asks := askMemory_apply allocator size state
  cases answered : allocator.answer state.calls.length size with
  | none =>
      rw [answered] at asks
      left
      refine ⟨state.answered size false, ?_, state.answered_asked size false _, rfl⟩
      rw [mpackMalloc, bind_of_ok asks]
      rfl
  | some fresh =>
      rw [answered] at asks
      right
      have changes := changeHeap_of_some .useAfterFree
        (fun heap => some (heap.allocate { size, bytes := fresh }))
        (state.answered size true) rfl
      refine ⟨_, state.heap.next, fresh, ?_, state.answered_asked size true _,
        allocator.le_of_some answered, BlockHeap.owns_allocate state.heap _⟩
      rw [mpackMalloc, bind_of_ok asks]
      refine (bind_of_ok (getState_apply _)).trans ?_
      exact bind_of_ok changes

/-- The buffer moves to a block of the new size, or the call is refused. -/
theorem mpackRealloc_outcome {size address : Nat} {block : MemoryBlock}
    (allocator : Allocator) (owns : start.heap.Owns state.heap address block) :
    (∃ after, mpackRealloc allocator (some address) size state = (.ok none, after) ∧
        state.Asked after false ∧ after.heap = state.heap) ∨
      ∃ after moved fresh,
        mpackRealloc allocator (some address) size state = (.ok (some moved), after) ∧
          state.Asked after true ∧ size ≤ PTRDIFF_MAX ∧
          start.heap.Owns after.heap moved (block.resize size fresh) := by
  have asks := askMemory_apply allocator size state
  cases answered : allocator.answer state.calls.length size with
  | none =>
      rw [answered] at asks
      left
      refine ⟨state.answered size false, ?_, state.answered_asked size false _, rfl⟩
      rw [mpackRealloc, bind_of_ok asks]
      rfl
  | some fresh =>
      rw [answered] at asks
      right
      obtain ⟨heap, moves, nowOwns⟩ := owns.reallocate size fresh
      have changes := changeHeap_of_some .useAfterFree
        (fun heap => heap.reallocate address size fresh) (state.answered size true) moves
      refine ⟨{ state.answered size true with heap }, state.heap.next, fresh, ?_,
        state.answered_asked size true _, allocator.le_of_some answered, nowOwns⟩
      rw [mpackRealloc, bind_of_ok asks]
      simp only
      rw [bind_of_ok (getState_apply _)]
      exact bind_of_ok changes

theorem mpackFree_of_owns {address : Nat} {block : MemoryBlock}
    (owns : start.heap.Owns state.heap address block) :
    ∃ heap, mpackFree (some address) state = (.ok (), { state with heap }) ∧
      heap.block = start.heap.block := by
  obtain ⟨heap, releases, same⟩ := owns.release
  have changes := changeHeap_of_some .doubleFree (fun heap => heap.release address) state
    releases
  exact ⟨heap, changes, same⟩

/-! ## The buffer -/

theorem mpackWriterFlagError_of_ok (error : WriterError) (state : WriterState)
    (noError : state.writer.error = .ok) :
    mpackWriterFlagError error state =
      (.ok (), { state with writer := { state.writer with error } }) := by
  rw [mpackWriterFlagError, modifyWriter, modifyState_apply]
  simp only [if_pos noError]

theorem modifyWriter_apply (change : MpackWriter → MpackWriter) (state : WriterState) :
    modifyWriter change state = (.ok (), { state with writer := change state.writer }) :=
  rfl

/-- A state whose writer is moved on behind the bytes in memory. -/
def WriterState.putting (state : WriterState) (count : Nat) (heap : BlockHeap) :
    WriterState :=
  { state with
    heap
    writer := { state.writer with position := state.writer.position + count } }

/-- Bytes for which there is room lie in the buffer. -/
theorem putBytes_of_buffers {address : Nat} {block next : MemoryBlock}
    (buffers : state.writer.Buffers start.heap state.heap address block)
    (stores : block.storeAll state.writer.position bytes = some next) :
    ∃ heap, putBytes bytes state = (.ok (), state.putting bytes.length heap) ∧
      start.heap.Owns heap address next := by
  obtain ⟨heap, stored, owns⟩ := buffers.owns.storeAll stores
  have changes := changeHeap_of_some .outOfBoundsWrite
    (fun heap => heap.storeAll address state.writer.position bytes) state stored
  refine ⟨heap, ?_, owns⟩
  rw [putBytes, bind_of_ok (getState_apply state), buffers.buffer]
  simp only
  rw [bind_of_ok changes]
  rfl

theorem WriterState.Written.putBytes (isWritten : start.Written state written)
    (room : bytes.length ≤ state.writer.left) :
    ∃ after, putBytes bytes state = (.ok (), after) ∧
      start.Written after (written ++ bytes) ∧
      after.writer.size = state.writer.size := by
  obtain ⟨address, block, buffers, holds⟩ := isWritten.buffers
  have counted := isWritten.counted
  have inside := buffers.inside
  have sameSize := buffers.size
  rw [MpackWriter.left] at room
  have fits : written.length + bytes.length ≤ block.size := by omega
  obtain ⟨next, stores, nextSize, nextHolds⟩ := holds.storeAll fits
  rw [← counted] at stores
  obtain ⟨heap, puts, owns⟩ := putBytes_of_buffers buffers stores
  have nextInside : state.writer.position + bytes.length ≤ state.writer.size := by omega
  refine ⟨_, puts, ⟨isWritten.ok, ?_, ?_, isWritten.sized, isWritten.granted,
    isWritten.target⟩, rfl⟩
  · exact ⟨address, next, ⟨buffers.buffer, owns, nextSize.trans sameSize, nextInside,
      buffers.growable⟩, nextHolds⟩
  · rw [List.length_append, ← counted]
    rfl

/-- After an error, bytes may still be put where there is room. -/
theorem WriterState.Refused.putBytes (isRefused : start.Refused state)
    (room : bytes.length ≤ state.writer.left) (nonempty : bytes ≠ []) :
    ∃ after, putBytes bytes state = (.ok (), after) ∧ start.Refused after := by
  rcases isRefused.buffers with ⟨address, block, buffers⟩ | ⟨-, zero, -, -⟩
  · have inside := buffers.inside
    have sameSize := buffers.size
    rw [MpackWriter.left] at room
    have fits : state.writer.position + bytes.length ≤ block.size := by omega
    obtain ⟨next, stores, nextSize⟩ := MemoryBlock.storeAll_isSome fits
    obtain ⟨heap, puts, owns⟩ := putBytes_of_buffers buffers stores
    have nextInside : state.writer.position + bytes.length ≤ state.writer.size := by omega
    exact ⟨_, puts, isRefused.memory, Or.inl ⟨address, next, buffers.buffer, owns,
      nextSize.trans sameSize, nextInside, buffers.growable⟩, isRefused.refused,
      isRefused.target⟩
  · rw [MpackWriter.left, zero, Nat.zero_sub, Nat.le_zero, List.length_eq_zero_iff] at room
    exact absurd room nonempty

/-! ## A larger buffer -/

/-- The size that is asked for is the next powers of two. -/
theorem doubleSize_of_written (isWritten : start.Written state written)
    (short : bytes.length < 2 ^ 32) :
    ∃ exponent, 12 ≤ exponent ∧ exponent ≤ 63 ∧
      2 * state.writer.size ≤ 2 ^ exponent ∧
      written.length + bytes.length ≤ 2 ^ exponent ∧
      doubleSize (sizeT (state.writer.used + bytes.length)) 65
        (sizeT (state.writer.size * 2)) state = (.ok (2 ^ exponent), state) := by
  obtain ⟨exponent, least, most, isPower⟩ := isWritten.sized
  have inside := isWritten.inside.1
  have powerBound : 2 ^ exponent ≤ 2 ^ 62 := Nat.pow_le_pow_right (by decide) most
  have exact : sizeT (state.writer.used + bytes.length) =
      written.length + bytes.length := by
    rw [MpackWriter.used, isWritten.counted]
    apply sizeT_of_lt
    omega
  have doubled : sizeT (state.writer.size * 2) = 2 ^ (exponent + 1) := by
    rw [isPower, ← Nat.pow_succ]
    apply sizeT_of_lt
    exact Nat.pow_lt_pow_right (by decide) (by omega)
  obtain ⟨last, after, bounded, large, returned⟩ := @doubleSize_returns
    (written.length + bytes.length) (exponent + 1) 65 (by omega) (by omega) (by omega) state
  refine ⟨last, by omega, bounded, ?_, large, ?_⟩
  · rw [isPower, Nat.mul_comm, ← Nat.pow_succ]
    exact Nat.pow_le_pow_right (by decide) after
  · rw [exact, doubled, returned]

/-- The bytes are kept when the buffer is moved, and the extra ones follow them. -/
theorem WriterState.Written.grow (allocator : Allocator)
    (isWritten : start.Written state written) (short : bytes.length < 2 ^ 32) :
    ∃ after, growBufferFor allocator bytes state = (.ok (), after) ∧
      (start.Written after (written ++ bytes) ∧
          2 * state.writer.size ≤ after.writer.size ∨
        start.Refused after) := by
  obtain ⟨exponent, least, most, twice, large, returned⟩ :=
    doubleSize_of_written isWritten short
  obtain ⟨address, block, buffers, holds⟩ := isWritten.buffers
  have counted := isWritten.counted
  have inside := buffers.inside
  have sameSize := buffers.size
  rw [growBufferFor, bind_of_ok (getState_apply state), bind_of_ok returned,
    buffers.buffer]
  rcases @mpackRealloc_outcome _ _ (2 ^ exponent) _ _ allocator buffers.owns with
    ⟨after, refused, asked, sameHeap⟩ | ⟨after, moved, fresh, granted, asked, fits, owns⟩
  · rw [bind_of_ok refused]
    have noError := (congrArg MpackWriter.error asked.writer).trans isWritten.ok
    refine ⟨_, mpackWriterFlagError_of_ok .memory after noError,
      Or.inr ⟨rfl, Or.inl ⟨address, block, ?_⟩, ?_, ?_⟩⟩
    · constructor
      · exact (congrArg MpackWriter.buffer asked.writer).trans buffers.buffer
      · exact sameHeap ▸ buffers.owns
      · exact sameSize.trans (congrArg MpackWriter.size asked.writer).symm
      · exact asked.writer ▸ inside
      · exact (congrArg MpackWriter.growable asked.writer).trans buffers.growable
    · exact isWritten.granted.asked asked.calls
    · exact asked.target.trans isWritten.target
  · rw [bind_of_ok granted]
    have small : exponent ≤ 62 := by
      by_contra huge
      have isLast : exponent = 63 := by omega
      rw [isLast, PTRDIFF_MAX] at fits
      omega
    let next : WriterState :=
      { after with
        writer :=
          { after.writer with
            buffer := some moved
            position := state.writer.used
            size := 2 ^ exponent } }
    have nextWritten : start.Written next written := by
      constructor
      · exact (congrArg MpackWriter.error asked.writer).trans isWritten.ok
      · refine ⟨moved, block.resize (2 ^ exponent) fresh, ⟨rfl, owns, rfl, ?_, ?_⟩,
          holds.resize (by omega) fresh⟩
        · show state.writer.position ≤ 2 ^ exponent
          omega
        · exact (congrArg MpackWriter.growable asked.writer).trans buffers.growable
      · exact counted
      · exact ⟨exponent, least, small, rfl⟩
      · exact isWritten.granted.asked asked.calls
      · exact asked.target.trans isWritten.target
    have room : bytes.length ≤ next.writer.left := by
      show bytes.length ≤ 2 ^ exponent - state.writer.position
      omega
    by_cases nonempty : 0 < bytes.length
    · obtain ⟨last, puts, lastWritten, lastSize⟩ := nextWritten.putBytes room
      refine ⟨last, ?_, Or.inl ⟨lastWritten, lastSize ▸ twice⟩⟩
      refine (bind_of_ok (modifyWriter_apply _ after)).trans ?_
      rw [if_pos nonempty]
      exact puts
    · have none : bytes = [] := List.eq_nil_of_length_eq_zero (by omega)
      subst none
      rw [List.append_nil]
      refine ⟨next, ?_, Or.inl ⟨nextWritten, twice⟩⟩
      exact bind_of_ok (modifyWriter_apply _ after)

/-- A flush leaves room for an element; an empty buffer has it anyway. -/
theorem WriterState.Written.flush (allocator : Allocator)
    (isWritten : start.Written state written) :
    ∃ after, mpackWriterFlushUnchecked allocator state = (.ok (), after) ∧
      (start.Written after written ∧ 4096 ≤ after.writer.left ∨ start.Refused after) := by
  have counted := isWritten.counted
  have enough := isWritten.inside.2
  let rewound : WriterState :=
    { state with writer := { state.writer with position := 0 } }
  have rewinds : mpackWriterFlushUnchecked allocator state =
      flushBuffer allocator state.writer.used rewound := by
    rw [mpackWriterFlushUnchecked, bind_of_ok (getState_apply state)]
    exact bind_of_ok (modifyWriter_apply _ state)
  rw [rewinds, flushBuffer, bind_of_ok (getState_apply rewound)]
  by_cases empty : state.writer.position = 0
  · have same : rewound = state := by
      show { state with writer := { state.writer with position := 0 } } = state
      rw [← empty]
    refine ⟨state, ?_, Or.inl ⟨isWritten, ?_⟩⟩
    · rw [if_pos (by exact empty.symm), same]
      rfl
    · rw [MpackWriter.left, empty]
      exact enough
  · obtain ⟨after, grows, outcome⟩ :=
      @WriterState.Written.grow _ _ _ [] allocator isWritten (by decide)
    refine ⟨after, ?_, ?_⟩
    · rw [if_neg (fun same => empty same.symm)]
      refine (bind_of_ok (modifyWriter_apply _ rewound)).trans ?_
      exact grows
    · rw [List.append_nil] at outcome
      refine outcome.imp_left fun ⟨afterWritten, twice⟩ => ⟨afterWritten, ?_⟩
      have inside := isWritten.inside.1
      rw [MpackWriter.left, afterWritten.counted]
      omega

theorem WriterState.Refused.not_ok (isRefused : start.Refused state) :
    state.writer.error ≠ .ok := by
  rw [isRefused.memory]
  decide

theorem WriterState.Written.growable (isWritten : start.Written state written) :
    ¬ state.writer.growable = false := by
  obtain ⟨address, block, buffers, -⟩ := isWritten.buffers
  rw [buffers.growable]
  decide

/-- There is room for an element, or memory has been refused. -/
theorem WriterState.Written.ensure (allocator : Allocator)
    (isWritten : start.Written state written) {count : Nat} (short : count ≤ 4096) :
    ∃ after,
      mpackWriterEnsure allocator count state = (.ok true, after) ∧
          start.Written after written ∧ count ≤ after.writer.left ∨
        mpackWriterEnsure allocator count state = (.ok false, after) ∧
          start.Refused after := by
  obtain ⟨flushed, flushes, outcome⟩ := isWritten.flush allocator
  refine ⟨flushed, ?_⟩
  rw [mpackWriterEnsure, bind_of_ok (getState_apply state),
    if_neg (not_not_intro isWritten.ok), if_neg isWritten.growable, bind_of_ok flushes,
    bind_of_ok (getState_apply flushed)]
  rcases outcome with ⟨nowWritten, enough⟩ | nowRefused
  · left
    rw [if_neg (not_not_intro nowWritten.ok), if_pos (by omega)]
    exact ⟨rfl, nowWritten, by omega⟩
  · right
    rw [if_pos nowRefused.not_ok]
    exact ⟨rfl, nowRefused⟩

theorem WriterState.Refused.ensure (allocator : Allocator)
    (isRefused : start.Refused state) (count : Nat) :
    mpackWriterEnsure allocator count state = (.ok false, state) := by
  rw [mpackWriterEnsure, bind_of_ok (getState_apply state), if_pos isRefused.not_ok]
  rfl

/-! ## What is appended -/

theorem WriterState.Progress.putBytes (progress : start.Progress state written)
    (room : bytes.length ≤ state.writer.left) (nonempty : bytes ≠ []) :
    ∃ after, putBytes bytes state = (.ok (), after) ∧
      start.Progress after (written ++ bytes) := by
  rcases progress with isWritten | isRefused
  · obtain ⟨after, puts, afterWritten, -⟩ := isWritten.putBytes room
    exact ⟨after, puts, Or.inl afterWritten⟩
  · obtain ⟨after, puts, afterRefused⟩ := isRefused.putBytes room nonempty
    exact ⟨after, puts, Or.inr afterRefused⟩

theorem Appends.andThen {more : List UInt8} {first second : WriterM Unit}
    (firstAppends : Appends start bytes first) (secondAppends : Appends start more second) :
    Appends start (bytes ++ more) (first >>= fun _ => second) := by
  intro written state progress
  obtain ⟨next, firstReturns, nextProgress⟩ := firstAppends written state progress
  obtain ⟨after, secondReturns, afterProgress⟩ := secondAppends _ next nextProgress
  refine ⟨after, ?_, ?_⟩
  · rw [bind_of_ok firstReturns]
    exact secondReturns
  · rwa [← List.append_assoc]

/-- What is written with one check of the room there is. -/
theorem appends_writeEncoded (start : WriterState) (allocator : Allocator)
    (nonempty : bytes ≠ []) (short : bytes.length ≤ 4096) :
    Appends start bytes (writeEncoded allocator bytes) := by
  intro written state progress
  rw [writeEncoded, bind_of_ok (getState_apply state)]
  by_cases room : bytes.length ≤ state.writer.left
  · rw [if_pos room]
    exact progress.putBytes room nonempty
  · rw [if_neg room]
    rcases progress with isWritten | isRefused
    · obtain ⟨next, ⟨ensures, nextWritten, nextRoom⟩ | ⟨ensures, nextRefused⟩⟩ :=
        isWritten.ensure allocator short
      · rw [bind_of_ok ensures]
        exact WriterState.Progress.putBytes (Or.inl nextWritten) nextRoom nonempty
      · rw [bind_of_ok ensures]
        exact ⟨next, rfl, Or.inr nextRefused⟩
    · rw [bind_of_ok (isRefused.ensure allocator _)]
      exact ⟨state, rfl, Or.inr isRefused⟩

/-- The bytes of a string, of which there may be more than the buffer has room
for when it is twice as large. -/
theorem appends_mpackWriteNative (start : WriterState) (allocator : Allocator)
    (nonempty : bytes ≠ []) (short : bytes.length < 2 ^ 32) :
    Appends start bytes (mpackWriteNative allocator bytes) := by
  intro written state progress
  rw [mpackWriteNative, bind_of_ok (getState_apply state)]
  by_cases full : state.writer.left < bytes.length
  · rw [if_pos full, mpackWriteNativeStraddle, bind_of_ok (getState_apply state)]
    rcases progress with isWritten | isRefused
    · obtain ⟨flushed, flushes, outcome⟩ := isWritten.flush allocator
      rw [if_neg (not_not_intro isWritten.ok), if_neg isWritten.growable,
        bind_of_ok flushes, bind_of_ok (getState_apply flushed)]
      rcases outcome with ⟨nowWritten, -⟩ | nowRefused
      · rw [if_neg (not_not_intro nowWritten.ok)]
        by_cases more : bytes.length > flushed.writer.left
        · rw [if_pos more]
          obtain ⟨after, grows, outcome⟩ := nowWritten.grow allocator short
          exact ⟨after, grows, outcome.imp_left And.left⟩
        · rw [if_neg more]
          exact WriterState.Progress.putBytes (Or.inl nowWritten) (Nat.le_of_not_lt more)
            nonempty
      · rw [if_pos nowRefused.not_ok]
        exact ⟨flushed, rfl, Or.inr nowRefused⟩
    · rw [if_pos isRefused.not_ok]
      exact ⟨state, rfl, Or.inr isRefused⟩
  · rw [if_neg full]
    exact progress.putBytes (Nat.le_of_not_lt full) nonempty

/-! ## Elements -/

private theorem strHeader_length (count : UInt32) :
    strHeader count ≠ [] ∧ (strHeader count).length ≤ 5 := by
  unfold strHeader
  split
  · exact ⟨List.cons_ne_nil _ _, by simp⟩
  split
  · exact ⟨List.cons_ne_nil _ _, by simp⟩
  split
  · exact ⟨List.cons_ne_nil _ _, by simp⟩
  · exact ⟨List.cons_ne_nil _ _, by simp⟩

theorem mpackWriteStr_eq (data : List UInt8) (count : UInt32) :
    mpackWriteStr data count = strHeader count ++ data.take count.toNat :=
  rfl

private theorem appends_writeStr (start : WriterState) (allocator : Allocator)
    {data : List UInt8} {count : UInt32} (readable : count.toNat ≤ data.length) :
    Appends start (mpackWriteStr data count) (writeStr allocator data count) := by
  intro written state progress
  obtain ⟨headerNonempty, headerShort⟩ := strHeader_length count
  have textLength : (data.take count.toNat).length = count.toNat :=
    List.length_take_of_le readable
  have nonempty : strHeader count ++ data.take count.toNat ≠ [] :=
    List.append_ne_nil_of_left_ne_nil headerNonempty _
  rw [mpackWriteStr_eq, writeStr, bind_of_ok (getState_apply state)]
  by_cases fixstr : count ≤ 31
  · rw [if_pos fixstr]
    refine appends_writeEncoded start allocator nonempty ?_ written state progress
    have small : count.toNat ≤ 31 := fixstr
    rw [List.length_append, textLength]
    omega
  · rw [if_neg fixstr]
    split
    next together => exact progress.putBytes together.2 nonempty
    next =>
      have many : ¬ count.toNat ≤ 31 := fixstr
      have range := count.toNat_lt
      have textNonempty : data.take count.toNat ≠ [] := by
        apply List.ne_nil_of_length_pos
        omega
      have headerAppends :=
        appends_writeEncoded start allocator headerNonempty (by omega)
      have textAppends :=
        appends_mpackWriteNative start allocator textNonempty (by omega)
      exact headerAppends.andThen textAppends written state progress

/-- Everything that is not a string is written at once. -/
theorem bytes_length {F : Type} [CFloat F] (call : MpackCall F)
    (notText : ∀ data count readable, call ≠ .str data count readable) :
    call.bytes ≠ [] ∧ call.bytes.length ≤ 9 := by
  cases call with
  | bool value => exact ⟨List.cons_ne_nil _ _, by simp [MpackCall.bytes, mpackWriteBool]⟩
  | u32 value =>
      simp only [MpackCall.bytes, mpackWriteU32]
      split_ifs <;> simp [← List.length_pos_iff]
  | i32 value =>
      simp only [MpackCall.bytes, mpackWriteI32]
      split_ifs <;> simp [← List.length_pos_iff]
  | u64 value =>
      simp only [MpackCall.bytes, mpackWriteU64]
      split_ifs <;> simp [← List.length_pos_iff]
  | float value =>
      exact ⟨List.cons_ne_nil _ _, by simp [MpackCall.bytes, mpackWriteFloat]⟩
  | startArray count =>
      simp only [MpackCall.bytes, mpackStartArray]
      split_ifs <;> simp
  | startMap count =>
      simp only [MpackCall.bytes, mpackStartMap]
      split_ifs <;> simp
  | str data count readable => exact absurd rfl (notText data count readable)

private theorem appends_perform {F : Type} [CFloat F] (start : WriterState)
    (allocator : Allocator) (call : MpackCall F) : Appends start call.bytes (call.perform allocator) := by
  by_cases isText : ∃ data count readable, call = .str data count readable
  · obtain ⟨data, count, readable, rfl⟩ := isText
    exact appends_writeStr start allocator readable
  · have notText : ∀ data count readable, call ≠ .str data count readable :=
      fun data count readable same => isText ⟨data, count, readable, same⟩
    obtain ⟨nonempty, short⟩ := bytes_length call notText
    have appends := appends_writeEncoded start allocator nonempty
      (Nat.le_trans short (by decide))
    cases call with
    | str data count readable => exact absurd rfl (notText data count readable)
    | _ => exact appends

theorem appends_performCalls {F : Type} [CFloat F] (start : WriterState)
    (allocator : Allocator) (calls : List (MpackCall F)) :
    Appends start (calls.flatMap MpackCall.bytes) (performCalls allocator calls) := by
  induction calls with
  | nil =>
      intro written state progress
      exact ⟨state, rfl, by rwa [List.flatMap_nil, List.append_nil]⟩
  | cons call calls inductionHypothesis =>
      rw [List.flatMap_cons]
      exact (appends_perform start allocator call).andThen inductionHypothesis

/-! ## The whole message -/

theorem mpackWriterInitGrowable_progress (allocator : Allocator) (start : WriterState) :
    ∃ after, mpackWriterInitGrowable allocator start = (.ok (), after) ∧
      start.Progress after [] := by
  let cleared : WriterState := { start with target := none }
  rw [mpackWriterInitGrowable, bind_of_ok (modifyState_apply _ _)]
  rcases mpackMalloc_outcome allocator MPACK_BUFFER_SIZE cleared with
    ⟨after, refused, asked, sameHeap⟩ | ⟨after, address, fresh, granted, asked, -, owns⟩
  · exact ⟨_, bind_of_ok refused, Or.inr ⟨rfl,
      Or.inr ⟨rfl, rfl, rfl, congrArg BlockHeap.block sameHeap⟩,
      (callsSince_refl _).asked asked.calls, asked.target⟩⟩
  · exact ⟨_, bind_of_ok granted, Or.inl ⟨rfl,
      ⟨address, _, ⟨rfl, owns, rfl, Nat.zero_le _, rfl⟩, MemoryBlock.holds_nil _⟩, rfl,
      ⟨12, by decide, by decide, rfl⟩, (callsSince_refl _).asked asked.calls,
      asked.target⟩⟩

/-- What the caller of `mpack_writer_destroy` finds: the message in a block of its
own, or a null pointer and the memory as it was before. -/
inductive Delivered (start : WriterState) (message : List UInt8) (after : WriterState) :
    WriterError → Prop where
  | message {address : Nat} {block : MemoryBlock}
      (granted : CallsSince start.calls after.calls true)
      (target : after.target = some (address, message.length))
      (owns : start.heap.Owns after.heap address block)
      (holds : block.Holds message) : Delivered start message after .ok
  | nothing
      (refused : CallsSince start.calls after.calls false)
      (target : after.target = none)
      (heap : after.heap.block = start.heap.block) : Delivered start message after .memory

private theorem handBufferOver_delivers {address : Nat} {block : MemoryBlock}
    (buffer : state.writer.buffer = some address)
    (counted : state.writer.position = written.length)
    (granted : CallsSince start.calls state.calls true)
    (owns : start.heap.Owns state.heap address block) (holds : block.Holds written) :
    ∃ after, handBufferOver state = (.ok (), after) ∧ after.writer.error = state.writer.error ∧
      Delivered start written after .ok := by
  refine ⟨_, rfl, rfl, .message granted ?_ owns holds⟩
  show state.writer.buffer.map (fun buffer => (buffer, state.writer.position)) = _
  rw [buffer, counted]
  rfl

/-- A buffer that is mostly empty is moved once more; the message is lost if that
is refused. -/
theorem mpackGrowableWriterTeardown_of_written (allocator : Allocator)
    (isWritten : start.Written state written) :
    ∃ after, mpackGrowableWriterTeardown allocator state = (.ok (), after) ∧
      Delivered start written after after.writer.error := by
  obtain ⟨address, block, buffers, holds⟩ := isWritten.buffers
  have counted := isWritten.counted
  rw [mpackGrowableWriterTeardown, bind_of_ok (getState_apply state),
    if_pos isWritten.ok]
  by_cases mostlyEmpty : state.writer.used < state.writer.size / 2
  · rw [if_pos mostlyEmpty, buffers.buffer]
    rcases @mpackRealloc_outcome _ _
        (if state.writer.used ≠ 0 then state.writer.used else 1) _ _ allocator buffers.owns
      with ⟨next, refused, asked, sameHeap⟩ | ⟨next, moved, fresh, granted, asked, -, owns⟩
    · obtain ⟨heap, frees, freed⟩ := mpackFree_of_owns (sameHeap ▸ buffers.owns)
      have noError := (congrArg MpackWriter.error asked.writer).trans isWritten.ok
      let after : WriterState :=
        { next with heap, writer := { next.writer with error := .memory } }
      have flagged : mpackWriterFlagError .memory { next with heap } = (.ok (), after) :=
        mpackWriterFlagError_of_ok .memory { next with heap } noError
      refine ⟨after, ?_, .nothing ?_ ?_ freed⟩
      · exact (bind_of_ok refused).trans ((bind_of_ok frees).trans flagged)
      · exact isWritten.granted.asked asked.calls
      · exact asked.target.trans isWritten.target
    · let resized : WriterState :=
        { next with
          writer :=
            { next.writer with
              buffer := some moved
              position := state.writer.used
              size := state.writer.used } }
      have fits :
          written.length ≤ if state.writer.used ≠ 0 then state.writer.used else 1 := by
        rw [MpackWriter.used, counted]
        split <;> omega
      obtain ⟨after, hands, sameError, delivered⟩ := @handBufferOver_delivers start resized written
        moved _ rfl counted (isWritten.granted.asked asked.calls) owns
        (holds.shrink fits fresh)
      have noError : after.writer.error = .ok :=
        sameError.trans ((congrArg MpackWriter.error asked.writer).trans isWritten.ok)
      refine ⟨after, ?_, noError.symm ▸ delivered⟩
      refine (bind_of_ok granted).trans ((bind_of_ok (modifyWriter_apply _ next)).trans ?_)
      exact hands
  · rw [if_neg mostlyEmpty]
    obtain ⟨after, hands, sameError, delivered⟩ := handBufferOver_delivers buffers.buffer counted
      isWritten.granted buffers.owns holds
    rw [isWritten.ok] at sameError
    exact ⟨after, hands, sameError.symm ▸ delivered⟩

/-- After an error the buffer is freed, if there is one. -/
theorem mpackGrowableWriterTeardown_of_refused (allocator : Allocator)
    {address : Nat} {block : MemoryBlock} (isRefused : start.Refused state)
    (buffers : state.writer.Buffers start.heap state.heap address block) :
    ∃ after, mpackGrowableWriterTeardown allocator state = (.ok (), after) ∧
      Delivered start written after after.writer.error := by
  obtain ⟨heap, frees, freed⟩ := mpackFree_of_owns buffers.owns
  rw [mpackGrowableWriterTeardown, bind_of_ok (getState_apply state),
    if_neg isRefused.not_ok, buffers.buffer, bind_of_ok frees, modifyWriter_apply]
  refine ⟨_, rfl, ?_⟩
  show Delivered start written _ state.writer.error
  rw [isRefused.memory]
  exact .nothing isRefused.refused isRefused.target freed

/-- The flush in front of the teardown changes nothing. -/
theorem flushBuffer_used (allocator : Allocator) (state : WriterState) :
    flushBuffer allocator state.writer.used state = (.ok (), state) := by
  rw [flushBuffer, bind_of_ok (getState_apply state), if_pos rfl]
  rfl

theorem mpackWriterDestroy_of_growable {after : WriterState}
    (growable : state.writer.growable = true)
    (tearsDown : mpackGrowableWriterTeardown allocator state = (.ok (), after)) :
    mpackWriterDestroy allocator state = (.ok after.writer.error, after) := by
  rw [mpackWriterDestroy, bind_of_ok (getState_apply state), growable]
  have ends : (do
      mpackGrowableWriterTeardown allocator
      let state ← getState
      return state.writer.error : WriterM WriterError) state =
        (.ok after.writer.error, after) := bind_of_ok tearsDown
  split
  · exact (bind_of_ok (flushBuffer_used allocator state)).trans ends
  · exact ends

theorem mpackWriterDestroy_delivers (allocator : Allocator)
    (progress : start.Progress state written) :
    ∃ error after, mpackWriterDestroy allocator state = (.ok error, after) ∧
      Delivered start written after error := by
  rcases progress with isWritten | isRefused
  · obtain ⟨address, block, buffers, -⟩ := isWritten.buffers
    obtain ⟨after, tearsDown, delivered⟩ :=
      mpackGrowableWriterTeardown_of_written allocator isWritten
    exact ⟨_, after, mpackWriterDestroy_of_growable buffers.growable tearsDown, delivered⟩
  · rcases isRefused.buffers with ⟨address, block, buffers⟩ | ⟨-, -, fixed, same⟩
    · obtain ⟨after, tearsDown, delivered⟩ :=
        @mpackGrowableWriterTeardown_of_refused _ _ written allocator _ _ isRefused buffers
      exact ⟨_, after, mpackWriterDestroy_of_growable buffers.growable tearsDown, delivered⟩
    · refine ⟨.memory, state, ?_, .nothing isRefused.refused isRefused.target same⟩
      rw [mpackWriterDestroy, bind_of_ok (getState_apply state), fixed,
        if_neg (fun both => isRefused.not_ok both.1), if_neg (by decide),
        ← isRefused.memory]
      rfl

/-- Whatever is written in whatever memory, the message is delivered whole in a
block of its own exactly if no call for memory is refused, and otherwise nothing
is left of it. -/
theorem writeMessage_delivers {F : Type} [CFloat F] (allocator : Allocator)
    (calls : List (MpackCall F)) (start : WriterState) :
    ∃ error after, writeMessage allocator calls start = (.ok error, after) ∧
      Delivered start (calls.flatMap MpackCall.bytes) after error := by
  obtain ⟨started, starts, noBytes⟩ := mpackWriterInitGrowable_progress allocator start
  obtain ⟨performed, performs, progress⟩ :=
    appends_performCalls start allocator calls [] started noBytes
  rw [List.nil_append] at progress
  rw [writeMessage, bind_of_ok starts, bind_of_ok performs]
  exact mpackWriterDestroy_delivers allocator progress

end MouseHero
