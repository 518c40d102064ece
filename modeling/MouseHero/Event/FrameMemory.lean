import MouseHero.Event.RoundTrip
import MouseHero.Mpack.Growth

/-!
# Frames in memory

`ya_serialize_event` with the two writers, the combined buffer and the copies
between them, on memory that can be refused.  The errors of the writers are not
consulted, and neither is the pointer that `malloc` returns.
-/

namespace MouseHero

open FaultM BigEndian

variable {F : Type} [CFloat F]

/-! ## Calls -/

/-- A serializer: its status and the calls it makes. -/
abbrev SerializerCalls (F : Type) :=
  Option (YAParam F) → Except Fault (Int × List (MpackCall F))

theorem toNat_strlen_le (bytes : List UInt8) :
    (UInt32.ofNat (cString bytes).length).toNat ≤ bytes.length := by
  have shorter : (cString bytes).length ≤ bytes.length :=
    (List.takeWhile_sublist _).length_le
  exact Nat.le_trans (Nat.mod_le ..) shorter

/-- `mpack_write_str(writer, text, strlen(text))`. -/
def cStringCall : CString → Except Fault (MpackCall F)
  | none => .error .nullDereference
  | some bytes =>
      .ok (.str bytes (UInt32.ofNat (cString bytes).length) (toNat_strlen_le bytes))

def commonRequestCalls : SerializerCalls F
  | some (.common request) =>
      .ok (0, [.startArray 2, .i32 request.lparam, .i32 request.rparam])
  | some _ => .error .paramType
  | none => .error .nullDereference

def keyboardRequestCalls : SerializerCalls F
  | some (.keyboard request) =>
      .ok (0, [.startArray 3, .i32 request.code, .i32 request.op, .u32 request.mods])
  | some _ => .error .paramType
  | none => .error .nullDereference

def textInputRequestCalls : SerializerCalls F
  | some (.textInput request) => do
      let text ← cStringCall request.text
      pure (0, [text])
  | some _ => .error .paramType
  | none => .error .nullDereference

def textGetResponseCalls : SerializerCalls F
  | some (.inputGet response) => do
      let text ← cStringCall response.text
      pure (0, [text])
  | some _ => .error .paramType
  | none => .error .nullDereference

def authorizeResponseCalls : SerializerCalls F
  | some (.authorizeResponse response) => do
      let macs ← cStringCall (some (response.macs.getD []))
      let fields :=
        [.bool response.success, .u32 response.osType, .u32 response.uid,
          .u32 response.sessionPort.toUInt32, .u32 response.commandPort.toUInt32, macs,
          .float response.displayScale]
      if response.clientVersion ≥ 2 then
        pure (0, .startArray 8 :: fields ++ [.u32 YA_PROTOCOL_VERSION])
      else
        pure (0, .startArray 7 :: fields)
  | some _ => .error .paramType
  | none => .error .nullDereference

def discoverResponseCalls : SerializerCalls F
  | some (.discoverResponse response) =>
      .ok (0, [.startArray 2, .u32 DISCOVERY_MAGIC, .u32 response.port.toUInt32])
  | some _ => .error .paramType
  | none => .error .nullDereference

/-- `get_serializer`. -/
def getSerializerCalls (type _direction : UInt32) : Option (SerializerCalls F) :=
  match YAEventType.ofCode? type with
  | some .mouseMove | some .mouseClick | some .mouseWheel | some .control =>
      some commonRequestCalls
  | some .keyboard => some keyboardRequestCalls
  | some .textInput => some textInputRequestCalls
  | some .textGet => some textGetResponseCalls
  | some .authorize => some authorizeResponseCalls
  | some .discover => some discoverResponseCalls
  | some .heartbeat | some .mouseStop | some .sessionOption | none => none

/-- The calls for the payload. -/
def payloadCalls (event : YAEvent F) : Except Fault (Int × List (MpackCall F)) :=
  match getSerializerCalls event.header.type event.header.direction with
  | some serialize => serialize event.param
  | none => .ok (0, [])

/-- The calls for the header. -/
def headerCalls (header : YAEventHeader) : List (MpackCall F) :=
  [.startArray 4, .u32 header.uid, .u32 header.type, .u32 header.direction,
    .u32 header.index]

/-- The bytes that calls append. -/
def renderCalls (result : Int × List (MpackCall F)) : Int × List UInt8 :=
  (result.1, result.2.flatMap MpackCall.bytes)

theorem headerCalls_bytes (header : YAEventHeader) :
    (headerCalls header : List (MpackCall F)).flatMap MpackCall.bytes =
      serializeEventHeader header := by
  simp [headerCalls, serializeEventHeader, MpackCall.bytes]

omit [CFloat F] in
/-- Every serializer that returns has the status 0. -/
theorem payloadCalls_status {event : YAEvent F} {status : Int}
    {calls : List (MpackCall F)} (called : payloadCalls event = .ok (status, calls)) :
    status = 0 := by
  unfold payloadCalls getSerializerCalls at called
  cases known : YAEventType.ofCode? event.header.type with
  | none =>
      simp only [known, Except.ok.injEq, Prod.mk.injEq] at called
      exact called.1.symm
  | some type =>
      cases type <;> simp only [known] at called
      case heartbeat | mouseStop | sessionOption =>
        cases called
        rfl
      case mouseMove | mouseClick | mouseWheel | control =>
        unfold commonRequestCalls at called
        split at called <;> cases called
        rfl
      case keyboard =>
        unfold keyboardRequestCalls at called
        split at called <;> cases called
        rfl
      case discover =>
        unfold discoverResponseCalls at called
        split at called <;> cases called
        rfl
      case textInput =>
        unfold textInputRequestCalls cStringCall at called
        split at called
        · split at called <;> cases called
          rfl
        all_goals cases called
      case textGet =>
        unfold textGetResponseCalls cStringCall at called
        split at called
        · split at called <;> cases called
          rfl
        all_goals cases called
      case authorize =>
        unfold authorizeResponseCalls cStringCall at called
        split at called
        · simp only [except_ok_bind] at called
          split at called <;> cases called <;> rfl
        all_goals cases called

/-- The calls append what the serializers write. -/
theorem serializeBody_eq (event : YAEvent F) :
    serializeBody event = (payloadCalls event).map renderCalls := by
  unfold serializeBody payloadCalls getSerializer getSerializerCalls
  cases YAEventType.ofCode? event.header.type with
  | none => rfl
  | some type =>
      cases type with
      | heartbeat | mouseStop | sessionOption => rfl
      | mouseMove | mouseClick | mouseWheel | control =>
          rcases event.param with _ | param
          · rfl
          · cases param <;>
              simp [serializeCommonRequest, commonRequestCalls, renderCalls,
                MpackCall.bytes, Except.map]
      | keyboard =>
          rcases event.param with _ | param
          · rfl
          · cases param <;>
              simp [serializeKeyboardRequest, keyboardRequestCalls, renderCalls,
                MpackCall.bytes, Except.map]
      | discover =>
          rcases event.param with _ | param
          · rfl
          · cases param <;>
              simp [serializeDiscoverResponse, discoverResponseCalls, renderCalls,
                MpackCall.bytes, Except.map]
      | textInput =>
          rcases event.param with _ | param
          · rfl
          · cases param with
            | textInput request =>
                cases text : request.text <;>
                  simp [serializeTextInputRequest, textInputRequestCalls, text,
                    writeCString, cStringCall, renderCalls, MpackCall.bytes, Except.map,
                    bind, Except.bind, pure, Except.pure]
            | _ => rfl
      | textGet =>
          rcases event.param with _ | param
          · rfl
          · cases param with
            | inputGet response =>
                cases text : response.text <;>
                  simp [serializeTextGetResponse, textGetResponseCalls, text,
                    writeCString, cStringCall, renderCalls, MpackCall.bytes, Except.map,
                    bind, Except.bind, pure, Except.pure]
            | _ => rfl
      | authorize =>
          rcases event.param with _ | param
          · rfl
          · cases param with
            | authorizeResponse response =>
                by_cases newer : response.clientVersion ≥ 2 <;>
                  simp [serializeAuthorizeResponse, authorizeResponseCalls, newer,
                    writeCString, cStringCall, renderCalls, MpackCall.bytes, Except.map,
                    bind, Except.bind, pure, Except.pure]
            | _ => rfl

/-! ## The combined buffer -/

/-- What `target_data` and `target_size` of a writer lead to. -/
def writePart (allocator : Allocator) (calls : List (MpackCall F)) :
    WriterM (Option (Nat × Nat)) := do
  let _ ← writeMessage allocator calls
  let state ← getState
  return state.target

/-- The size of a part, which is zero behind a null pointer. -/
def partSize (part : Option (Nat × Nat)) : Nat :=
  part.elim 0 Prod.snd

/-- The bytes of a part that `memcpy` reads. -/
def partBytes (part : Option (Nat × Nat)) : WriterM (List UInt8) := do
  match part with
  | none => return []
  | some (address, size) =>
      let state ← getState
      match state.heap.block address with
      | none => fault (.undefined .useAfterFree)
      | some block =>
          if size ≤ block.size then return block.contents.take size
          else fault (.undefined .outOfBoundsRead)

/-- `memcpy` and `memset` into the combined buffer. -/
def copyTo (out start : Nat) (bytes : List UInt8) : WriterM Unit :=
  changeHeap .outOfBoundsWrite fun heap => heap.storeAll out start bytes

/-- The second half of `ya_serialize_event`: `// Combine`. -/
def combineParts (allocator : Allocator) (body hdr : Option (Nat × Nat)) :
    WriterM (Int × Option Nat) := do
  let total := partSize hdr + partSize body + 4
  let totalWithSize := (Int32.ofNat (total + 4)).toInt
  -- as a `size_t`, a negative length is beyond what can be allocated
  let size := (totalWithSize % 2 ^ 64).toNat
  match ← mpackMalloc allocator size with
  | none => fault (.undefined .nullDereference)
  | some out =>
      copyTo out 0 (List.replicate size 0)
      copyTo out 0 (toBytes 4 total)
      copyTo out 4 (toBytes 4 (partSize hdr))
      let header ← partBytes hdr
      copyTo out 8 header
      let payload ← partBytes body
      copyTo out (8 + partSize hdr) payload
      mpackFree (body.map Prod.fst)
      mpackFree (hdr.map Prod.fst)
      return (totalWithSize, some out)

/-- `ya_serialize_event`: what it returns, and the pointer at `*out`. -/
def yaSerializeEventInMemory (allocator : Allocator) (event : YAEvent F) :
    WriterM (Int × Option Nat) := do
  match payloadCalls event with
  | .error reason => fault (.undefined reason)
  | .ok (status, payload) =>
      let body ← writePart allocator payload
      if status < 0 then
        return (-1, none)
      else
        let hdr ← writePart allocator (headerCalls event.header : List (MpackCall F))
        combineParts allocator body hdr

/-! ## The parts -/

variable {start state after : WriterState} {whole bytes : List UInt8}
variable {part : Option (Nat × Nat)} {blocks first rest : List (Nat × MemoryBlock)}

/-- A part is whole, or there is none of it. -/
inductive Part (start after : WriterState) (whole : List UInt8) :
    Option (Nat × Nat) → List UInt8 → List (Nat × MemoryBlock) → Prop where
  | whole {address : Nat} {block : MemoryBlock}
      (granted : CallsSince start.calls after.calls true)
      (adds : start.heap.Adds after.heap [(address, block)])
      (holds : block.Holds whole) :
      Part start after whole (some (address, whole.length)) whole [(address, block)]
  | none
      (refused : CallsSince start.calls after.calls false)
      (adds : start.heap.Adds after.heap []) :
      Part start after whole none [] []

theorem writePart_returns (allocator : Allocator) (calls : List (MpackCall F))
    (start : WriterState) :
    ∃ part bytes blocks after, writePart allocator calls start = (.ok part, after) ∧
      Part start after (calls.flatMap MpackCall.bytes) part bytes blocks := by
  obtain ⟨error, after, writes, delivered⟩ := writeMessage_delivers allocator calls start
  have returns : writePart allocator calls start = (.ok after.target, after) := by
    rw [writePart, bind_of_ok writes]
    rfl
  cases delivered with
  | message granted target owns holds =>
      rw [target] at returns
      exact ⟨_, _, _, after, returns, .whole granted owns.adds holds⟩
  | nothing refused target heap =>
      rw [target] at returns
      exact ⟨_, _, _, after, returns, .none refused (BlockHeap.adds_nil heap)⟩

theorem Part.adds (isPart : Part start after whole part bytes blocks) :
    start.heap.Adds after.heap blocks := by
  cases isPart with
  | whole granted adds holds => exact adds
  | none refused adds => exact adds

theorem Part.size (isPart : Part start after whole part bytes blocks) :
    partSize part = bytes.length := by
  cases isPart <;> rfl

theorem Part.bytes_eq (isPart : Part start after whole part bytes blocks) :
    bytes = whole ∨ bytes = [] := by
  cases isPart with
  | whole => exact Or.inl rfl
  | none => exact Or.inr rfl

theorem Part.read (isPart : Part start after whole part bytes blocks)
    (stored : ∀ entry ∈ blocks, state.heap.block entry.1 = some entry.2) :
    partBytes part state = (.ok bytes, state) := by
  cases isPart with
  | none => rfl
  | whole granted adds holds =>
      have here := stored _ (List.mem_singleton_self _)
      rw [partBytes, bind_of_ok (getState_apply state), here]
      simp only
      rw [if_pos holds.inside, holds.take_contents]
      rfl

theorem Part.free (isPart : Part start after whole part bytes blocks)
    {base : BlockHeap} (adds : base.Adds state.heap (first ++ (blocks ++ rest))) :
    ∃ heap, mpackFree (part.map Prod.fst) state = (.ok (), { state with heap }) ∧
      base.Adds heap (first ++ rest) := by
  cases isPart with
  | none => exact ⟨state.heap, rfl, adds⟩
  | @whole address block granted _ holds =>
      obtain ⟨heap, releases, remaining⟩ := adds.release
      have frees := changeHeap_of_some .doubleFree (fun heap => heap.release address) state
        releases
      exact ⟨heap, frees, remaining⟩

/-! ## The copies -/

section Copies

variable {base : BlockHeap} {out index : Nat} {block : MemoryBlock}

private theorem copyTo_of_fits {held : List UInt8} (same : index = held.length)
    (holds : block.Holds held) (fits : held.length + bytes.length ≤ block.size)
    (adds : base.Adds state.heap ((out, block) :: rest)) :
    ∃ heap next, copyTo out index bytes state = (.ok (), { state with heap }) ∧
      base.Adds heap ((out, next) :: rest) ∧ next.size = block.size ∧
      next.Holds (held ++ bytes) := by
  obtain ⟨next, stores, sameSize, nextHolds⟩ := holds.storeAll fits
  obtain ⟨heap, stored, nextAdds⟩ := adds.storeAll stores
  subst same
  exact ⟨heap, next, changeHeap_of_some .outOfBoundsWrite
    (fun heap => heap.storeAll out held.length bytes) state stored, nextAdds, sameSize,
    nextHolds⟩

/-- A copy faults, or the bytes lie in the buffer. -/
theorem copyTo_outcome (index : Nat) (bytes : List UInt8)
    (adds : base.Adds state.heap ((out, block) :: rest)) :
    (copyTo out index bytes state = (.error (.undefined .outOfBoundsWrite), state)) ∨
      ∃ heap next, copyTo out index bytes state = (.ok (), { state with heap }) ∧
        base.Adds heap ((out, next) :: rest) ∧ next.size = block.size ∧
        (bytes = [] ∨ index + bytes.length ≤ block.size) := by
  cases stores : block.storeAll index bytes with
  | none =>
      left
      have stored : state.heap.storeAll out index bytes = none := by
        rw [BlockHeap.storeAll, adds.stored _ List.mem_cons_self, Option.bind_some, stores]
        rfl
      rw [copyTo, changeHeap, bind_of_ok (getState_apply state), stored]
      rfl
  | some next =>
      right
      obtain ⟨heap, stored, nextAdds⟩ := adds.storeAll stores
      obtain ⟨sameSize, inside⟩ := MemoryBlock.inside_of_storeAll stores
      exact ⟨heap, next, changeHeap_of_some .outOfBoundsWrite
        (fun heap => heap.storeAll out index bytes) state stored, nextAdds, sameSize, inside⟩

end Copies

/-! ## The frame -/

section Combined

variable {middle : WriterState} {wholeBody wholeHeader body header : List UInt8}
variable {bodyPart headerPart : Option (Nat × Nat)}
variable {bodyBlocks headerBlocks : List (Nat × MemoryBlock)}

/-- The frame is the only block that is left. -/
def FrameLeft (base heap : BlockHeap) (frame : List UInt8) (out : Nat) : Prop :=
  ∃ block, base.Adds heap [(out, block)] ∧ block.size = frame.length ∧
    block.Holds frame

private theorem freeParts (isBody : Part start middle wholeBody bodyPart body bodyBlocks)
    (isHeader : Part middle state wholeHeader headerPart header headerBlocks)
    {out : Nat} {block : MemoryBlock} {copied : WriterState}
    (adds : start.heap.Adds copied.heap ((out, block) :: (headerBlocks ++ bodyBlocks)))
    (result : Int × Option Nat) :
    ∃ heap,
      (do
        mpackFree (bodyPart.map Prod.fst)
        mpackFree (headerPart.map Prod.fst)
        return result : WriterM (Int × Option Nat)) copied =
          (.ok result, { copied with heap }) ∧
        start.heap.Adds heap [(out, block)] := by
  have bodyLast : start.heap.Adds copied.heap
      (((out, block) :: headerBlocks) ++ (bodyBlocks ++ [])) := by
    rwa [List.append_nil, List.cons_append]
  obtain ⟨bodyFreed, freesBody, withHeader⟩ := isBody.free bodyLast
  have headerLast : start.heap.Adds bodyFreed ([(out, block)] ++ (headerBlocks ++ [])) := by
    rwa [List.append_nil] at withHeader ⊢
  obtain ⟨heap, freesHeader, onlyFrame⟩ :=
    @Part.free _ { copied with heap := bodyFreed } _ _ _ _ _ _ _ isHeader _ headerLast
  refine ⟨heap, ?_, onlyFrame⟩
  exact (bind_of_ok freesBody).trans (bind_of_ok freesHeader)

/-- The copies and what follows them, when there is room for the parts. -/
theorem copyParts_of_fits (isBody : Part start middle wholeBody bodyPart body bodyBlocks)
    (isHeader : Part middle state wholeHeader headerPart header headerBlocks)
    {out : Nat} {block : MemoryBlock} {allocated : WriterState}
    (adds : start.heap.Adds allocated.heap ((out, block) :: (headerBlocks ++ bodyBlocks)))
    (sized : block.size = (frameBytes header body).length)
    (result : Int × Option Nat) :
    ∃ heap,
      (do
        copyTo out 0 (List.replicate block.size 0)
        copyTo out 0 (toBytes 4 (partSize headerPart + partSize bodyPart + 4))
        copyTo out 4 (toBytes 4 (partSize headerPart))
        let header ← partBytes headerPart
        copyTo out 8 header
        let payload ← partBytes bodyPart
        copyTo out (8 + partSize headerPart) payload
        mpackFree (bodyPart.map Prod.fst)
        mpackFree (headerPart.map Prod.fst)
        return result : WriterM (Int × Option Nat)) allocated =
          (.ok result, { allocated with heap }) ∧
        FrameLeft start.heap heap (frameBytes header body) out := by
  rw [length_frameBytes] at sized
  obtain ⟨zeroed, zeroBlock, zeroes, zeroAdds, zeroSize, -⟩ :=
    @copyTo_of_fits allocated (List.replicate block.size 0) _ _ out 0 block [] rfl
      (MemoryBlock.holds_nil block) (by simp) adds
  obtain ⟨heap₁, block₁, copies₁, adds₁, size₁, holds₁⟩ :=
    @copyTo_of_fits { allocated with heap := zeroed }
      (toBytes 4 (partSize headerPart + partSize bodyPart + 4)) _ _ out 0 zeroBlock [] rfl
      (MemoryBlock.holds_nil zeroBlock) (by simp; omega) zeroAdds
  obtain ⟨heap₂, block₂, copies₂, adds₂, size₂, holds₂⟩ :=
    @copyTo_of_fits { allocated with heap := heap₁ } (toBytes 4 (partSize headerPart)) _ _
      out 4 block₁ _ (by simp) holds₁ (by simp; omega) adds₁
  obtain ⟨heap₃, block₃, copies₃, adds₃, size₃, holds₃⟩ :=
    @copyTo_of_fits { allocated with heap := heap₂ } header _ _ out 8 block₂ _ (by simp)
      holds₂ (by simp; omega) adds₂
  obtain ⟨heap₄, block₄, copies₄, adds₄, size₄, holds₄⟩ :=
    @copyTo_of_fits { allocated with heap := heap₃ } body _ _ out (8 + partSize headerPart)
      block₃ _ (by simp [isHeader.size]; omega) holds₃ (by simp; omega) adds₃
  have readsHeader : partBytes headerPart { allocated with heap := heap₂ } =
      (.ok header, { allocated with heap := heap₂ }) := by
    apply isHeader.read
    intro entry member
    exact adds₂.stored entry (List.mem_cons_of_mem _ (List.mem_append_left _ member))
  have readsBody : partBytes bodyPart { allocated with heap := heap₃ } =
      (.ok body, { allocated with heap := heap₃ }) := by
    apply isBody.read
    intro entry member
    exact adds₃.stored entry (List.mem_cons_of_mem _ (List.mem_append_right _ member))
  obtain ⟨heap, frees, onlyFrame⟩ :=
    @freeParts _ _ _ _ _ _ _ _ _ _ _ isBody isHeader out block₄
      { allocated with heap := heap₄ } adds₄ result
  refine ⟨heap, ?_, block₄, onlyFrame, ?_, ?_⟩
  · rw [bind_of_ok zeroes, bind_of_ok copies₁, bind_of_ok copies₂, bind_of_ok readsHeader,
      bind_of_ok copies₃, bind_of_ok readsBody, bind_of_ok copies₄]
    exact frees
  · rw [length_frameBytes]
    omega
  · rw [isHeader.size, isBody.size, List.nil_append] at holds₄
    exact holds₄

/-- Two parts that are short enough are combined to a frame, unless there is no
memory for it. -/
theorem combineParts_of_short (allocator : Allocator)
    (isBody : Part start middle wholeBody bodyPart body bodyBlocks)
    (isHeader : Part middle state wholeHeader headerPart header headerBlocks)
    (short : (frameBytes header body).length < 2 ^ 31) :
    ∃ after,
      (combineParts allocator bodyPart headerPart state =
          (.error (.undefined .nullDereference), after) ∧
        ∃ size, after.calls = { size, granted := false } :: state.calls) ∨
      ∃ out, combineParts allocator bodyPart headerPart state =
          (.ok ((frameBytes header body).length, some out), after) ∧
        (∃ size, after.calls = { size, granted := true } :: state.calls) ∧
        FrameLeft start.heap after.heap (frameBytes header body) out := by
  have total : partSize headerPart + partSize bodyPart + 4 + 4 =
      (frameBytes header body).length := by
    rw [isHeader.size, isBody.size, length_frameBytes]
  have counted : (Int32.ofNat (frameBytes header body).length).toInt =
      (frameBytes header body).length := Int32.toInt_ofNat_of_lt short
  have size : (((frameBytes header body).length : Int) % 2 ^ 64).toNat =
      (frameBytes header body).length := by omega
  rw [combineParts, total, counted, size]
  rcases mpackMalloc_outcome allocator (frameBytes header body).length state with
    ⟨after, refused, asked, -⟩ | ⟨allocated, out, fresh, granted, asked, -, owns⟩
  · refine ⟨after, Or.inl ⟨?_, asked.calls⟩⟩
    rw [bind_of_ok refused]
    rfl
  · have adds := (isBody.adds.trans isHeader.adds).trans owns.adds
    obtain ⟨heap, copies, left⟩ := copyParts_of_fits isBody isHeader adds rfl
      ((frameBytes header body).length, some out)
    refine ⟨{ allocated with heap }, Or.inr ⟨out, ?_, asked.calls, left⟩⟩
    exact (bind_of_ok granted).trans copies

/-- The copies stop when there is no room for the parts. -/
theorem copyParts_of_small (isBody : Part start middle wholeBody bodyPart body bodyBlocks)
    (isHeader : Part middle state wholeHeader headerPart header headerBlocks)
    {out : Nat} {block : MemoryBlock} {allocated : WriterState}
    (adds : start.heap.Adds allocated.heap ((out, block) :: (headerBlocks ++ bodyBlocks)))
    (small : block.size < (frameBytes header body).length) {Result : Type}
    (next : WriterM Result) :
    ∃ reason after,
      (do
        copyTo out 0 (List.replicate block.size 0)
        copyTo out 0 (toBytes 4 (partSize headerPart + partSize bodyPart + 4))
        copyTo out 4 (toBytes 4 (partSize headerPart))
        let header ← partBytes headerPart
        copyTo out 8 header
        let payload ← partBytes bodyPart
        copyTo out (8 + partSize headerPart) payload
        next : WriterM Result) allocated = (.error reason, after) ∧
        after.calls = allocated.calls := by
  rw [length_frameBytes] at small
  rcases copyTo_outcome 0 (List.replicate block.size 0) adds with
    stops | ⟨heap₀, block₀, copies₀, adds₀, size₀, -⟩
  · exact ⟨_, _, bind_of_fault stops, rfl⟩
  rw [bind_of_ok copies₀]
  rcases @copyTo_outcome { allocated with heap := heap₀ } _ _ _ _ 0
      (toBytes 4 (partSize headerPart + partSize bodyPart + 4)) adds₀ with
    stops | ⟨heap₁, block₁, copies₁, adds₁, size₁, -⟩
  · exact ⟨_, _, bind_of_fault stops, rfl⟩
  rw [bind_of_ok copies₁]
  rcases @copyTo_outcome { allocated with heap := heap₁ } _ _ _ _ 4
      (toBytes 4 (partSize headerPart)) adds₁ with
    stops | ⟨heap₂, block₂, copies₂, adds₂, size₂, sizesFit⟩
  · exact ⟨_, _, bind_of_fault stops, rfl⟩
  have readsHeader : partBytes headerPart { allocated with heap := heap₂ } =
      (.ok header, { allocated with heap := heap₂ }) := by
    apply isHeader.read
    intro entry member
    exact adds₂.stored entry (List.mem_cons_of_mem _ (List.mem_append_left _ member))
  rw [bind_of_ok copies₂, bind_of_ok readsHeader]
  rcases @copyTo_outcome { allocated with heap := heap₂ } _ _ _ _ 8 header adds₂ with
    stops | ⟨heap₃, block₃, copies₃, adds₃, size₃, headerFits⟩
  · exact ⟨_, _, bind_of_fault stops, rfl⟩
  have readsBody : partBytes bodyPart { allocated with heap := heap₃ } =
      (.ok body, { allocated with heap := heap₃ }) := by
    apply isBody.read
    intro entry member
    exact adds₃.stored entry (List.mem_cons_of_mem _ (List.mem_append_right _ member))
  rw [bind_of_ok copies₃, bind_of_ok readsBody]
  rcases @copyTo_outcome { allocated with heap := heap₃ } _ _ _ _ (8 + partSize headerPart)
      body adds₃ with
    stops | ⟨heap₄, block₄, copies₄, adds₄, size₄, bodyFits⟩
  · exact ⟨_, _, bind_of_fault stops, rfl⟩
  · exfalso
    rw [isHeader.size] at bodyFits
    have eight : 4 + 4 ≤ block₁.size := by
      rcases sizesFit with none | fits
      · have length := congrArg List.length none
        simp at length
      · simpa using fits
    have withHeader : 8 + header.length ≤ block₂.size := by
      rcases headerFits with none | fits
      · rw [none, List.length_nil]
        omega
      · exact fits
    rcases bodyFits with none | fits
    · rw [none, List.length_nil] at small
      omega
    · omega

/-- A frame whose length is not an `int` is never returned: there is no memory for
a negative length, and the copies do not fit behind one that has wrapped around. -/
theorem combineParts_of_long (allocator : Allocator)
    (isBody : Part start middle wholeBody bodyPart body bodyBlocks)
    (isHeader : Part middle state wholeHeader headerPart header headerBlocks)
    (long : 2 ^ 31 ≤ (frameBytes header body).length) :
    ∃ reason after,
      combineParts allocator bodyPart headerPart state = (.error reason, after) ∧
        ∃ size granted, after.calls = { size, granted } :: state.calls := by
  have below := (Int32.ofNat (partSize headerPart + partSize bodyPart + 4 + 4)).toInt_lt
  have least := (Int32.ofNat (partSize headerPart + partSize bodyPart + 4 + 4)).le_toInt
  rw [combineParts]
  rcases mpackMalloc_outcome allocator _ state with
    ⟨after, refused, asked, -⟩ | ⟨allocated, out, fresh, granted, asked, possible, owns⟩
  · rw [bind_of_ok refused]
    obtain ⟨size, calls⟩ := asked.calls
    exact ⟨_, after, rfl, size, false, calls⟩
  · have adds := (isBody.adds.trans isHeader.adds).trans owns.adds
    obtain ⟨reason, after, stops, sameCalls⟩ := copyParts_of_small isBody isHeader adds
      (by simp only; rw [PTRDIFF_MAX] at possible; omega) _
    obtain ⟨size, calls⟩ := asked.calls
    exact ⟨reason, after, (bind_of_ok granted).trans stops, size, true,
      sameCalls.trans calls⟩

end Combined

/-! ## The whole event -/

/-- What `ya_serialize_event` does with the frame of a header and a body. -/
inductive FrameOutcome (start after : WriterState) (header body : List UInt8) :
    Except WriterFault (Int × Option Nat) → Prop where
  /-- The frame is returned, and no other block is left behind. -/
  | frame {out : Nat} (short : (frameBytes header body).length < 2 ^ 31)
      (left : FrameLeft start.heap after.heap (frameBytes header body) out) :
      FrameOutcome start after header body
        (.ok ((frameBytes header body).length, some out))
  | noMemory (refused : CallsSince start.calls after.calls false) :
      FrameOutcome start after header body (.error (.undefined .nullDereference))
  | tooLong (long : 2 ^ 31 ≤ (frameBytes header body).length) (reason : WriterFault) :
      FrameOutcome start after header body (.error reason)

theorem Part.since (isPart : Part start after whole part bytes blocks) :
    ∃ granted, CallsSince start.calls after.calls granted ∧
      (granted = true → bytes = whole) := by
  cases isPart with
  | whole granted adds holds => exact ⟨true, granted, fun _ => rfl⟩
  | none refused adds => exact ⟨false, refused, fun same => absurd same Bool.false_ne_true⟩

/-- The outcome for two parts, with the calls for memory so far. -/
theorem combineParts_outcome (allocator : Allocator)
    {middle state : WriterState} {wholeBody wholeHeader body header : List UInt8}
    {bodyPart headerPart : Option (Nat × Nat)}
    {bodyBlocks headerBlocks : List (Nat × MemoryBlock)}
    (isBody : Part start middle wholeBody bodyPart body bodyBlocks)
    (isHeader : Part middle state wholeHeader headerPart header headerBlocks) :
    ∃ outcome after granted, combineParts allocator bodyPart headerPart state =
        (outcome, after) ∧
      FrameOutcome start after header body outcome ∧
      CallsSince state.calls after.calls granted := by
  by_cases short : (frameBytes header body).length < 2 ^ 31
  · obtain ⟨after, ⟨stops, calls⟩ | ⟨out, returns, calls, left⟩⟩ :=
      combineParts_of_short allocator isBody isHeader short
    · have since := (callsSince_refl state.calls).asked calls
      refine ⟨_, after, false, stops, .noMemory ?_, since⟩
      obtain ⟨bodyGranted, bodySince, -⟩ := isBody.since
      obtain ⟨headerGranted, headerSince, -⟩ := isHeader.since
      have all := (bodySince.trans headerSince).trans since
      rwa [Bool.and_false] at all
    · exact ⟨_, after, true, returns, .frame short left,
        (callsSince_refl state.calls).asked calls⟩
  · obtain ⟨reason, after, stops, size, granted, calls⟩ :=
      combineParts_of_long allocator isBody isHeader (Nat.le_of_not_lt short)
    exact ⟨_, after, granted, stops, .tooLong (Nat.le_of_not_lt short) reason,
      (callsSince_refl state.calls).asked ⟨size, calls⟩⟩

theorem yaSerializeEvent_of_long {event : YAEvent F} {payload : List UInt8}
    (written : serializeBody event = .ok (0, payload))
    (long : 2 ^ 31 ≤
      (frameBytes (serializeEventHeader event.header) payload).length) :
    ∃ reason, yaSerializeEvent event = .error reason := by
  have below := (Int32.ofNat ((serializeEventHeader event.header).length +
    payload.length + 4 + 4)).toInt_lt
  rw [length_frameBytes] at long
  rw [yaSerializeEvent, written]
  simp only [except_ok_bind]
  rw [if_neg (by omega)]
  split
  · exact ⟨_, rfl⟩
  · rw [if_pos (by omega)]
    exact ⟨_, rfl⟩

/-- How `ya_serialize_event` ends in memory that can be refused. -/
inductive SerializedInMemory (start after : WriterState) (event : YAEvent F) :
    Except WriterFault (Int × Option Nat) → Prop where
  /-- The frame is the one that `yaSerializeEvent` returns. -/
  | whole {out : Nat} {frame : List UInt8}
      (returns : yaSerializeEvent event =
        .ok { length := frame.length, out := some frame })
      (left : FrameLeft start.heap after.heap frame out) :
      SerializedInMemory start after event (.ok (frame.length, some out))
  /-- There is no memory for a part, and the frame is returned without it. -/
  | incomplete {out : Nat} {payload header body : List UInt8}
      (refused : CallsSince start.calls after.calls false)
      (written : serializeBody event = .ok (0, payload))
      (isHeader : header = serializeEventHeader event.header ∨ header = [])
      (isBody : body = payload ∨ body = [])
      (missing : header ≠ serializeEventHeader event.header ∨ body ≠ payload)
      (left : FrameLeft start.heap after.heap (frameBytes header body) out) :
      SerializedInMemory start after event
        (.ok ((frameBytes header body).length, some out))
  /-- There is no memory for the frame. -/
  | noMemory (refused : CallsSince start.calls after.calls false) :
      SerializedInMemory start after event (.error (.undefined .nullDereference))
  | faults {reason : Fault} {other : WriterFault}
      (faults : yaSerializeEvent event = .error reason) :
      SerializedInMemory start after event (.error other)

theorem yaSerializeEvent_of_payload_error {event : YAEvent F} {reason : Fault}
    (called : payloadCalls event = .error reason) :
    yaSerializeEvent event = .error reason := by
  have written := serializeBody_eq event
  rw [called] at written
  rw [yaSerializeEvent, written]
  rfl

/-- Parts that are not longer than the whole ones make a frame that is not longer. -/
theorem length_frameBytes_le {wholeHeader wholeBody header body : List UInt8}
    (isHeader : header = wholeHeader ∨ header = [])
    (isBody : body = wholeBody ∨ body = []) :
    (frameBytes header body).length ≤ (frameBytes wholeHeader wholeBody).length := by
  rw [length_frameBytes, length_frameBytes]
  rcases isHeader with rfl | rfl <;> rcases isBody with rfl | rfl <;> simp

/-- In memory that can be refused, an event ends as the frame that is returned when
every allocation succeeds, as that frame without the parts that were refused, or at
a null pointer.  Where a frame is returned, nothing else is left in memory. -/
theorem yaSerializeEventInMemory_refines (allocator : Allocator) (event : YAEvent F)
    (start : WriterState) :
    ∃ outcome after, yaSerializeEventInMemory allocator event start = (outcome, after) ∧
      SerializedInMemory start after event outcome := by
  cases called : payloadCalls event with
  | error reason =>
      refine ⟨.error (.undefined reason), start, ?_,
        .faults (yaSerializeEvent_of_payload_error called)⟩
      rw [yaSerializeEventInMemory, called]
      rfl
  | ok result =>
      obtain ⟨status, calls⟩ := result
      have zero := payloadCalls_status called
      subst zero
      have written : serializeBody event = .ok (0, calls.flatMap MpackCall.bytes) := by
        rw [serializeBody_eq, called]
        rfl
      obtain ⟨bodyPart, body, bodyBlocks, middle, writesBody, isBody⟩ :=
        writePart_returns allocator calls start
      obtain ⟨headerPart, header, headerBlocks, state, writesHeader, isHeader⟩ :=
        writePart_returns allocator (headerCalls event.header : List (MpackCall F)) middle
      rw [headerCalls_bytes] at isHeader
      obtain ⟨outcome, after, granted, combines, framed, frameSince⟩ :=
        combineParts_outcome allocator isBody isHeader
      obtain ⟨bodyGranted, bodySince, bodyWhole⟩ := isBody.since
      obtain ⟨headerGranted, headerSince, headerWhole⟩ := isHeader.since
      have since := (bodySince.trans headerSince).trans frameSince
      refine ⟨outcome, after, ?_, ?_⟩
      · rw [yaSerializeEventInMemory, called]
        refine (bind_of_ok writesBody).trans ?_
        rw [if_neg (by decide), bind_of_ok writesHeader]
        exact combines
      cases framed with
      | noMemory refused => exact .noMemory refused
      | tooLong long reason =>
          have longer := Nat.le_trans long
            (length_frameBytes_le isHeader.bytes_eq isBody.bytes_eq)
          obtain ⟨expected, faults⟩ := yaSerializeEvent_of_long written longer
          exact .faults faults
      | frame short left =>
          by_cases complete :
              header = serializeEventHeader event.header ∧
                body = calls.flatMap MpackCall.bytes
          · obtain ⟨rfl, rfl⟩ := complete
            exact .whole (yaSerializeEvent_of_body written short) left
          · have missing := not_and_or.mp complete
            refine .incomplete ?_ written isHeader.bytes_eq isBody.bytes_eq missing left
            have refused : (bodyGranted && headerGranted) = false := by
              rw [Bool.and_eq_false_iff]
              rcases missing with noHeader | noBody
              · exact Or.inr (Bool.eq_false_of_not_eq_true (mt headerWhole noHeader))
              · exact Or.inl (Bool.eq_false_of_not_eq_true (mt bodyWhole noBody))
            rwa [refused, Bool.false_and] at since

end MouseHero
