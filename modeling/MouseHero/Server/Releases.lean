import MouseHero.Event.Malformed
import MouseHero.Server.Accounts

/-!
# What the callbacks take and give back

A callback with a ledger does what the callback does.  What it leaves in use is
the buffer of a datagram that it does not accept, the parameters of a request,
and the parameters of a response with a text.
-/

namespace MouseHero

open FaultM

variable {F : Type} [CFloat F]

/-! ## Parsing -/

/-- The heap with the parameters of a request. -/
def Heap.withParam (heap : Heap) : Option (YAParam F) → Heap
  | none => heap
  | some (.textInput _) | some (.inputGet _) => heap.allocated.allocated
  | some _ => heap.allocated

section Parsing

variable {heap : Heap} {world : World F} {param : Option (YAParam F)}

omit [CFloat F] in
theorem mallocParam_apply (heap : Heap) (param : Option (YAParam F)) :
    mallocParam param heap = (.ok (), heap.withParam param) := by
  cases param with
  | none => rfl
  | some param => cases param <;> rfl

omit [CFloat F] in
theorem keeps_withParam (heap : Heap) (param : Option (YAParam F)) :
    heap.Keeps (heap.withParam param) := by
  cases param with
  | none => exact .refl heap
  | some param =>
      cases param with
      | textInput request => exact keeps_twice heap
      | inputGet response => exact keeps_twice heap
      | _ => exact heap.keeps_allocated

omit [CFloat F] in
theorem Heap.Valid.withParam (valid : heap.Valid) (param : Option (YAParam F)) :
    (heap.withParam param).Valid := by
  cases param with
  | none => exact valid
  | some param =>
      cases param with
      | textInput request => exact valid.allocated.allocated
      | inputGet response => exact valid.allocated.allocated
      | _ => exact valid.allocated

omit [CFloat F] in
theorem next_mem_withParam (heap : Heap) (param : YAParam F) :
    heap.ledger.next ∈ (heap.withParam (some param)).ledger.live := by
  have once := heap.next_mem_allocated
  have twice : heap.ledger.next ∈ heap.allocated.allocated.ledger.live :=
    Ledger.mem_allocate.mpr (Or.inr once)
  cases param with
  | textInput request => exact twice
  | inputGet response => exact twice
  | _ => exact once

theorem yaParseEventHeap_apply (buf : List UInt8) (size : YAPackageSize) :
    yaParseEventHeap buf YAEvent.zero size (world, heap) =
      match yaParseEvent buf YAEvent.zero size with
      | .error reason => (.error reason, (world, heap))
      | .ok parsed => (.ok parsed, (world, heap.withParam parsed.event.param)) := by
  unfold yaParseEventHeap yaParseEvent
  cases bodyStage buf size with
  | error reason => rfl
  | ok stage =>
      cases stage with
      | refused buf => rfl
      | noBody header buf => rfl
      | body header payload buf =>
          simp only [except_ok_bind]
          cases called : callParser (F := F) header payload
              (sizeOfInt (contentLen size)) with
          | error reason => rfl
          | ok result =>
              have accepted : ¬ result.status < 0 := by
                rw [callParser_status called]
                decide
              have taken : (onRecord (mallocParam result.outParam) :
                  LedgerM F Unit) (world, heap) =
                  (.ok (), (world, heap.withParam result.outParam)) := by
                rw [onRecord, mallocParam_apply]
              refine (bind_of_ok taken).trans ?_
              simp only [except_ok_bind, if_neg accepted]
              rfl

theorem mirrorsAt_parse {Next Last : Type} {buf : List UInt8}
    {size : YAPackageSize} {next : ParsedEvent F → LedgerM F Next}
    {otherNext : ParsedEvent F → ServerM F Last}
    {post : Next → Last → Heap → Prop}
    (goesOn : ∀ parsed, yaParseEvent buf YAEvent.zero size = .ok parsed →
      MirrorsAt (next parsed) (otherNext parsed) world
        (heap.withParam parsed.event.param) post) :
    MirrorsAt (yaParseEventHeap buf YAEvent.zero size >>= next)
      (match yaParseEvent buf YAEvent.zero size with
        | .error reason => fault reason
        | .ok parsed => otherNext parsed) world heap post := by
  have parses := @yaParseEventHeap_apply F _ heap world buf size
  cases parsing : yaParseEvent buf (YAEvent.zero : YAEvent F) size with
  | error reason =>
      rw [parsing] at parses
      exact ⟨heap, bind_of_fault parses⟩
  | ok parsed =>
      rw [parsing] at parses
      rw [MirrorsAt, bind_of_ok parses]
      exact goesOn parsed parsing

end Parsing

/-! ## Serializing -/

section Serializing

variable {event : YAEvent F} {status : Int} {body : List UInt8}

private theorem writeText_status {text : CString}
    (written : (do let text ← writeCString text; pure ((0 : Int), text)) =
      (.ok (status, body) : Except Fault (Int × List UInt8))) : status = 0 := by
  cases text with
  | none => cases written
  | some bytes =>
      cases written
      rfl

/-- A serializer that returns has the status 0. -/
theorem serializeBody_status (written : serializeBody event = .ok (status, body)) :
    status = 0 := by
  unfold serializeBody at written
  cases known : YAEventType.ofCode? event.header.type with
  | none =>
      simp only [getSerializer, known, Except.ok.injEq, Prod.mk.injEq] at written
      exact written.1.symm
  | some type =>
      cases type <;> simp only [getSerializer, known] at written
      case heartbeat | mouseStop | sessionOption =>
        cases written
        rfl
      case authorize =>
        unfold serializeAuthorizeResponse at written
        split at written
        · rename_i response _
          cases macs : writeCString (some (response.macs.getD [])) with
          | error reason =>
              rw [macs] at written
              cases written
          | ok text =>
              rw [macs] at written
              simp only [except_ok_bind] at written
              split at written <;> cases written <;> rfl
        · cases written
        · cases written
      case textInput =>
        unfold serializeTextInputRequest at written
        split at written
        · exact writeText_status written
        · cases written
        · cases written
      case textGet =>
        unfold serializeTextGetResponse at written
        split at written
        · exact writeText_status written
        · cases written
        · cases written
      case keyboard =>
        unfold serializeKeyboardRequest at written
        split at written <;> cases written
        rfl
      case discover =>
        unfold serializeDiscoverResponse at written
        split at written <;> cases written
        rfl
      all_goals
        unfold serializeCommonRequest at written
        split at written <;> cases written
        rfl

/-- The heap when both buffers of a serialized event have been freed. -/
def Heap.withBytes (heap : Heap) : Heap :=
  (heap.allocated.allocated.allocated.released heap.ledger.next).released
    (heap.ledger.next + 1)

omit [CFloat F] in
theorem buffersFreed {Answer : Type} (heap : Heap) (answer : Answer) :
    (do
      free (some heap.ledger.next)
      free (some heap.allocated.ledger.next)
      pure answer : HeapM Answer) heap.allocated.allocated.allocated =
      (.ok answer, heap.withBytes) := by
  have first : heap.ledger.next ∈
      heap.allocated.allocated.allocated.ledger.live := by
    simp [Heap.allocated]
  have second : heap.allocated.ledger.next ∈
      (heap.allocated.allocated.allocated.released
        heap.ledger.next).ledger.live := by
    simp [Heap.allocated, Heap.released]
  exact (bind_of_ok (free_apply first)).trans (bind_of_ok (free_apply second))

theorem mem_withBytes (heap : Heap) (object : Nat) :
    object ∈ heap.withBytes.ledger.live ↔
      object = heap.ledger.next + 2 ∨ object ∈ heap.ledger.live := by
  have old : object ∈ heap.ledger.live → object < heap.ledger.next :=
    heap.ledger.bounded object
  simp only [Heap.withBytes, Heap.released, Heap.allocated, Ledger.mem_release,
    Ledger.mem_allocate, Ledger.next_allocate]
  constructor
  · rintro ⟨notSecond, notFirst, isThird | isSecond | isFirst | isOld⟩
    · exact Or.inl isThird
    · exact absurd isSecond notSecond
    · exact absurd isFirst notFirst
    · exact Or.inr isOld
  · rintro (isThird | isOld)
    · exact ⟨by omega, by omega, Or.inl isThird⟩
    · have below := old isOld
      exact ⟨by omega, by omega, Or.inr (Or.inr (Or.inr isOld))⟩

/-- The bytes stay in use, and the two other buffers are freed. -/
theorem yaSerializeEventHeap_apply (event : YAEvent F) (heap : Heap) :
    match yaSerializeEvent event with
    | .error reason =>
        ∃ after, yaSerializeEventHeap event heap = (.error reason, after)
    | .ok serialized =>
        serialized.out.isSome = true ∧
          yaSerializeEventHeap event heap =
            (.ok (serialized, some (heap.ledger.next + 2)), heap.withBytes) := by
  have taking {Next : Type} (heap : Heap) (next : Nat → HeapM Next) :
      (malloc >>= next) heap = next heap.ledger.next heap.allocated :=
    rfl
  unfold yaSerializeEvent yaSerializeEventHeap
  rw [taking]
  cases written : serializeBody event with
  | error reason => exact ⟨heap.allocated, rfl⟩
  | ok result =>
      obtain ⟨status, body⟩ := result
      have accepted : ¬ status < 0 := by
        rw [serializeBody_status written]
        decide
      simp only [except_ok_bind, if_neg accepted]
      rw [taking]
      split
      · rename_i reason stops
        split at stops
        · rename_i negative
          cases stops
          rw [if_pos negative]
          exact ⟨_, rfl⟩
        · rename_i positive
          split at stops
          · rename_i short
            cases stops
            rw [if_neg positive, if_pos short]
            exact ⟨_, rfl⟩
          · cases stops
      · rename_i serialized returns
        split at returns
        · cases returns
        rename_i positive
        split at returns
        · cases returns
        rename_i long
        cases returns
        rw [if_neg positive, if_neg long, taking]
        exact ⟨rfl, buffersFreed heap _⟩

/-- The same objects are in use as before. -/
structure Heap.Restored (before after : Heap) : Prop where
  live : after.ledger.live = before.ledger.live
  next : before.ledger.next ≤ after.ledger.next
  error : after.authorizeError = before.authorizeError

omit [CFloat F] in
theorem Heap.Restored.refl (heap : Heap) : heap.Restored heap :=
  ⟨rfl, le_rfl, rfl⟩

private theorem bytesFreed (heap : Heap) :
    heap.Restored (heap.withBytes.released (heap.ledger.next + 2)) where
  live := by
    ext object
    have old : object ∈ heap.ledger.live → object < heap.ledger.next :=
      heap.ledger.bounded object
    rw [Heap.released, Ledger.mem_release, mem_withBytes]
    constructor
    · rintro ⟨notBytes, isBytes | isOld⟩
      · exact absurd isBytes notBytes
      · exact isOld
    · intro isOld
      have below := old isOld
      exact ⟨by omega, Or.inr isOld⟩
  next := Nat.le_add_right heap.ledger.next 3
  error := rfl

/-- What both callbacks do with a response. -/
def answer (deliver : SerializedEvent → List UInt8 → ServerM F Unit)
    (response : Option (YAEvent F)) : ServerM F Unit := do
  match response with
  | none => return ()
  | some response =>
      match yaSerializeEvent response with
      | .error reason => fault reason
      | .ok serialized =>
          match serialized.out with
          | none => return ()
          | some rsp => deliver serialized rsp

theorem answerHeap_mirrors
    (deliver : SerializedEvent → List UInt8 → ServerM F Unit)
    (response : Option (HeapEvent F)) {world : World F} {heap : Heap} :
    MirrorsAt (answerHeap deliver response)
      (answer deliver (response.map HeapEvent.event)) world heap
      fun _ _ after => heap.Restored after := by
  cases response with
  | none => exact mirrorsAt_pure (.refl heap)
  | some response =>
      have serializes := yaSerializeEventHeap_apply response.event heap
      unfold answerHeap answer
      simp only [Option.map_some]
      cases serializing : yaSerializeEvent response.event with
      | error reason =>
          rw [serializing] at serializes
          obtain ⟨after, stops⟩ := serializes
          exact mirrorsAt_onRecord_fault stops
      | ok serialized =>
          rw [serializing] at serializes
          obtain ⟨isSome, returns⟩ := serializes
          obtain ⟨rsp, isBytes⟩ := Option.isSome_iff_exists.mp isSome
          refine mirrorsAt_onRecord returns ?_
          simp only [isBytes]
          refine mirrorsAt_finish (mirrorsAt_unrecorded _) ?_
          rintro _ _ reached _ ⟨-, rfl⟩
          have live : heap.ledger.next + 2 ∈ heap.withBytes.ledger.live :=
            (mem_withBytes heap _).mpr (Or.inl rfl)
          exact mirrorsAt_onRecord_last (free_apply live) (bytesFreed heap)

end Serializing

end MouseHero
