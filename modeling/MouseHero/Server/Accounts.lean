import MouseHero.Server.Heap
import MouseHero.Server.Responses

/-!
# What the handlers take and give back

The handlers with a ledger do what the handlers do.  They free objects of their
own only, and the message that `authorize` has kept; a response owns its objects.
-/

namespace MouseHero

open FaultM

variable {F : Type}

/-! ## Heaps -/

namespace Heap

/-- The heap behind a `malloc`. -/
def allocated (heap : Heap) : Heap :=
  { heap with ledger := heap.ledger.allocate }

/-- The heap behind a `free`. -/
def released (heap : Heap) (address : Nat) : Heap :=
  { heap with ledger := heap.ledger.release address }

/-- The message of `authorize` is in use. -/
def Valid (heap : Heap) : Prop :=
  ∀ address, heap.authorizeError = some address → address ∈ heap.ledger.live

/-- Objects stay in use, and what is new has a new address.  Only the message
of `authorize` may be freed. -/
structure Keeps (before after : Heap) : Prop where
  live : ∀ address ∈ before.ledger.live, before.authorizeError ≠ some address →
    address ∈ after.ledger.live
  next : before.ledger.next ≤ after.ledger.next
  error : ∀ address, after.authorizeError = some address →
    before.authorizeError = some address ∨ before.ledger.next ≤ address

variable {before middle after heap : Heap} {address : Nat}

theorem Keeps.refl (heap : Heap) : heap.Keeps heap where
  live := fun _ member _ => member
  next := le_rfl
  error := fun _ same => Or.inl same

theorem Keeps.trans (first : before.Keeps middle)
    (second : middle.Keeps after) : before.Keeps after where
  live := by
    intro address member notError
    apply second.live address (first.live address member notError)
    intro isError
    rcases first.error address isError with same | new
    · exact notError same
    · exact absurd (before.ledger.bounded address member) (by omega)
  next := first.next.trans second.next
  error := by
    intro address isError
    rcases second.error address isError with same | new
    · exact first.error address same
    · exact Or.inr (first.next.trans new)

theorem keeps_allocated (heap : Heap) : heap.Keeps heap.allocated where
  live := fun _ member _ => Ledger.mem_allocate.mpr (Or.inr member)
  next := Nat.le_succ _
  error := fun _ same => Or.inl same

theorem Valid.allocated (valid : heap.Valid) : heap.allocated.Valid :=
  fun address same => Ledger.mem_allocate.mpr (Or.inr (valid address same))

theorem Valid.ne_next (valid : heap.Valid) :
    heap.authorizeError ≠ some heap.ledger.next :=
  fun same => heap.ledger.next_notMem (valid _ same)

theorem Keeps.released (keeps : before.Keeps heap)
    (recent : before.ledger.next ≤ address) : before.Keeps (heap.released address) where
  live := by
    intro object member notError
    refine Ledger.mem_release.mpr ⟨?_, keeps.live object member notError⟩
    rintro rfl
    exact absurd (before.ledger.bounded object member) (by omega)
  next := keeps.next
  error := keeps.error

theorem Valid.released (valid : heap.Valid)
    (notError : heap.authorizeError ≠ some address) :
    (heap.released address).Valid := by
  intro object isError
  refine Ledger.mem_release.mpr ⟨?_, valid object isError⟩
  rintro rfl
  exact notError isError

theorem next_mem_allocated (heap : Heap) :
    heap.ledger.next ∈ heap.allocated.ledger.live :=
  Ledger.mem_allocate.mpr (Or.inl rfl)

end Heap

theorem malloc_apply (heap : Heap) :
    malloc heap = (.ok heap.ledger.next, heap.allocated) :=
  rfl

theorem free_apply {heap : Heap} {address : Nat}
    (live : address ∈ heap.ledger.live) :
    free (some address) heap = (.ok (), heap.released address) := by
  refine (bind_of_ok (getState_apply heap)).trans ?_
  rw [if_pos live]
  rfl

/-! ## Freeing -/

/-- A computation frees objects. -/
def Frees (computation : HeapM Unit) (objects : List Nat) : Prop :=
  ∀ heap : Heap, objects.Nodup → (∀ object ∈ objects, object ∈ heap.ledger.live) →
    ∃ after, computation heap = (.ok (), after) ∧
      after.authorizeError = heap.authorizeError ∧
      after.ledger.next = heap.ledger.next ∧
      ∀ object, object ∈ after.ledger.live ↔
        object ∈ heap.ledger.live ∧ object ∉ objects

section Freeing

variable {first second : HeapM Unit} {objects others : List Nat}

theorem frees_pure : Frees (pure ()) [] := by
  intro heap _ _
  exact ⟨heap, rfl, rfl, rfl, by simp⟩

theorem frees_free (pointer : Option Nat) : Frees (free pointer) pointer.toList := by
  cases pointer with
  | none => exact frees_pure
  | some address =>
      intro heap _ live
      have isLive : address ∈ heap.ledger.live := live address (by simp)
      refine ⟨heap.released address, free_apply isLive, rfl, rfl, fun object => ?_⟩
      simp [Heap.released, and_comm]

theorem frees_bind (begins : Frees first objects) (ends : Frees second others) :
    Frees (first >>= fun _ => second) (objects ++ others) := by
  intro heap distinct live
  rw [List.nodup_append] at distinct
  obtain ⟨firstDistinct, secondDistinct, apart⟩ := distinct
  obtain ⟨middle, begun, sameError, sameNext, isMiddle⟩ := begins heap firstDistinct
    fun object member => live object (List.mem_append_left _ member)
  obtain ⟨after, ended, lastError, lastNext, isAfter⟩ := ends middle secondDistinct
    fun object member => (isMiddle object).mpr
      ⟨live object (List.mem_append_right _ member),
        fun inFirst => apart object inFirst object member rfl⟩
  refine ⟨after, (bind_of_ok begun).trans ended, lastError.trans sameError,
    lastNext.trans sameNext, fun object => ?_⟩
  rw [isAfter, isMiddle, List.mem_append, not_or, and_assoc]

end Freeing

/-! ## Responses -/

namespace HeapEvent

/-- The objects of an event. -/
def objects (event : HeapEvent F) : List Nat :=
  event.text.toList ++ event.param.toList ++ [event.address]

/-- The objects that `ya_free_event_param` frees. -/
def releasedParam (event : HeapEvent F) : List Nat :=
  match event.param with
  | none => []
  | some param =>
      match YAEventType.ofCode? event.event.header.type with
      | some .textInput | some .textGet => event.text.toList
      | some .authorize =>
          if event.event.header.direction = RESPONSE then
            event.text.toList ++ [param]
          else [param]
      | _ => [param]

/-- The objects are in use, were taken since an address was the next one, and
are not the message of `authorize`. -/
structure Owned (event : HeapEvent F) (since : Nat) (heap : Heap) : Prop where
  distinct : event.objects.Nodup
  live : ∀ object ∈ event.objects, object ∈ heap.ledger.live
  recent : ∀ object ∈ event.objects, since ≤ object
  error : ∀ object ∈ event.objects, heap.authorizeError ≠ some object

variable {event : HeapEvent F} {since : Nat} {heap after : Heap}

theorem frees_param (event : HeapEvent F) :
    Frees (yaFreeEventParam event) event.releasedParam := by
  unfold yaFreeEventParam releasedParam
  cases event.param with
  | none => exact frees_pure
  | some param =>
      have freesParam : Frees (free (some param)) [param] := frees_free (some param)
      cases YAEventType.ofCode? event.event.header.type with
      | none => exact freesParam
      | some type =>
          cases type with
          | textInput => exact frees_free event.text
          | textGet => exact frees_free event.text
          | authorize =>
              simp only
              split
              · exact frees_bind (frees_free event.text) freesParam
              · exact freesParam
          | _ => exact freesParam

theorem frees_event (event : HeapEvent F) :
    Frees (yaFreeEvent (some event)) (event.releasedParam ++ [event.address]) :=
  frees_bind event.frees_param (frees_free (some event.address))

theorem releasedParam_sublist (event : HeapEvent F) :
    event.releasedParam.Sublist (event.text.toList ++ event.param.toList) := by
  unfold releasedParam
  cases event.param with
  | none => exact List.nil_sublist _
  | some param =>
      simp only
      split
      · exact List.sublist_append_left _ _
      · exact List.sublist_append_left _ _
      · split
        · exact List.Sublist.refl _
        · exact List.sublist_append_right _ _
      · exact List.sublist_append_right _ _

theorem Owned.freed (owned : event.Owned since heap) :
    ∃ after, yaFreeEvent (some event) heap = (.ok (), after) ∧
      after.authorizeError = heap.authorizeError ∧
      after.ledger.next = heap.ledger.next ∧
      ∀ object, object ∈ after.ledger.live ↔
        object ∈ heap.ledger.live ∧
          object ∉ event.releasedParam ++ [event.address] := by
  have part : (event.releasedParam ++ [event.address]).Sublist event.objects :=
    event.releasedParam_sublist.append (List.Sublist.refl _)
  exact event.frees_event heap (part.nodup owned.distinct)
    fun object member => owned.live object (part.subset member)

theorem Owned.freed_keeps {before : Heap} (owned : event.Owned before.ledger.next heap)
    (keeps : before.Keeps heap) (valid : heap.Valid) :
    ∃ after, yaFreeEvent (some event) heap = (.ok (), after) ∧
      before.Keeps after ∧ after.Valid ∧
      after.authorizeError = heap.authorizeError ∧
      ∀ object, object ∈ after.ledger.live ↔
        object ∈ heap.ledger.live ∧
          object ∉ event.releasedParam ++ [event.address] := by
  obtain ⟨after, freed, sameError, sameNext, live⟩ := owned.freed
  have part : ∀ object ∈ event.releasedParam ++ [event.address],
      object ∈ event.objects := fun object member =>
    (event.releasedParam_sublist.append (List.Sublist.refl _)).subset member
  refine ⟨after, freed, ⟨?_, ?_, ?_⟩, ?_, sameError, live⟩
  · intro address member notError
    refine (live address).mpr ⟨keeps.live address member notError, fun freedHere => ?_⟩
    have recent := owned.recent address (part address freedHere)
    exact absurd (before.ledger.bounded address member) (by omega)
  · rw [sameNext]
    exact keeps.next
  · rw [sameError]
    exact keeps.error
  · intro address isError
    rw [sameError] at isError
    refine (live address).mpr ⟨valid address isError, fun freedHere => ?_⟩
    exact owned.error address (part address freedHere) isError

theorem Owned.keep (owned : event.Owned since heap) (keeps : heap.Keeps after) :
    event.Owned since after where
  distinct := owned.distinct
  live := fun object member =>
    keeps.live object (owned.live object member) (owned.error object member)
  recent := owned.recent
  error := by
    intro object member isError
    rcases keeps.error object isError with same | new
    · exact owned.error object member same
    · have bounded := heap.ledger.bounded object (owned.live object member)
      omega

theorem Owned.released {address : Nat} (owned : event.Owned since heap)
    (other : address ∉ event.objects) : event.Owned since (heap.released address) where
  distinct := owned.distinct
  live := by
    intro object member
    refine Ledger.mem_release.mpr ⟨?_, owned.live object member⟩
    rintro rfl
    exact other member
  recent := owned.recent
  error := owned.error

theorem Owned.filled (owned : event.Owned since heap) (noText : event.text = none)
    (valid : heap.Valid) (param : YAParam F) (recent : since ≤ heap.ledger.next) :
    (event.filled param (some heap.ledger.next)).Owned since heap.allocated := by
  have objects : (event.filled param (some heap.ledger.next)).objects =
      heap.ledger.next :: event.objects := by
    simp [HeapEvent.objects, HeapEvent.filled, noText]
  have absent : heap.ledger.next ∉ event.objects := fun member =>
    heap.ledger.next_notMem (owned.live _ member)
  constructor
  · rw [objects]
    exact List.nodup_cons.mpr ⟨absent, owned.distinct⟩
  · rw [objects, List.forall_mem_cons]
    exact ⟨heap.next_mem_allocated, fun object member =>
      Ledger.mem_allocate.mpr (Or.inr (owned.live object member))⟩
  · rw [objects, List.forall_mem_cons]
    exact ⟨recent, owned.recent⟩
  · rw [objects, List.forall_mem_cons]
    exact ⟨valid.ne_next, owned.error⟩

end HeapEvent

/-! ## Handlers -/

/-- What a handler leaves behind: nothing that was in use is freed, and the
response owns its objects. -/
structure Answer (before : Heap) (response : Option (HeapEvent F))
    (plain : Option (YAEvent F)) (after : Heap) : Prop where
  event : response.map HeapEvent.event = plain
  keeps : before.Keeps after
  valid : after.Valid
  owned : ∀ event ∈ response, event.Owned before.ledger.next after

section Handlers

variable {heap : Heap} {world : World F}

theorem Answer.none (valid : heap.Valid) :
    Answer heap (none : Option (HeapEvent F)) none heap where
  event := rfl
  keeps := .refl heap
  valid := valid
  owned := fun _ absent => by cases absent

theorem Answer.some {before after : Heap} {response : HeapEvent F}
    (keeps : before.Keeps after) (valid : after.Valid)
    (owned : response.Owned before.ledger.next after) :
    Answer before (some response) (some response.event) after where
  event := rfl
  keeps := keeps
  valid := valid
  owned := by
    intro event isEvent
    rwa [← Option.some.inj isEvent]

theorem quiet_mirrors {handling : ServerM F (Option (YAEvent F))}
    (silent : Silent handling) :
    MirrorsAt (quiet handling) handling world heap
      fun response plain after => response = none ∧ plain = none ∧ after = heap := by
  unfold MirrorsAt
  cases handled : handling world with
  | mk outcome reached =>
      have isUnrecorded :
          (unrecorded handling : LedgerM F (Option (YAEvent F))) (world, heap) =
            (outcome, (reached, heap)) := by
        rw [unrecorded, handled]
      cases outcome with
      | error reason => exact ⟨heap, bind_of_fault isUnrecorded⟩
      | ok value =>
          exact ⟨none, heap, bind_of_ok isUnrecorded, rfl,
            silent _ _ _ handled, rfl⟩

theorem quiet_answer {handling : ServerM F (Option (YAEvent F))}
    (silent : Silent handling) (valid : heap.Valid) :
    MirrorsAt (quiet handling) handling world heap (Answer heap) := by
  refine (quiet_mirrors silent).weaken ?_
  rintro response plain after ⟨rfl, rfl, rfl⟩
  exact .none valid

variable (bev : Option BevId) (event : YAEvent F)

/-- A response without parameters. -/
def bareResponse (heap : Heap) (event : YAEvent F) : HeapEvent F where
  event := assignResponse event none
  address := heap.ledger.next
  param := none
  text := none

/-- A response with parameters. -/
def paramResponse (heap : Heap) (event : YAEvent F) (param : YAParam F) :
    HeapEvent F where
  event := assignResponse event (some param)
  address := heap.ledger.next
  param := some (heap.ledger.next + 1)
  text := none

theorem assignResponseHeap_none (heap : Heap) (event : YAEvent F) :
    assignResponseHeap event none heap =
      (.ok (bareResponse heap event), heap.allocated) :=
  rfl

theorem assignResponseHeap_some (heap : Heap) (event : YAEvent F)
    (param : YAParam F) :
    assignResponseHeap event (some param) heap =
      (.ok (paramResponse heap event param), heap.allocated.allocated) :=
  rfl

theorem bareResponse_answer (valid : heap.Valid) :
    Answer heap (some (bareResponse heap event)) (some (assignResponse event none))
      heap.allocated := by
  apply Answer.some heap.keeps_allocated valid.allocated
  constructor
  · simp [HeapEvent.objects, bareResponse]
  · simp [HeapEvent.objects, bareResponse, heap.next_mem_allocated]
  · simp [HeapEvent.objects, bareResponse]
  · have notNext : heap.allocated.authorizeError ≠ some heap.ledger.next :=
      valid.ne_next
    simpa [HeapEvent.objects, bareResponse] using notNext

theorem paramResponse_owned (valid : heap.Valid) (param : YAParam F) :
    (paramResponse heap event param).Owned heap.ledger.next
      heap.allocated.allocated := by
  have second : heap.ledger.next + 1 ∈ heap.allocated.allocated.ledger.live :=
    heap.allocated.next_mem_allocated
  have first : heap.ledger.next ∈ heap.allocated.allocated.ledger.live :=
    Ledger.mem_allocate.mpr (Or.inr heap.next_mem_allocated)
  have notFirst : heap.allocated.allocated.authorizeError ≠ some heap.ledger.next :=
    valid.ne_next
  have notSecond :
      heap.allocated.allocated.authorizeError ≠ some (heap.ledger.next + 1) :=
    valid.allocated.ne_next
  constructor
  · simp [HeapEvent.objects, paramResponse]
  · simp [HeapEvent.objects, paramResponse, first, second]
  · simp [HeapEvent.objects, paramResponse]
  · simpa [HeapEvent.objects, paramResponse] using ⟨notSecond, notFirst⟩

theorem keeps_twice (heap : Heap) : heap.Keeps heap.allocated.allocated :=
  heap.keeps_allocated.trans heap.allocated.keeps_allocated

theorem handleHeartbeatHeap_mirrors (valid : heap.Valid) :
    MirrorsAt (handleHeartbeatHeap bev event) (handleHeartbeat bev event) world heap
      (Answer heap) :=
  mirrorsAt_onRecord (assignResponseHeap_none heap event)
    (mirrorsAt_pure (bareResponse_answer event valid))

theorem handlePowerHeap_mirrors (valid : heap.Valid) (script command : String) :
    MirrorsAt (handlePowerHeap script command bev event)
      (handlePower script command bev event) world heap (Answer heap) := by
  refine mirrorsAt_onRecord (assignResponseHeap_none heap event) ?_
  refine mirrorsAt_unrecorded_bind fun ret reached _ => mirrorsAt_ite ?_ ?_
  · intro _
    refine mirrorsAt_unrecorded_bind fun _ _ _ => ?_
    exact mirrorsAt_pure (bareResponse_answer event valid)
  · intro _
    exact mirrorsAt_pure (bareResponse_answer event valid)

theorem handleControlHeap_mirrors (valid : heap.Valid) :
    MirrorsAt (handleControlHeap bev event) (handleControl bev event) world heap
      (Answer heap) := by
  unfold handleControlHeap handleControl
  cases event.param with
  | none => exact mirrorsAt_pure (.none valid)
  | some param =>
      cases param with
      | common request =>
          refine mirrorsAt_ite
            (fun _ => handlePowerHeap_mirrors bev event valid _ _) fun _ => ?_
          refine mirrorsAt_ite
            (fun _ => handlePowerHeap_mirrors bev event valid _ _) fun _ => ?_
          refine mirrorsAt_ite
            (fun _ => handlePowerHeap_mirrors bev event valid _ _) fun _ => ?_
          exact mirrorsAt_onRecord (assignResponseHeap_none heap event)
            (mirrorsAt_pure (bareResponse_answer event valid))
      | _ => exact mirrorsAt_fault _

theorem handleDiscoverHeap_mirrors (valid : heap.Valid) :
    MirrorsAt (handleDiscoverHeap bev event) (handleDiscover bev event) world heap
      (Answer heap) := by
  unfold handleDiscoverHeap handleDiscover
  cases event.param with
  | none => exact mirrorsAt_fault _
  | some param =>
      cases param with
      | discoverRequest request =>
          refine mirrorsAt_ite (fun _ => mirrorsAt_pure (.none valid)) fun _ => ?_
          refine mirrorsAt_onRecord (assignResponseHeap_some heap event _) ?_
          refine mirrorsAt_unrecorded_bind fun reached _ _ => mirrorsAt_pure ?_
          have owned := paramResponse_owned event valid
            (.discoverResponse { magic := DISCOVERY_MAGIC, port := reached.sessionPort })
          exact Answer.some (keeps_twice heap) valid.allocated.allocated owned
      | _ => exact mirrorsAt_fault _

/-! ### The clipboard -/

/-- A response that is given up leaves its parameters behind. -/
theorem paramResponse_freed (valid : heap.Valid) (param : YAParam F) :
    ∃ after, yaFreeEvent (some (paramResponse heap event param))
        heap.allocated.allocated = (.ok (), after) ∧
      heap.Keeps after ∧ after.Valid := by
  obtain ⟨after, freed, keeps, stillValid, -⟩ :=
    (paramResponse_owned event valid param).freed_keeps (keeps_twice heap)
      valid.allocated.allocated
  exact ⟨after, freed, keeps, stillValid⟩

theorem handleInputGetHeap_mirrors (valid : heap.Valid) :
    MirrorsAt (handleInputGetHeap bev event) (handleInputGet bev event) world heap
      (Answer heap) := by
  refine mirrorsAt_onRecord (assignResponseHeap_some heap event _) ?_
  refine mirrorsAt_unrecorded_bind fun text reached _ => ?_
  cases text with
  | none =>
      obtain ⟨after, freed, keeps, stillValid⟩ :=
        paramResponse_freed event valid (.inputGet { text := none })
      refine mirrorsAt_onRecord freed (mirrorsAt_pure ?_)
      exact {
        event := rfl
        keeps := keeps
        valid := stillValid
        owned := fun _ absent => by cases absent }
  | some text =>
      have validTaken := valid.allocated.allocated
      have taken := paramResponse_owned event valid (.inputGet { text := none })
      have keepsTaken := keeps_twice heap
      generalize heap.allocated.allocated = middle at *
      -- The text of the clipboard and its copy are taken, and the text is freed.
      have owned := (taken.keep middle.keeps_allocated).filled rfl
        validTaken.allocated (.inputGet { text := some (cString text) })
        (keepsTaken.next.trans (Nat.le_succ _))
      have live : middle.ledger.next ∈ middle.allocated.allocated.ledger.live :=
        Ledger.mem_allocate.mpr (Or.inr middle.next_mem_allocated)
      have other : middle.ledger.next ∉
          ((paramResponse heap event (.inputGet { text := none })).filled
            (.inputGet { text := some (cString text) })
            (some middle.allocated.ledger.next)).objects := by
        intro member
        rcases List.mem_cons.mp member with isCopy | isOld
        · exact absurd isCopy (Nat.ne_of_lt (Nat.lt_succ_self _))
        · exact middle.ledger.next_notMem (taken.live _ isOld)
      refine mirrorsAt_onRecord (malloc_apply middle) ?_
      refine mirrorsAt_onRecord (malloc_apply middle.allocated) ?_
      refine mirrorsAt_onRecord (free_apply live) (mirrorsAt_pure ?_)
      exact Answer.some
        ((keepsTaken.trans (keeps_twice middle)).released keepsTaken.next)
        (validTaken.allocated.allocated.released validTaken.ne_next)
        (owned.released other)

/-! ### Authorization -/

/-- The message of the last refusal is freed first. -/
def Heap.withoutError (heap : Heap) : Heap where
  ledger :=
    match heap.authorizeError with
    | none => heap.ledger
    | some address => heap.ledger.release address
  authorizeError := none

private theorem keeps_withoutError (heap : Heap) : heap.Keeps heap.withoutError where
  live := by
    intro address member notError
    rw [Heap.withoutError]
    cases isError : heap.authorizeError with
    | none => exact member
    | some other =>
        refine Ledger.mem_release.mpr ⟨?_, member⟩
        rintro rfl
        exact notError isError
  next := by
    rw [Heap.withoutError]
    cases heap.authorizeError with
    | none => exact le_rfl
    | some other => exact le_rfl
  error := fun _ absent => by cases absent

private theorem authorizeHeap_apply (valid : heap.Valid)
    (request : YAAuthorizeEventRequest) :
    ∃ after, authorizeHeap request heap = (.ok (authorize request), after) ∧
      heap.Keeps after ∧ after.Valid := by
  obtain ⟨middle, freed, cleared⟩ : ∃ middle,
      free heap.authorizeError heap = (.ok (), middle) ∧
        { middle with authorizeError := none } = heap.withoutError := by
    rw [Heap.withoutError]
    cases isError : heap.authorizeError with
    | none => exact ⟨heap, rfl, by simp⟩
    | some address => exact ⟨_, free_apply (valid address isError), rfl⟩
  have begins : authorizeHeap request heap =
      (if authorize request then pure true
        else do
          let message ← malloc
          modifyState fun heap => { heap with authorizeError := some message }
          return false) heap.withoutError := by
    rw [← cleared]
    exact (bind_of_ok (getState_apply heap)).trans (bind_of_ok freed)
  rw [begins]
  have keeps := keeps_withoutError heap
  cases authorize request with
  | true => exact ⟨_, rfl, keeps, fun _ absent => by cases absent⟩
  | false =>
      refine ⟨_, rfl, ⟨?_, ?_, ?_⟩, ?_⟩
      · intro address member notError
        exact Ledger.mem_allocate.mpr (Or.inr (keeps.live address member notError))
      · exact keeps.next.trans (Nat.le_succ _)
      · intro address isError
        rw [← Option.some.inj isError]
        exact Or.inr keeps.next
      · intro address isError
        rw [← Option.some.inj isError]
        exact heap.withoutError.next_mem_allocated

variable [CFloat F]

theorem handleAuthorizeHeap_mirrors (valid : heap.Valid) :
    MirrorsAt (handleAuthorizeHeap bev event) (handleAuthorize bev event) world heap
      (Answer heap) := by
  unfold handleAuthorizeHeap handleAuthorize
  cases event.param with
  | none => exact mirrorsAt_pure (.none valid)
  | some param =>
      cases param with
      | authorizeRequest request =>
          have taken := paramResponse_owned event valid
            (.authorizeResponse (zeroAuthorization : YAAuthorizeEventResponse F))
          have keepsTaken := keeps_twice heap
          obtain ⟨middle, asked, keepsAsked, validAsked⟩ :=
            authorizeHeap_apply valid.allocated.allocated request
          refine mirrorsAt_onRecord (assignResponseHeap_some heap event _) ?_
          refine mirrorsAt_onRecord asked ?_
          have keeps := keepsTaken.trans keepsAsked
          have owned := taken.keep keepsAsked
          -- Both answers get a copy of the addresses.
          have filled (response : YAAuthorizeEventResponse F) :=
            Answer.some (keeps.trans middle.keeps_allocated) validAsked.allocated
              (owned.filled rfl validAsked (.authorizeResponse response) keeps.next)
          refine mirrorsAt_ite (fun _ => ?_) fun _ => ?_
          · refine mirrorsAt_unrecorded_bind fun fd reached _ => ?_
            refine mirrorsAt_unrecorded_bind fun current reached _ => ?_
            cases yaClientFindByFd current.manager fd with
            | none =>
                cases bev with
                | none => exact mirrorsAt_fault _
                | some bev =>
                    obtain ⟨after, freed, keepsFreed, validFreed, -⟩ :=
                      owned.freed_keeps keeps validAsked
                    refine mirrorsAt_onRecord freed ?_
                    refine mirrorsAt_unrecorded_bind fun _ _ _ => mirrorsAt_pure ?_
                    exact {
                      event := rfl
                      keeps := keepsFreed
                      valid := validFreed
                      owned := fun _ absent => by cases absent }
            | some client =>
                refine mirrorsAt_unrecorded_bind fun _ _ _ => ?_
                refine mirrorsAt_onRecord (malloc_apply middle) (mirrorsAt_pure ?_)
                exact filled (grantedAuthorization current client request)
          · refine mirrorsAt_onRecord (malloc_apply middle) (mirrorsAt_pure ?_)
            exact filled (refusedAuthorization request)
      | _ => exact mirrorsAt_fault _

private theorem eventHandlerHeap_mirrors (type : YAEventType) (valid : heap.Valid) :
    MirrorsAt (eventHandlerHeap type bev event) (eventHandler type bev event) world
      heap (Answer heap) := by
  cases type with
  | mouseMove => exact quiet_answer (handleMouseMove_silent bev event) valid
  | mouseClick => exact quiet_answer (handleMouseClick_silent bev event) valid
  | mouseWheel => exact quiet_answer (handleMouseScroll_silent bev event) valid
  | keyboard => exact quiet_answer (handleKeyboard_silent bev event) valid
  | textInput => exact quiet_answer (handleInputText_silent bev event) valid
  | textGet => exact handleInputGetHeap_mirrors bev event valid
  | discover => exact handleDiscoverHeap_mirrors bev event valid
  | mouseStop => exact quiet_answer (handleMouseStop_silent bev event) valid
  | control => exact handleControlHeap_mirrors bev event valid
  | authorize => exact handleAuthorizeHeap_mirrors bev event valid
  | heartbeat => exact handleHeartbeatHeap_mirrors bev event valid
  | sessionOption => exact quiet_answer (handleSessionOption_silent bev event) valid

theorem processServerEventHeap_mirrors (client : Option ClientId)
    (valid : heap.Valid) :
    MirrorsAt (processServerEventHeap bev event client)
      (processServerEvent bev event client) world heap (Answer heap) := by
  unfold processServerEventHeap processServerEvent findEventHandler
  cases YAEventType.ofCode? event.header.type with
  | none =>
      refine mirrorsAt_unrecorded_bind fun _ _ _ => ?_
      exact mirrorsAt_pure (.none valid)
  | some type =>
      refine mirrorsAt_unrecorded_bind fun executed _ _ => ?_
      refine mirrorsAt_unrecorded_bind fun _ _ _ => mirrorsAt_ite ?_ ?_
      · exact fun _ => eventHandlerHeap_mirrors bev event type valid
      · exact fun _ => mirrorsAt_pure (.none valid)

end Handlers

end MouseHero
