import MouseHero.Server.Releases

/-!
# Requests that give everything back

A callback that returns has given everything back if and only if the request
has no parameters and is not a `TEXT_GET` that is executed, and, for a datagram,
if it is accepted.
-/

namespace MouseHero

open FaultM

variable {F : Type}

/-! ## Leaks -/

/-- An object that has been taken is in use for good: only the message of
`authorize` is ever freed by a later request. -/
def Leaks (since : Nat) (heap : Heap) : Prop :=
  ∃ object, since ≤ object ∧ object ∈ heap.ledger.live ∧
    heap.authorizeError ≠ some object

/-- The same with a response that is still to be freed. -/
def LeaksBehind (since : Nat) (response : Option (HeapEvent F)) (heap : Heap) :
    Prop :=
  ∃ object, since ≤ object ∧ object ∈ heap.ledger.live ∧
    heap.authorizeError ≠ some object ∧
    ∀ event ∈ response, object ∉ event.releasedParam ++ [event.address]

section Leaks

variable {since : Nat} {before heap after : Heap}

theorem Leaks.keep (leaks : Leaks since heap) (keeps : heap.Keeps after) :
    Leaks since after := by
  obtain ⟨object, recent, live, notError⟩ := leaks
  refine ⟨object, recent, keeps.live object live notError, fun isError => ?_⟩
  rcases keeps.error object isError with same | new
  · exact notError same
  · exact absurd (heap.ledger.bounded object live) (by omega)

theorem Leaks.ne (leaks : Leaks before.ledger.next after) :
    after.ledger.live ≠ before.ledger.live := by
  obtain ⟨object, recent, live, -⟩ := leaks
  intro same
  rw [same] at live
  exact absurd (before.ledger.bounded object live) (by omega)

theorem Heap.Restored.keeps (restored : heap.Restored after) : heap.Keeps after where
  live := fun address member _ => by rwa [restored.live]
  next := restored.next
  error := fun address isError => by
    rw [restored.error] at isError
    exact Or.inl isError

theorem Heap.Restored.valid (restored : heap.Restored after) (valid : heap.Valid) :
    after.Valid := by
  intro address isError
  rw [restored.error] at isError
  rw [restored.live]
  exact valid address isError

theorem leaks_withParam (valid : heap.Valid) (param : YAParam F) :
    Leaks heap.ledger.next (heap.withParam (some param)) := by
  refine ⟨heap.ledger.next, le_rfl, next_mem_withParam heap param, fun isError => ?_⟩
  have same : (heap.withParam (some param)).authorizeError = heap.authorizeError := by
    cases param <;> rfl
  rw [same] at isError
  exact valid.ne_next isError

end Leaks

/-! ## Handlers -/

section Handlers

variable {heap : Heap} {world : World F} {bev : Option BevId} {event : YAEvent F}

/-- The parameters of the response stay in use, whether the text has been
copied or not. -/
theorem handleInputGetHeap_leaks (valid : heap.Valid)
    (isTextGet : YAEventType.ofCode? event.header.type = some .textGet) :
    MirrorsAt (handleInputGetHeap bev event) (handleInputGet bev event) world heap
      fun response _ after => LeaksBehind heap.ledger.next response after := by
  have noText : (paramResponse heap event (.inputGet { text := none })).releasedParam =
      [] := by
    simp [HeapEvent.releasedParam, paramResponse, assignResponse, isTextGet]
  have withText (param : YAParam F) (text : Nat) :
      ((paramResponse heap event (.inputGet { text := none })).filled param
        (some text)).releasedParam = [text] := by
    simp [HeapEvent.releasedParam, HeapEvent.filled, paramResponse, assignResponse,
      isTextGet]
  have live : heap.ledger.next + 1 ∈ heap.allocated.allocated.ledger.live :=
    heap.allocated.next_mem_allocated
  have notError : heap.authorizeError ≠ some (heap.ledger.next + 1) :=
    valid.allocated.ne_next
  refine mirrorsAt_onRecord (assignResponseHeap_some heap event _) ?_
  refine mirrorsAt_unrecorded_bind fun text reached _ => ?_
  cases text with
  | none =>
      obtain ⟨after, freed, sameError, -, isLive⟩ :=
        (paramResponse_owned event valid (.inputGet { text := none })).freed
      refine mirrorsAt_onRecord freed (mirrorsAt_pure ?_)
      refine ⟨heap.ledger.next + 1, Nat.le_succ _, (isLive _).mpr ⟨live, ?_⟩, ?_, ?_⟩
      · rw [noText]
        simp [paramResponse]
      · rw [sameError]
        exact notError
      · exact fun _ absent => by cases absent
  | some text =>
      have textLive : heap.allocated.allocated.ledger.next ∈
          heap.allocated.allocated.allocated.allocated.ledger.live :=
        Ledger.mem_allocate.mpr (Or.inr heap.allocated.allocated.next_mem_allocated)
      refine mirrorsAt_onRecord (malloc_apply _) ?_
      refine mirrorsAt_onRecord (malloc_apply _) ?_
      refine mirrorsAt_onRecord (free_apply textLive) (mirrorsAt_pure ?_)
      refine ⟨heap.ledger.next + 1, Nat.le_succ _, ?_, notError, ?_⟩
      · refine Ledger.mem_release.mpr ⟨Nat.ne_of_lt (Nat.lt_succ_self _), ?_⟩
        exact Ledger.mem_allocate.mpr (Or.inr (Ledger.mem_allocate.mpr (Or.inr live)))
      · intro answer isAnswer
        rw [← Option.some.inj isAnswer, withText]
        simp [HeapEvent.filled, paramResponse, Heap.allocated]

/-- Without parameters there is at most a response without parameters. -/
def Bare (before : Heap) (event : YAEvent F) (response : Option (HeapEvent F))
    (after : Heap) : Prop :=
  (response = none ∧ after = before) ∨
    (response = some (bareResponse before event) ∧ after = before.allocated)

private theorem quiet_bare {handling : ServerM F (Option (YAEvent F))}
    (silent : Silent handling) :
    MirrorsAt (quiet handling) handling world heap
      fun response _ after => Bare heap event response after := by
  refine (quiet_mirrors silent).weaken ?_
  rintro response plain after ⟨isNone, -, same⟩
  exact Or.inl ⟨isNone, same⟩

/-- The check of the command index lets an event through unless it is discarded. -/
theorem validateCommandIndex_iff {target : Option ClientId} {reached : World F}
    {executed : Bool}
    (returned : validateCommandIndex target event world = (.ok executed, reached)) :
    executed = true ↔ ¬ Discarded world target event := by
  cases target with
  | none =>
      cases returned
      refine iff_of_true rfl ?_
      rintro ⟨client, entry, absent, -⟩
      cases absent
  | some client =>
      cases stored : world.manager.deref client with
      | some entry =>
          have live : ∀ other, some client = some other →
              (world.manager.deref other).isSome := by
            rintro other same
            rw [← Option.some.inj same, stored]
            rfl
          rcases validateCommandIndex_cases live with
            ⟨discarded, stops⟩ | ⟨notDiscarded, manager, goesOn⟩
          · rw [stops] at returned
            cases returned
            exact iff_of_false (by decide) (not_not.mpr discarded)
          · rw [goesOn] at returned
            cases returned
            exact iff_of_true rfl notDiscarded
      | none =>
          by_cases checked : event.header.direction = REQUEST ∧
              needCommandIndexCheck event.header.type
          · have stops : derefClient client world = (.error .useAfterFree, world) := by
              rw [derefClient, bind_of_ok (getState_apply world), stored]
              rfl
            rw [validateCommandIndex, if_pos checked, bind_of_fault stops] at returned
            cases returned
          · rw [validateCommandIndex_exempt checked] at returned
            cases returned
            refine iff_of_true rfl ?_
            rintro ⟨-, -, -, -, request, needs, -⟩
            exact checked ⟨request, needs⟩

/-- A `TEXT_GET` that is executed. -/
def ExecutesTextGet (world : World F) (target : Option ClientId)
    (event : YAEvent F) : Prop :=
  YAEventType.ofCode? event.header.type = some .textGet ∧
    ¬ Discarded world target event

variable [CFloat F]

private theorem eventHandlerHeap_bare {type : YAEventType} (noParam : event.param = none)
    (notTextGet : type ≠ .textGet) :
    MirrorsAt (eventHandlerHeap type bev event) (eventHandler type bev event) world
      heap fun response _ after => Bare heap event response after := by
  cases type with
  | mouseMove => exact quiet_bare (handleMouseMove_silent bev event)
  | mouseClick => exact quiet_bare (handleMouseClick_silent bev event)
  | mouseWheel => exact quiet_bare (handleMouseScroll_silent bev event)
  | keyboard => exact quiet_bare (handleKeyboard_silent bev event)
  | textInput => exact quiet_bare (handleInputText_silent bev event)
  | textGet => exact absurd rfl notTextGet
  | mouseStop => exact quiet_bare (handleMouseStop_silent bev event)
  | sessionOption => exact quiet_bare (handleSessionOption_silent bev event)
  | heartbeat =>
      exact mirrorsAt_onRecord (assignResponseHeap_none heap event)
        (mirrorsAt_pure (Or.inr ⟨rfl, rfl⟩))
  | discover =>
      simp only [eventHandlerHeap, eventHandler, handleDiscoverHeap, handleDiscover,
        noParam]
      exact mirrorsAt_fault _
  | control =>
      simp only [eventHandlerHeap, eventHandler, handleControlHeap, handleControl,
        noParam]
      exact mirrorsAt_pure (Or.inl ⟨rfl, rfl⟩)
  | authorize =>
      simp only [eventHandlerHeap, eventHandler, handleAuthorizeHeap, handleAuthorize,
        noParam]
      exact mirrorsAt_pure (Or.inl ⟨rfl, rfl⟩)

/-! ## The dispatcher -/

private theorem processServerEventHeap_leaks {target : Option ClientId} (valid : heap.Valid)
    (isTextGet : ExecutesTextGet world target event) :
    MirrorsAt (processServerEventHeap bev event target)
      (processServerEvent bev event target) world heap
      fun response _ after => LeaksBehind heap.ledger.next response after := by
  obtain ⟨known, notDiscarded⟩ := isTextGet
  unfold processServerEventHeap processServerEvent findEventHandler
  rw [known]
  refine mirrorsAt_unrecorded_bind fun executed _ returned => ?_
  rw [(validateCommandIndex_iff returned).mpr notDiscarded]
  refine mirrorsAt_unrecorded_bind fun _ _ _ => ?_
  rw [if_pos rfl, if_pos rfl]
  exact @handleInputGetHeap_leaks F heap _ bev event valid known

private theorem processServerEventHeap_bare {target : Option ClientId}
    (noParam : event.param = none)
    (notTextGet : ¬ ExecutesTextGet world target event) :
    MirrorsAt (processServerEventHeap bev event target)
      (processServerEvent bev event target) world heap
      fun response _ after => Bare heap event response after := by
  unfold processServerEventHeap processServerEvent findEventHandler
  cases known : YAEventType.ofCode? event.header.type with
  | none =>
      refine mirrorsAt_unrecorded_bind fun _ _ _ => ?_
      exact mirrorsAt_pure (Or.inl ⟨rfl, rfl⟩)
  | some type =>
      refine mirrorsAt_unrecorded_bind fun executed _ returned => ?_
      refine mirrorsAt_unrecorded_bind fun _ _ _ => mirrorsAt_ite ?_ ?_
      · intro isExecuted
        apply eventHandlerHeap_bare noParam
        rintro rfl
        exact notTextGet ⟨known, (validateCommandIndex_iff returned).mp isExecuted⟩
      · exact fun _ => mirrorsAt_pure (Or.inl ⟨rfl, rfl⟩)

/-! ## A request -/

/-- What has happened to the heap when the response has been freed. -/
structure Served (world : World F) (target : Option ClientId) (event : YAEvent F)
    (before after : Heap) : Prop where
  keeps : before.Keeps after
  valid : after.Valid
  leaks : ExecutesTextGet world target event → Leaks before.ledger.next after
  restored : event.param = none → ¬ ExecutesTextGet world target event →
    after.ledger.live = before.ledger.live

omit [CFloat F] in
theorem bareResponse_freed {answered freed : Heap}
    (restored : heap.allocated.Restored answered)
    (live : ∀ object, object ∈ freed.ledger.live ↔ object ∈ answered.ledger.live ∧
      object ∉ (bareResponse heap event).releasedParam ++
        [(bareResponse heap event).address]) :
    freed.ledger.live = heap.ledger.live := by
  have released : (bareResponse heap event).releasedParam ++
      [(bareResponse heap event).address] = [heap.ledger.next] :=
    rfl
  ext object
  rw [live, released, restored.live, List.mem_singleton]
  constructor
  · rintro ⟨isLive, other⟩
    exact (Ledger.mem_allocate.mp isLive).resolve_left other
  · intro isLive
    refine ⟨Ledger.mem_allocate.mpr (Or.inr isLive), ?_⟩
    rintro rfl
    exact heap.ledger.next_notMem isLive

/-- What is known when the handler has returned. -/
structure Processed (world : World F) (target : Option ClientId) (event : YAEvent F)
    (before : Heap) (response : Option (HeapEvent F)) (plain : Option (YAEvent F))
    (after : Heap) : Prop where
  answer : Answer before response plain after
  leaks : ExecutesTextGet world target event →
    LeaksBehind before.ledger.next response after
  bare : event.param = none → ¬ ExecutesTextGet world target event →
    Bare before event response after

private theorem processServerEventHeap_processed (target : Option ClientId)
    (valid : heap.Valid) :
    MirrorsAt (processServerEventHeap bev event target)
      (processServerEvent bev event target) world heap
      (Processed world target event heap) := by
  have answers : MirrorsAt (processServerEventHeap bev event target)
      (processServerEvent bev event target) world heap (Answer heap) :=
    processServerEventHeap_mirrors bev event target valid
  by_cases executes : ExecutesTextGet world target event
  · refine (answers.and (processServerEventHeap_leaks valid executes)).weaken ?_
    rintro response plain after ⟨isAnswer, leaks⟩
    exact ⟨isAnswer, fun _ => leaks, fun _ other => absurd executes other⟩
  · by_cases noParam : event.param = none
    · refine (answers.and (processServerEventHeap_bare noParam executes)).weaken ?_
      rintro response plain after ⟨isAnswer, bare⟩
      exact ⟨isAnswer, fun other => absurd other executes, fun _ _ => bare⟩
    · refine answers.weaken fun response plain after isAnswer => ?_
      exact ⟨isAnswer, fun other => absurd other executes,
        fun other => absurd other noParam⟩

omit [CFloat F] in
theorem Processed.served {target : Option ClientId}
    {response : Option (HeapEvent F)} {plain : Option (YAEvent F)}
    {handled answered : Heap}
    (processed : Processed world target event heap response plain handled)
    (restored : handled.Restored answered) :
    ∃ after, yaFreeEvent response answered = (.ok (), after) ∧
      Served world target event heap after := by
  obtain ⟨⟨-, keeps, valid, owned⟩, leaks, bare⟩ := processed
  have keepsAnswered := keeps.trans restored.keeps
  have validAnswered := restored.valid valid
  cases response with
  | none =>
      refine ⟨answered, rfl, keepsAnswered, validAnswered, fun executes => ?_,
        fun noParam other => ?_⟩
      · obtain ⟨object, recent, live, notError, -⟩ := leaks executes
        exact Leaks.keep ⟨object, recent, live, notError⟩ restored.keeps
      · rcases bare noParam other with ⟨-, same⟩ | ⟨absent, -⟩
        · rw [restored.live, same]
        · cases absent
  | some response =>
      obtain ⟨after, freed, keepsFreed, validFreed, sameError, live⟩ :=
        ((owned response rfl).keep restored.keeps).freed_keeps keepsAnswered
          validAnswered
      refine ⟨after, freed, keepsFreed, validFreed, fun executes => ?_,
        fun noParam other => ?_⟩
      · obtain ⟨object, recent, isLive, notError, kept⟩ := leaks executes
        refine ⟨object, recent, (live object).mpr ⟨?_, kept response rfl⟩, ?_⟩
        · rw [restored.live]
          exact isLive
        · rw [sameError, restored.error]
          exact notError
      · rcases bare noParam other with ⟨absent, -⟩ | ⟨isBare, same⟩
        · cases absent
        · rw [Option.some.inj isBare] at live
          rw [same] at restored
          exact bareResponse_freed restored live

/-- A request is processed, answered, and the response is freed. -/
theorem serve_mirrors {target : Option ClientId}
    {deliver : SerializedEvent → List UInt8 → ServerM F Unit}
    {next : LedgerM F Unit} {otherNext : ServerM F Unit}
    {post : Unit → Unit → Heap → Prop} (valid : heap.Valid)
    (goesOn : ∀ reached after, Served world target event heap after →
      MirrorsAt next otherNext reached after post) :
    MirrorsAt
      (do
        let response ← processServerEventHeap bev event target
        answerHeap deliver response
        onRecord (yaFreeEvent response)
        next)
      (do
        let response ← processServerEvent bev event target
        answer deliver response
        otherNext) world heap post := by
  refine mirrorsAt_bind (processServerEventHeap_processed target valid) ?_
  intro response plain reached handled _ processed
  rw [← processed.answer.event]
  refine mirrorsAt_bind (answerHeap_mirrors deliver response) ?_
  intro _ _ reached answered _ restored
  obtain ⟨after, freed, served⟩ := processed.served restored
  exact mirrorsAt_onRecord freed (goesOn reached after served)

end Handlers

end MouseHero
