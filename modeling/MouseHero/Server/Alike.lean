import MouseHero.Library.Agreement
import MouseHero.Server.Isolation

/-!
# Worlds that a request cannot tell apart

Apart from `handle_authorize`, the dispatcher reads neither the reference counts
nor the bufferevents, nor what has been sent.  From worlds that agree on the
rest it returns the same, on a connection as without one.
-/

namespace MouseHero

open FaultM YaClientManager

variable {F : Type}

/-- Up to the reference counts, the bufferevents, what has been sent and the record of
the calls the worlds are the same. -/
structure World.Alike (first second : World F) : Prop where
  clients :
    first.manager.view YaClient.uncounted = second.manager.view YaClient.uncounted
  throttle : first.throttle = second.throttle
  sessionPort : first.sessionPort = second.sessionPort
  commandPort : first.commandPort = second.commandPort
  macsCsv : first.macsCsv = second.macsCsv
  stats : first.stats = second.stats
  devices : first.devices = second.devices
  clock : first.clock = second.clock
  primaryScale : first.primaryScale = second.primaryScale

section Alike

variable {first second third : World F}

theorem World.Alike.symm (alike : first.Alike second) : second.Alike first :=
  ⟨alike.clients.symm, alike.throttle.symm, alike.sessionPort.symm,
    alike.commandPort.symm, alike.macsCsv.symm, alike.stats.symm, alike.devices.symm,
    alike.clock.symm, alike.primaryScale.symm⟩

theorem World.Alike.trans (begins : first.Alike second) (goesOn : second.Alike third) :
    first.Alike third :=
  ⟨begins.clients.trans goesOn.clients, begins.throttle.trans goesOn.throttle,
    begins.sessionPort.trans goesOn.sessionPort,
    begins.commandPort.trans goesOn.commandPort, begins.macsCsv.trans goesOn.macsCsv,
    begins.stats.trans goesOn.stats, begins.devices.trans goesOn.devices,
    begins.clock.trans goesOn.clock, begins.primaryScale.trans goesOn.primaryScale⟩

/-- The table is another one, with the same clients up to their reference counts. -/
theorem World.alike_of_manager {manager : YaClientManager F}
    (same : first.manager.view YaClient.uncounted = manager.view YaClient.uncounted) :
    first.Alike { first with manager } :=
  ⟨same, rfl, rfl, rfl, rfl, rfl, rfl, rfl, rfl⟩

theorem World.alike_setBev (world : World F) (bev : BevId)
    (contents : Option Bufferevent) : world.Alike (world.setBev bev contents) :=
  ⟨rfl, rfl, rfl, rfl, rfl, rfl, rfl, rfl, rfl⟩

theorem World.alike_sent (world : World F) (sent : List (List UInt8)) :
    world.Alike { world with sent } :=
  ⟨rfl, rfl, rfl, rfl, rfl, rfl, rfl, rfl, rfl⟩

/-- In both worlds a client is found or none is. -/
theorem World.Alike.find (alike : first.Alike second) (uid : UInt32) :
    (yaClientFindByUid first.manager uid = none ∧
      yaClientFindByUid second.manager uid = none) ∨
    ∃ client other, yaClientFindByUid first.manager uid = some client ∧
      yaClientFindByUid second.manager uid = some other ∧
      client.uncounted = other.uncounted := by
  have same := findByUid_of_view_eq alike.clients (fun _ => rfl) (fun _ => rfl) uid
  cases isFirst : yaClientFindByUid first.manager uid with
  | none =>
      rw [isFirst] at same
      exact Or.inl ⟨rfl, Option.map_eq_none_iff.mp same.symm⟩
  | some client =>
      rw [isFirst] at same
      obtain ⟨other, isSecond, isSame⟩ := Option.map_eq_some_iff.mp same.symm
      exact Or.inr ⟨client, other, rfl, isSecond, isSame.symm⟩

theorem World.Alike.deref (alike : first.Alike second) (client : ClientId) :
    (first.manager.deref client = none ∧ second.manager.deref client = none) ∨
    ∃ entry other, first.manager.deref client = some entry ∧
      second.manager.deref client = some other ∧ entry.uncounted = other.uncounted := by
  have same := deref_of_view_eq alike.clients (fun _ => rfl) client
  cases isFirst : first.manager.deref client with
  | none =>
      rw [isFirst] at same
      exact Or.inl ⟨rfl, Option.map_eq_none_iff.mp same.symm⟩
  | some entry =>
      rw [isFirst] at same
      obtain ⟨other, isSecond, isSame⟩ := Option.map_eq_some_iff.mp same.symm
      exact Or.inr ⟨entry, other, rfl, isSecond, isSame.symm⟩

/-- A change that does not look at the reference count can be made on the reduced
table. -/
theorem view_uncounted_write {manager : YaClientManager F} (client : ClientId)
    {change : YaClient F → YaClient F}
    (commutes : ∀ entry, (change entry).uncounted = change entry.uncounted) :
    (manager.write client change).view YaClient.uncounted =
      (manager.view YaClient.uncounted).write client change := by
  have sameBuckets :
      ((manager.write client change).view YaClient.uncounted).buckets =
        ((manager.view YaClient.uncounted).write client change).buckets := by
    funext bucket
    simp only [view, write, ChainedTable.update, List.map_map]
    apply List.map_congr_left
    intro entry _
    simp only [Function.comp_apply]
    by_cases isClient : entry.addr = client
    · rw [if_pos isClient, commutes]
      exact (if_pos isClient).symm
    · rw [if_neg isClient]
      exact (if_neg isClient).symm
  exact congrArg (fun buckets => { manager with buckets }) sameBuckets

end Alike

/-! ## Operations -/

/-- In worlds that are alike the computations do the same. -/
abbrev SameAnswers {Answer : Type} (first second : ServerM F Answer) : Prop :=
  Agree World.Alike first second

section Operations

variable {Answer : Type}

theorem onDevices_sameAnswers (computation : DeviceM Answer) :
    SameAnswers (onDevices computation : ServerM F Answer) (onDevices computation) :=
  agree_within computation (fun _ _ alike => alike.devices)
    fun _ _ _ alike => { alike with devices := rfl }

theorem setThrottle_sameAnswers (throttle : YAMouseThrottleState) :
    SameAnswers (setThrottle throttle : ServerM F Unit) (setThrottle throttle) :=
  agree_modifyState fun _ _ alike => { alike with throttle := rfl }

theorem recordCall_sameAnswers (call other : ServerCall F) :
    SameAnswers (recordCall call) (recordCall other) :=
  agree_modifyState fun _ _ alike => { alike with }

theorem writeClient_sameAnswers (client : ClientId) {change : YaClient F → YaClient F}
    (commutes : ∀ entry, (change entry).uncounted = change entry.uncounted) :
    SameAnswers (writeClient client change) (writeClient client change) :=
  agree_modifyState fun _ _ alike => { alike with
    clients := by
      rw [view_uncounted_write client commutes, view_uncounted_write client commutes,
        alike.clients] }

end Operations

/-! ## Handlers -/

theorem commonRequest_sameAnswers (event : YAEvent F) :
    SameAnswers (commonRequest event) (commonRequest event) := by
  unfold commonRequest
  cases event.param with
  | none => exact agree_pure _
  | some param =>
      apply agree_ite (agree_pure _)
      cases param
      case common request => exact agree_pure _
      all_goals exact agree_fault _

/-- A call of the devices whose answer is dropped. -/
theorem dropAnswer_sameAnswers {Answer Next : Type} (computation : DeviceM Answer)
    (response : Next) :
    SameAnswers (do let _ ← (onDevices computation : ServerM F Answer); return response)
      (do let _ ← onDevices computation; return response) :=
  agree_bind (onDevices_sameAnswers computation) fun _ => agree_pure _

theorem handleMouseClick_sameAnswers (bev other : Option BevId) (event : YAEvent F) :
    SameAnswers (handleMouseClick bev event) (handleMouseClick other event) := by
  apply agree_bind (commonRequest_sameAnswers event)
  intro request
  cases request with
  | none => exact agree_pure _
  | some request =>
      simp only
      split
      · exact dropAnswer_sameAnswers _ _
      · exact agree_pure _

theorem handleMouseScroll_sameAnswers (bev other : Option BevId) (event : YAEvent F) :
    SameAnswers (handleMouseScroll bev event) (handleMouseScroll other event) := by
  apply agree_bind (commonRequest_sameAnswers event)
  intro request
  cases request with
  | none => exact agree_pure _
  | some request => exact agree_ite (agree_pure _) (dropAnswer_sameAnswers _ _)

theorem handleKeyboard_sameAnswers (bev other : Option BevId) (event : YAEvent F) :
    SameAnswers (handleKeyboard bev event) (handleKeyboard other event) := by
  unfold handleKeyboard
  cases event.param with
  | none => exact agree_pure _
  | some param =>
      apply agree_ite (agree_pure _)
      cases param
      case keyboard request =>
        simp only
        cases keyDirection request.op with
        | none => exact agree_pure _
        | some direction =>
            apply agree_ite (dropAnswer_sameAnswers _ _)
            cases ckeyFromProtocol request.code with
            | none => exact agree_pure _
            | some key => exact dropAnswer_sameAnswers _ _
      all_goals exact agree_fault _

theorem handleInputText_sameAnswers (bev other : Option BevId) (event : YAEvent F) :
    SameAnswers (handleInputText bev event) (handleInputText other event) := by
  unfold handleInputText
  cases event.param with
  | none => exact agree_fault _
  | some param =>
      cases param
      case textInput request => exact dropAnswer_sameAnswers _ _
      all_goals exact agree_fault _

theorem handleInputGet_sameAnswers (bev other : Option BevId) (event : YAEvent F) :
    SameAnswers (handleInputGet bev event) (handleInputGet other event) := by
  apply agree_bind (onDevices_sameAnswers _)
  intro text
  cases text <;> exact agree_pure _

theorem handlePower_sameAnswers (script command : String) (bev other : Option BevId)
    (event : YAEvent F) :
    SameAnswers (handlePower script command bev event)
      (handlePower script command other event) := by
  apply agree_bind (onDevices_sameAnswers _)
  intro ret
  exact agree_ite (dropAnswer_sameAnswers _ _) (agree_pure _)

theorem handleControl_sameAnswers (bev other : Option BevId) (event : YAEvent F) :
    SameAnswers (handleControl bev event) (handleControl other event) := by
  unfold handleControl
  cases event.param with
  | none => exact agree_pure _
  | some param =>
      cases param
      case common request =>
        exact agree_ite (handlePower_sameAnswers _ _ _ _ _) <|
          agree_ite (handlePower_sameAnswers _ _ _ _ _) <|
          agree_ite (handlePower_sameAnswers _ _ _ _ _) (agree_pure _)
      all_goals exact agree_fault _

theorem handleDiscover_sameAnswers (bev other : Option BevId) (event : YAEvent F) :
    SameAnswers (handleDiscover bev event) (handleDiscover other event) := by
  unfold handleDiscover
  cases event.param with
  | none => exact agree_fault _
  | some param =>
      cases param
      case discoverRequest request =>
        apply agree_ite (agree_pure _)
        apply agree_getState
        intro first second alike
        rw [alike.sessionPort]
        exact agreeAt_pure _ alike
      all_goals exact agree_fault _

/-- What is done for a client that both worlds have found. -/
theorem found_sameAnswers {Answer : Type} {uid : UInt32} {absent : ServerM F Answer}
    {present : YaClient F → ServerM F Answer} {first second : World F}
    (alike : first.Alike second) (isAbsent : SameAnswers absent absent)
    (uncounted : ∀ client : YaClient F, present client = present client.uncounted)
    (isPresent : ∀ client, SameAnswers (present client) (present client)) :
    AgreeAt World.Alike
      (match yaClientFindByUid first.manager uid with
        | none => absent
        | some client => present client)
      (match yaClientFindByUid second.manager uid with
        | none => absent
        | some client => present client) first second := by
  rcases alike.find uid with ⟨isFirst, isSecond⟩ | ⟨client, other, isFirst, isSecond, same⟩
  · rw [isFirst, isSecond]
    exact isAbsent first second alike
  · rw [isFirst, isSecond]
    simp only
    rw [uncounted client, same, ← uncounted other]
    exact isPresent other first second alike

variable [CFloat F]

theorem handleSessionOption_sameAnswers (bev other : Option BevId) (event : YAEvent F) :
    SameAnswers (handleSessionOption bev event) (handleSessionOption other event) := by
  unfold handleSessionOption
  cases event.param with
  | none => exact agree_pure _
  | some param =>
      apply agree_getState
      intro first second alike
      refine found_sameAnswers alike (agree_pure _) (fun _ => rfl) fun client => ?_
      cases param
      case sessionOption request =>
        exact agree_bind (writeClient_sameAnswers _ fun _ => rfl) fun _ => agree_pure _
      all_goals exact agree_fault _

private theorem moveFiltered_sameAnswers (client : YaClient F) (outDx outDy : Int) :
    SameAnswers (moveFiltered client outDx outDy) (moveFiltered client outDx outDy) := by
  unfold moveFiltered
  cases client.mouseFilter with
  | none => exact onDevices_sameAnswers _
  | some filter =>
      exact agree_bind (writeClient_sameAnswers _ fun _ => rfl)
        fun _ => onDevices_sameAnswers _

private theorem moveSubpixels_sameAnswers (client : YaClient F) (fdx fdy : F) :
    SameAnswers (moveSubpixels client fdx fdy) (moveSubpixels client fdx fdy) := by
  unfold moveSubpixels
  cases client.mouseFilter with
  | none => exact agree_pure _
  | some filter =>
      exact agree_bind (writeClient_sameAnswers _ fun _ => rfl)
        fun _ => onDevices_sameAnswers _

/-- What a step of the throttle lets out goes on. -/
theorem emit_sameAnswers (client : YaClient F)
    {step : World F → YAMouseThrottleState × Option (Int × Int)}
    (same : ∀ first second : World F, first.Alike second → step first = step second) :
    SameAnswers
      (do
        let world ← getState
        setThrottle (step world).1
        match (step world).2 with
        | none => return ()
        | some (outDx, outDy) => moveFiltered client outDx outDy)
      (do
        let world ← getState
        setThrottle (step world).1
        match (step world).2 with
        | none => return ()
        | some (outDx, outDy) => moveFiltered client outDx outDy) := by
  apply agree_getState
  intro first second alike
  rw [same first second alike]
  refine agree_bind (setThrottle_sameAnswers _) (fun _ => ?_) first second alike
  cases (step second).2 with
  | none => exact agree_pure _
  | some emitted => exact moveFiltered_sameAnswers client _ _

private theorem moveThrottled_sameAnswers (client : YaClient F) (fdx fdy : F) :
    SameAnswers (moveThrottled client fdx fdy) (moveThrottled client fdx fdy) :=
  emit_sameAnswers client fun _ _ alike => by rw [alike.throttle, alike.clock]

theorem handleMouseMove_sameAnswers (bev other : Option BevId) (event : YAEvent F) :
    SameAnswers (handleMouseMove bev event) (handleMouseMove other event) := by
  apply agree_bind (commonRequest_sameAnswers event)
  intro request
  cases request with
  | none => exact agree_pure _
  | some request =>
      apply agree_getState
      intro first second alike
      refine found_sameAnswers alike (agree_pure _) (fun _ => rfl) fun client => ?_
      apply agree_ite
      · exact agree_bind (moveSubpixels_sameAnswers client _ _) fun _ => agree_pure _
      · exact agree_bind (moveThrottled_sameAnswers client _ _) fun _ => agree_pure _

theorem handleMouseStop_sameAnswers (bev other : Option BevId) (event : YAEvent F) :
    SameAnswers (handleMouseStop bev event) (handleMouseStop other event) := by
  have resets (client : YaClient F) :
      SameAnswers (resetFilter client) (resetFilter client) :=
    writeClient_sameAnswers _ fun _ => rfl
  apply agree_getState
  intro first second alike
  refine found_sameAnswers alike (agree_pure _) (fun _ => rfl) fun client => ?_
  apply agree_ite
  · exact agree_bind (resets client) fun _ => agree_pure _
  · have flushes : SameAnswers (flushThrottle client) (flushThrottle client) :=
      emit_sameAnswers client fun _ _ alike => by rw [alike.throttle, alike.clock]
    refine agree_bind flushes fun _ => agree_bind (resets client) fun _ => ?_
    apply agree_getState
    intro rested otherRested stillAlike
    rw [stillAlike.throttle]
    exact agree_bind (setThrottle_sameAnswers _) (fun _ => agree_pure _) rested otherRested
      stillAlike

/-- The connection makes no difference to an event that is no authorization. -/
theorem eventHandler_sameAnswers {type : YAEventType} (isOther : type ≠ .authorize)
    (bev other : Option BevId) (event : YAEvent F) :
    SameAnswers (eventHandler type bev event) (eventHandler type other event) := by
  cases type with
  | authorize => exact absurd rfl isOther
  | mouseMove => exact handleMouseMove_sameAnswers bev other event
  | mouseStop => exact handleMouseStop_sameAnswers bev other event
  | mouseClick => exact handleMouseClick_sameAnswers bev other event
  | mouseWheel => exact handleMouseScroll_sameAnswers bev other event
  | keyboard => exact handleKeyboard_sameAnswers bev other event
  | textInput => exact handleInputText_sameAnswers bev other event
  | textGet => exact handleInputGet_sameAnswers bev other event
  | discover => exact handleDiscover_sameAnswers bev other event
  | control => exact handleControl_sameAnswers bev other event
  | heartbeat => exact agree_pure _
  | sessionOption => exact handleSessionOption_sameAnswers bev other event

/-! ## The dispatcher -/

omit [CFloat F] in
theorem validateCommandIndex_sameAnswers (client : ClientId) (event : YAEvent F) :
    SameAnswers (validateCommandIndex (some client) event)
      (validateCommandIndex (some client) event) := by
  intro first second alike
  by_cases checked : event.header.direction = REQUEST ∧
      needCommandIndexCheck event.header.type
  · rcases alike.deref client with
      ⟨isFirst, isSecond⟩ | ⟨entry, other, isFirst, isSecond, same⟩
    · have stops : ∀ {world : World F}, world.manager.deref client = none →
          validateCommandIndex (some client) event world =
            (.error .useAfterFree, world) := by
        intro world missing
        simp only [validateCommandIndex, if_pos checked]
        apply bind_of_fault
        rw [derefClient, bind_of_ok (getState_apply world), missing]
        rfl
      constructor <;> rw [stops isFirst, stops isSecond]
      exact alike
    · have sameIndex : entry.uncounted.commandIndex = other.uncounted.commandIndex := by
        rw [same]
      by_cases stale : event.header.index ≤ entry.commandIndex.toUInt32
      · have otherStale : event.header.index ≤ other.commandIndex.toUInt32 :=
          sameIndex ▸ stale
        constructor <;> rw [validateCommandIndex_stale checked isFirst stale,
          validateCommandIndex_stale checked isSecond otherStale]
        exact alike
      · have otherFresh : ¬ event.header.index ≤ other.commandIndex.toUInt32 :=
          sameIndex ▸ stale
        have writes := writeClient_sameAnswers client
          (fun _ => rfl : ∀ entry : YaClient F,
            (YaClient.withCommandIndex event.header.index entry).uncounted =
              YaClient.withCommandIndex event.header.index entry.uncounted)
        constructor <;> rw [validateCommandIndex_fresh checked isFirst stale,
          validateCommandIndex_fresh checked isSecond otherFresh]
        exact (writes first second alike).reached
  · constructor <;> rw [validateCommandIndex_exempt checked,
      validateCommandIndex_exempt checked]
    exact alike

/-- A request of a client is processed in the same way on its connection and without
one. -/
theorem processServerEvent_sameAnswers {event : YAEvent F}
    (isOther : event.header.type ≠ YAEventType.authorize.code) (bev other : Option BevId)
    (client : ClientId) :
    SameAnswers (processServerEvent bev event (some client))
      (processServerEvent other event (some client)) := by
  unfold processServerEvent findEventHandler
  cases known : YAEventType.ofCode? event.header.type with
  | none => exact agree_bind (recordCall_sameAnswers _ _) fun _ => agree_pure _
  | some type =>
      have notAuthorize : type ≠ .authorize := by
        intro same
        rw [same] at known
        exact isOther (YAEventType.ofCode?_eq_some.mp known)
      refine agree_bind (validateCommandIndex_sameAnswers client event) fun executed => ?_
      refine agree_bind (recordCall_sameAnswers _ _) fun _ => ?_
      exact agree_ite (eventHandler_sameAnswers notAuthorize bev other event) (agree_pure _)

end MouseHero
