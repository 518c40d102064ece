import MouseHero.Client.View
import MouseHero.Server.Handler

/-!
# What handlers return

The outcome of each handler that can respond or stop with a fault, case by
case.
-/

namespace MouseHero

open FaultM

variable {F : Type} {Answer : Type}

/-! ## Operations -/

theorem onDevices_apply (computation : DeviceM Answer) (world : World F) :
    ∃ answer,
      computation world.devices =
          (.ok answer, (computation world.devices).2) ∧
        onDevices computation world =
          (.ok answer,
            { world with devices := (computation world.devices).2 }) :=
  within_apply _ _ computation world

theorem onDevices_bind_const {Next : Type} (computation : DeviceM Answer)
    (next : ServerM F Next) (world : World F) :
    (onDevices computation >>= fun _ => next) world =
      next { world with devices := (computation world.devices).2 } := by
  obtain ⟨answer, -, returned⟩ := onDevices_apply computation world
  rw [bind_of_ok returned]

theorem commonRequest_of_some {event : YAEvent F} {world : World F}
    {request : YACommonEventRequest}
    (carried : event.param = some (.common request))
    (length : event.paramLen = 8) :
    commonRequest event world = (.ok (some request), world) := by
  simp only [commonRequest, carried, length]
  rfl

theorem commonRequest_of_none {event : YAEvent F} {world : World F}
    (absent : event.param = none) :
    commonRequest event world = (.ok none, world) := by
  simp only [commonRequest, absent]
  rfl

theorem derefClient_of_some {world : World F} {client : ClientId}
    {entry : YaClient F} (stored : world.manager.deref client = some entry) :
    derefClient client world = (.ok entry, world) := by
  rw [derefClient, bind_of_ok (getState_apply world), stored]
  rfl

theorem derefBev_of_some {world : World F} {bev : BevId}
    {contents : Bufferevent} (stored : world.bevs bev = some contents) :
    derefBev (some bev) world = (.ok contents, world) := by
  simp only [derefBev]
  rw [bind_of_ok (getState_apply world), stored]
  rfl

theorem derefBev_of_none {world : World F} {bev : BevId}
    (freed : world.bevs bev = none) :
    derefBev (some bev) world = (.error .useAfterFree, world) := by
  simp only [derefBev]
  rw [bind_of_ok (getState_apply world), freed]
  rfl

theorem derefClient_returned {world reached : World F} {client : ClientId}
    {entry : YaClient F} (returned : derefClient client world = (.ok entry, reached)) :
    world = reached ∧ world.manager.deref client = some entry := by
  cases stored : world.manager.deref client with
  | none =>
      rw [derefClient, bind_of_ok (getState_apply world), stored] at returned
      cases returned
  | some found =>
      rw [derefClient_of_some stored] at returned
      cases returned
      exact ⟨rfl, rfl⟩

theorem derefBev_returned {world reached : World F} {bev : BevId}
    {contents : Bufferevent}
    (returned : derefBev (some bev) world = (.ok contents, reached)) :
    world = reached ∧ world.bevs bev = some contents := by
  cases stored : world.bevs bev with
  | none =>
      rw [derefBev_of_none stored] at returned
      cases returned
  | some found =>
      rw [derefBev_of_some stored] at returned
      cases returned
      exact ⟨rfl, rfl⟩

theorem writeBev_manager {world reached : World F} {bev : BevId}
    {change : Bufferevent → Bufferevent}
    (returned : writeBev bev change world = (.ok (), reached)) :
    reached.manager = world.manager := by
  cases stored : world.bevs bev with
  | none =>
      rw [writeBev, bind_of_fault (derefBev_of_none stored)] at returned
      cases returned
  | some contents =>
      rw [writeBev, bind_of_ok (derefBev_of_some stored)] at returned
      cases returned
      rfl

theorem buffereventFree_of_some {world : World F} {bev : BevId}
    {contents : Bufferevent} (stored : world.bevs bev = some contents) :
    buffereventFree bev world = (.ok (), world.setBev bev none) := by
  rw [buffereventFree, bind_of_ok (getState_apply world), stored]
  rfl

theorem buffereventGetfd_of_some {world : World F} {bev : BevId} {contents : Bufferevent}
    (stored : world.bevs bev = some contents) :
    buffereventGetfd (some bev) world = (.ok contents.fd, world) :=
  bind_of_ok (derefBev_of_some stored)

/-! ## Authorization -/

section Authorize

variable [CFloat F] {world : World F} {event : YAEvent F}
variable {request : YAAuthorizeEventRequest}

theorem handleAuthorize_refused {bev : Option BevId}
    (carried : event.param = some (.authorizeRequest request))
    (refused : authorize request = false) :
    handleAuthorize bev event world =
      (.ok (some (assignResponse event
        (some (.authorizeResponse (refusedAuthorization request))))),
        world) := by
  simp only [handleAuthorize, carried, refused]
  rfl

theorem handleAuthorize_noBev
    (carried : event.param = some (.authorizeRequest request))
    (authorized : authorize request = true) :
    handleAuthorize none event world =
      (.error .nullDereference, world) := by
  simp only [handleAuthorize, carried, authorized]
  rfl

theorem handleAuthorize_freedBev {bev : BevId}
    (carried : event.param = some (.authorizeRequest request))
    (authorized : authorize request = true)
    (freed : world.bevs bev = none) :
    handleAuthorize (some bev) event world =
      (.error .useAfterFree, world) := by
  have descriptor :
      buffereventGetfd (some bev) world = (.error .useAfterFree, world) :=
    bind_of_fault (derefBev_of_none freed)
  simp only [handleAuthorize, carried, authorized, if_true]
  exact bind_of_fault descriptor

theorem handleAuthorize_unbound {bev : BevId} {contents : Bufferevent}
    (carried : event.param = some (.authorizeRequest request))
    (authorized : authorize request = true)
    (stored : world.bevs bev = some contents)
    (unknown : yaClientFindByFd world.manager contents.fd = none) :
    handleAuthorize (some bev) event world =
      (.ok none, world.setBev bev none) := by
  simp only [handleAuthorize, carried, authorized, if_true]
  rw [bind_of_ok (buffereventGetfd_of_some stored),
    bind_of_ok (getState_apply world), unknown]
  exact bind_of_ok (buffereventFree_of_some stored)

/-- The client of an authorized connection. -/
def authorizedClient (bev : BevId) (request : YAAuthorizeEventRequest)
    (entry : YaClient F) : YaClient F :=
  { entry with
    bev := some bev
    protocolVersion := request.version
    mouseFilter := entry.mouseFilter.map fun filter =>
      yaMouseFilterSetAlgorithmsEnabled filter true }

theorem handleAuthorize_granted {bev : BevId} {contents : Bufferevent}
    {client : YaClient F}
    (carried : event.param = some (.authorizeRequest request))
    (authorized : authorize request = true)
    (stored : world.bevs bev = some contents)
    (known : yaClientFindByFd world.manager contents.fd = some client) :
    handleAuthorize (some bev) event world =
      (.ok (some (assignResponse event
        (some (.authorizeResponse
          (grantedAuthorization world client request))))),
        { world with
          manager :=
            world.manager.write client.addr (authorizedClient bev request) }) := by
  simp only [handleAuthorize, carried, authorized, if_true]
  rw [bind_of_ok (buffereventGetfd_of_some stored),
    bind_of_ok (getState_apply world), known]
  rfl

end Authorize

/-! ## The dispatcher -/

/-- The world in which a call has been recorded. -/
def World.logged (world : World F) (call : ServerCall F) : World F :=
  { world with calls := call :: world.calls }

section Dispatch

variable {world : World F} {event : YAEvent F} {entry : YaClient F}
variable {client : ClientId}

theorem validateCommandIndex_exempt
    (exempt : ¬ (event.header.direction = REQUEST ∧
      needCommandIndexCheck event.header.type)) :
    validateCommandIndex (some client) event world = (.ok true, world) := by
  rw [validateCommandIndex, if_neg exempt]
  rfl

theorem validateCommandIndex_stale
    (checked : event.header.direction = REQUEST ∧
      needCommandIndexCheck event.header.type)
    (stored : world.manager.deref client = some entry)
    (stale : event.header.index ≤ entry.commandIndex.toUInt32) :
    validateCommandIndex (some client) event world = (.ok false, world) := by
  rw [validateCommandIndex, if_pos checked,
    bind_of_ok (derefClient_of_some stored), if_pos stale]
  rfl

theorem validateCommandIndex_fresh
    (checked : event.header.direction = REQUEST ∧
      needCommandIndexCheck event.header.type)
    (stored : world.manager.deref client = some entry)
    (fresh : ¬ event.header.index ≤ entry.commandIndex.toUInt32) :
    validateCommandIndex (some client) event world =
      (.ok true,
        { world with
          manager := world.manager.write client
            (YaClient.withCommandIndex event.header.index) }) := by
  rw [validateCommandIndex, if_pos checked,
    bind_of_ok (derefClient_of_some stored), if_neg fresh]
  rfl

/-- The index of the event is not above that of the client it is processed
for. -/
def Discarded (world : World F) (target : Option ClientId)
    (event : YAEvent F) : Prop :=
  ∃ client entry,
    target = some client ∧ world.manager.deref client = some entry ∧
      event.header.direction = REQUEST ∧
      needCommandIndexCheck event.header.type ∧
      event.header.index ≤ entry.commandIndex.toUInt32

theorem discarded_referenced {client : ClientId} {reached : World F}
    (referenced : reached.manager = yaClientRef world.manager client) :
    Discarded reached (some client) event ↔ Discarded world (some client) event := by
  have counted : reached.manager.deref client =
      (world.manager.deref client).map fun entry =>
        { entry with refCount := entry.refCount + 1 } := by
    rw [referenced]
    exact YaClientManager.deref_write client _ fun _ => rfl
  constructor
  · rintro ⟨_, entry, same, stored, isRequest, needed, stale⟩
    cases same
    rw [counted] at stored
    obtain ⟨original, storedBefore, rfl⟩ := Option.map_eq_some_iff.mp stored
    exact ⟨client, original, rfl, storedBefore, isRequest, needed, stale⟩
  · rintro ⟨_, entry, same, stored, isRequest, needed, stale⟩
    cases same
    refine ⟨client, { entry with refCount := entry.refCount + 1 }, rfl, ?_,
      isRequest, needed, stale⟩
    rw [counted, stored]
    rfl

/-- Everything that the check of the command index can do for a client that
has not been freed. -/
theorem validateCommandIndex_cases {target : Option ClientId}
    (live : ∀ client, target = some client →
      (world.manager.deref client).isSome) :
    (Discarded world target event ∧
      validateCommandIndex target event world = (.ok false, world)) ∨
    (¬ Discarded world target event ∧
      ∃ manager,
        validateCommandIndex target event world =
          (.ok true, { world with manager })) := by
  cases target with
  | none =>
      refine Or.inr ⟨?_, world.manager, rfl⟩
      rintro ⟨client, entry, absent, -⟩
      cases absent
  | some client =>
      obtain ⟨entry, stored⟩ := Option.isSome_iff_exists.mp (live client rfl)
      by_cases checked :
          event.header.direction = REQUEST ∧
            needCommandIndexCheck event.header.type
      · by_cases stale : event.header.index ≤ entry.commandIndex.toUInt32
        · exact Or.inl ⟨⟨client, entry, rfl, stored, checked.1, checked.2, stale⟩,
            validateCommandIndex_stale checked stored stale⟩
        · refine Or.inr
            ⟨?_, _, validateCommandIndex_fresh checked stored stale⟩
          rintro ⟨other, found, same, foundStored, -, -, below⟩
          cases same
          rw [stored] at foundStored
          cases foundStored
          exact stale below
      · refine Or.inr ⟨?_, world.manager, validateCommandIndex_exempt checked⟩
        rintro ⟨-, -, -, -, request, needs, -⟩
        exact checked ⟨request, needs⟩

variable [CFloat F] {bev : Option BevId} {target : Option ClientId}

theorem processServerEvent_unknown
    (unknown : YAEventType.ofCode? event.header.type = none) :
    processServerEvent bev event target world =
      (.ok none,
        world.logged { bev, event, client := target, executed := false }) := by
  rw [processServerEvent, findEventHandler, unknown]
  rfl

theorem processServerEvent_discarded {type : YAEventType} {reached : World F}
    (known : YAEventType.ofCode? event.header.type = some type)
    (discarded :
      validateCommandIndex target event world = (.ok false, reached)) :
    processServerEvent bev event target world =
      (.ok none,
        reached.logged { bev, event, client := target, executed := false }) := by
  rw [processServerEvent, findEventHandler, known]
  exact bind_of_ok discarded

theorem processServerEvent_executed {type : YAEventType} {reached : World F}
    (known : YAEventType.ofCode? event.header.type = some type)
    (valid : validateCommandIndex target event world = (.ok true, reached)) :
    processServerEvent bev event target world =
      eventHandler type bev event
        (reached.logged { bev, event, client := target, executed := true }) := by
  rw [processServerEvent, findEventHandler, known]
  exact bind_of_ok valid

end Dispatch

end MouseHero
