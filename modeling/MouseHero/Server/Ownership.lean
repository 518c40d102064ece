import MouseHero.Event.Faults
import MouseHero.Server.Connections

/-!
# Connections and their clients

A connection is served as long as it has an active client of its own, with its
bufferevent and its descriptor.  The read callback keeps this for all
connections, and never touches memory that has been freed.
-/

namespace MouseHero

open FaultM YaClientManager

variable {F : Type} {Answer Next : Type}

/-! ## What a read keeps -/

/-- A client without what requests write to it. -/
def YaClient.owner (client : YaClient F) : YaClient F :=
  { client with
    commandIndex := 0
    refCount := 0
    mouseFilter := none
    protocolVersion := 0 }

theorem owner_refCount (client : YaClient F) (refCount : UInt32) :
    YaClient.owner { client with refCount } = client.owner :=
  rfl

theorem fields_of_owner_eq {first second : YaClient F}
    (same : first.owner = second.owner) :
    first.addr = second.addr ∧ first.fd = second.fd ∧
      first.state = second.state ∧ first.bev = second.bev := by
  simp only [YaClient.owner, YaClient.mk.injEq] at same
  exact ⟨same.1, same.2.1, same.2.2.2.2.2.1, same.2.2.2.2.2.2.1⟩

/-- The clients with their bufferevents and descriptors stay the same, and so
do the sockets and the counters. -/
structure World.KeepsOwners (before after : World F) : Prop where
  clients :
    before.manager.view YaClient.owner = after.manager.view YaClient.owner
  sockets :
    ∀ bev,
      (before.bevs bev).map Bufferevent.fd = (after.bevs bev).map Bufferevent.fd
  stats : before.stats = after.stats

theorem World.keepsOwners_refl (world : World F) : world.KeepsOwners world :=
  ⟨rfl, fun _ => rfl, rfl⟩

theorem World.keepsOwners_trans (first middle last : World F)
    (initial : first.KeepsOwners middle) (later : middle.KeepsOwners last) :
    first.KeepsOwners last :=
  ⟨initial.clients.trans later.clients,
    fun bev => (initial.sockets bev).trans (later.sockets bev),
    initial.stats.trans later.stats⟩

/-- The connection has an active client with its bufferevent, and the client is
the one that is found by the descriptor. -/
structure World.ServedBy (world : World F) (connection : Connection)
    (entry : YaClient F) (contents : Bufferevent) : Prop where
  stored : world.manager.deref connection.client = some entry
  active : entry.state = .active
  bev : entry.bev = some connection.bev
  buffered : world.bevs connection.bev = some contents
  found : yaClientFindByFd world.manager contents.fd = some entry

structure World.Serves (world : World F) (connection : Connection) : Prop where
  once : (world.manager.clients.map YaClient.addr).Nodup
  client : ∃ entry contents, world.ServedBy connection entry contents

section Serves

variable {world after : World F} {connection : Connection}
variable {entry : YaClient F} {contents : Bufferevent}

theorem World.ServedBy.addr (served : world.ServedBy connection entry contents) :
    entry.addr = connection.client :=
  addr_of_deref served.stored

theorem World.ServedBy.member
    (served : world.ServedBy connection entry contents) :
    entry ∈ world.manager.clients :=
  mem_of_deref served.stored

theorem World.Serves.eq_of_addr (serves : world.Serves connection)
    (served : world.ServedBy connection entry contents) {other : YaClient F}
    (member : other ∈ world.manager.clients)
    (same : other.addr = connection.client) : other = entry :=
  List.inj_on_of_nodup_map serves.once member served.member
    (same.trans served.addr.symm)

theorem World.KeepsOwners.serves (keeps : world.KeepsOwners after)
    (serves : world.Serves connection) : after.Serves connection := by
  obtain ⟨entry, contents, served⟩ := serves.client
  have sameAddresses := addresses_of_view_eq keeps.clients fun _ => rfl
  have sameEntry := deref_of_view_eq keeps.clients (fun _ => rfl)
    connection.client
  rw [served.stored] at sameEntry
  obtain ⟨entry', stored', owner⟩ := Option.map_eq_some_iff.mp sameEntry.symm
  have sameSocket := keeps.sockets connection.bev
  rw [served.buffered] at sameSocket
  obtain ⟨contents', buffered', descriptor⟩ :=
    Option.map_eq_some_iff.mp sameSocket.symm
  have sameFound := findByFd_of_view_eq keeps.clients (fun _ => rfl)
    (fun _ => rfl) contents.fd
  rw [served.found] at sameFound
  obtain ⟨found', isFound', sameOwner⟩ :=
    Option.map_eq_some_iff.mp sameFound.symm
  have once' : (after.manager.clients.map YaClient.addr).Nodup := by
    rw [← sameAddresses]
    exact serves.once
  have isEntry : found' = entry' := by
    apply List.inj_on_of_nodup_map once'
    · exact (hasActive_of_findByFd isFound').1.1
    · exact mem_of_deref stored'
    · exact (fields_of_owner_eq sameOwner).1.trans
        (fields_of_owner_eq owner).1.symm
  obtain ⟨-, -, state, bev⟩ := fields_of_owner_eq owner
  refine ⟨once', entry', contents', stored', state.trans served.active,
    bev.trans served.bev, buffered', ?_⟩
  rw [descriptor, isFound', isEntry]

end Serves

/-! ## The read callback -/

/-- The computation keeps the owners, and touches no freed memory. -/
abbrev Careful (computation : ServerM F Answer) (world : World F) : Prop :=
  ConfinedAt World.KeepsOwners Fault.Spares computation world

theorem pure_careful (value : Answer) (world : World F) :
    Careful (pure value) world :=
  confinedAt_pure World.keepsOwners_refl value

theorem fault_careful {reason : Fault} (spares : reason.Spares)
    (world : World F) : Careful (fault reason : ServerM F Answer) world :=
  confinedAt_fault World.keepsOwners_refl spares

theorem bind_careful {first : ServerM F Answer}
    {next : Answer → ServerM F Next} {world : World F}
    (firstCareful : Careful first world)
    (nextCareful : ∀ value reached, world.KeepsOwners reached →
      Careful (next value) reached) :
    Careful (first >>= next) world :=
  confinedAt_bind World.keepsOwners_trans firstCareful
    fun value reached _ keeps => nextCareful value reached keeps

theorem step_careful {first : ServerM F Answer}
    {next : Answer → ServerM F Next} {value : Answer} {world reached : World F}
    (returned : first world = (.ok value, reached))
    (keeps : world.KeepsOwners reached)
    (nextCareful : Careful (next value) reached) :
    Careful (first >>= next) world :=
  confinedAt_step World.keepsOwners_trans returned keeps nextCareful

theorem World.Keeps.keepsOwners {before after : World F}
    (keeps : before.Keeps YaClient.owner after) : before.KeepsOwners after :=
  ⟨keeps.clients, fun bev => by rw [keeps.bevs], keeps.stats⟩

/-- A computation that is stopped at parameters only is careful. -/
theorem Framed.careful {computation : ServerM F Answer} {world : World F}
    (framed : Framed YaClient.owner computation world) :
    Careful computation world := by
  refine ⟨framed.1.keepsOwners, fun reason stopped => ?_⟩
  rcases framed.2 reason stopped with rfl | rfl
  · exact spares_nullDereference
  · exact spares_paramType

section Read

variable {world : World F} {connection : Connection}
variable {entry : YaClient F} {contents : Bufferevent}

theorem writeBev_careful {change : Bufferevent → Bufferevent}
    (keepsFd : ∀ contents, (change contents).fd = contents.fd)
    (buffered : world.bevs connection.bev = some contents) :
    Careful (writeBev connection.bev change) world := by
  apply step_careful (derefBev_of_some buffered) world.keepsOwners_refl
  refine confinedAt_modifyState ⟨rfl, fun bev => ?_, rfl⟩
  by_cases same : bev = connection.bev
  · rw [same, buffered]
    simp [World.setBev, keepsFd]
  · simp [World.setBev, same]

private theorem writeClient_careful {client : ClientId}
    {change : YaClient F → YaClient F}
    (keepsOwner : ∀ entry ∈ world.manager.clients, entry.addr = client →
      (change entry).owner = entry.owner) :
    Careful (writeClient client change) world :=
  confinedAt_modifyState ⟨(view_write keepsOwner).symm, fun _ => rfl, rfl⟩

theorem validateCommandIndex_careful (event : YAEvent F)
    (stored : world.manager.deref connection.client = some entry) :
    Careful (validateCommandIndex (some connection.client) event) world := by
  apply confinedAt_ite _ (pure_careful _ _)
  apply step_careful (derefClient_of_some stored) world.keepsOwners_refl
  apply confinedAt_ite (pure_careful _ _)
  exact bind_careful (writeClient_careful fun _ _ _ => rfl) fun _ _ _ =>
    pure_careful _ _

/-- A client is released that is not marked as disconnected. -/
theorem unrefClient_careful (serves : world.Serves connection) :
    Careful (unrefClient connection.client) world := by
  obtain ⟨entry, contents, served⟩ := serves.client
  have connected : entry.state ≠ .disconnected := by
    rw [served.active]
    exact nofun
  refine confinedAt_of_ok
    (unrefClient_of_connected served.stored connected) ⟨?_, fun _ => rfl, rfl⟩
  exact (yaClientUnref_view owner_refCount world.manager connected).symm

variable [CFloat F]

/-- Authorization writes the bufferevent that the client has already. -/
theorem handleAuthorize_careful (event : YAEvent F)
    (serves : world.Serves connection) :
    Careful (handleAuthorize (some connection.bev) event) world := by
  obtain ⟨entry, contents, served⟩ := serves.client
  cases carried : event.param with
  | none =>
      simp only [handleAuthorize, carried]
      exact pure_careful _ _
  | some param =>
      cases param
      case authorizeRequest request =>
        cases authorized : authorize request with
        | false =>
            exact confinedAt_of_ok (handleAuthorize_refused carried authorized)
              world.keepsOwners_refl
        | true =>
            refine confinedAt_of_ok
              (handleAuthorize_granted carried authorized served.buffered
                served.found) ⟨?_, fun _ => rfl, rfl⟩
            refine (view_write fun other member same => ?_).symm
            have isEntry :=
              serves.eq_of_addr served member (same.trans served.addr)
            simp only [YaClient.owner, authorizedClient, isEntry, served.bev]
      all_goals
        simp only [handleAuthorize, carried]
        exact fault_careful spares_paramType _

private theorem eventHandler_careful (type : YAEventType) (event : YAEvent F)
    (serves : world.Serves connection) :
    Careful (eventHandler type (some connection.bev) event) world := by
  by_cases authorization : type = .authorize
  · rw [authorization]
    exact handleAuthorize_careful event serves
  · exact Framed.careful
      (eventHandler_framed authorization _ fun _ _ _ _ _ => rfl)

theorem processServerEvent_careful (event : YAEvent F)
    (serves : world.Serves connection) :
    Careful
      (processServerEvent (some connection.bev) event (some connection.client))
      world := by
  have recorded (call : ServerCall F) (world : World F) :
      Careful (recordCall call) world :=
    confinedAt_modifyState ⟨rfl, fun _ => rfl, rfl⟩
  unfold processServerEvent findEventHandler
  cases YAEventType.ofCode? event.header.type with
  | none => exact bind_careful (recorded _ _) fun _ _ _ => pure_careful _ _
  | some type =>
      obtain ⟨entry, contents, served⟩ := serves.client
      apply bind_careful (validateCommandIndex_careful event served.stored)
      intro executed checked keepsChecked
      apply bind_careful (recorded _ _)
      intro _ reached keepsReached
      apply confinedAt_ite _ (pure_careful _ _)
      exact eventHandler_careful type event
        (keepsReached.serves (keepsChecked.serves serves))

theorem respond_careful (response : Option (YAEvent F))
    (serves : world.Serves connection) :
    Careful (respond connection.bev response) world := by
  obtain ⟨entry, contents, served⟩ := serves.client
  rcases respond_cases connection.bev response with
    dropped | ⟨event, reason, serializing, stops⟩ | ⟨bytes, appends⟩
  · rw [dropped]
    exact pure_careful _ _
  · rw [stops]
    exact fault_careful (yaSerializeEvent_spares serializing) _
  · rw [appends]
    exact writeBev_careful (fun _ => rfl) served.buffered

theorem connReadcb_careful (serves : world.Serves connection) :
    Careful (connReadcb connection.bev (some connection.client)) world := by
  obtain ⟨entry, contents, served⟩ := serves.client
  apply step_careful (derefClient_of_some served.stored)
    world.keepsOwners_refl
  apply confinedAt_ite (pure_careful _ _)
  apply step_careful (derefBev_of_some served.buffered)
    world.keepsOwners_refl
  cases sized : yaGetPackageSize contents.input with
  | error reason => exact fault_careful (yaGetPackageSize_spares sized) _
  | ok size =>
      apply confinedAt_ite _ (pure_careful _ _)
      cases parsing :
          (yaParseEvent (evbufferDrain contents.input 8) YAEvent.zero size :
            Except Fault (ParsedEvent F)) with
      | error reason => exact fault_careful (yaParseEvent_spares parsing) _
      | ok parsed =>
          have drains :
              Careful
                (writeBev connection.bev fun contents =>
                  { contents with input := parsed.buf }) world :=
            writeBev_careful (fun _ => rfl) served.buffered
          apply bind_careful drains
          intro _ drained keepsDrained
          apply confinedAt_ite (pure_careful _ _)
          have referenced :
              Careful
                (modifyState fun world : World F =>
                  { world with
                    manager := yaClientRef world.manager connection.client })
                drained :=
            confinedAt_modifyState
              ⟨(yaClientRef_view owner_refCount _ _).symm, fun _ => rfl, rfl⟩
          have servesDrained := keepsDrained.serves serves
          apply bind_careful referenced
          intro _ counted keepsCounted
          have servesCounted := keepsCounted.serves servesDrained
          apply bind_careful (processServerEvent_careful parsed.event servesCounted)
          intro response processed keepsProcessed
          have servesProcessed := keepsProcessed.serves servesCounted
          apply bind_careful (respond_careful response servesProcessed)
          intro _ responded keepsResponded
          exact unrefClient_careful (keepsResponded.serves servesProcessed)

end Read

end MouseHero
