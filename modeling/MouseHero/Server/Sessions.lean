import MouseHero.Server.Ownership

/-!
# Sessions

The callbacks of the session server in any order, on a system that does not
hand out a descriptor twice: live connections, active clients and bufferevents
belong to each other, one to one.
-/

namespace MouseHero

open FaultM YaClientManager

variable {F : Type}

/-! ## The event callback -/

def BEV_EVENT_EOF : UInt16 := 0x10

def BEV_EVENT_ERROR : UInt16 := 0x20

/-- The test of `conn_eventcb`. -/
def endsConnection (events : UInt16) : Bool :=
  events &&& (BEV_EVENT_EOF ||| BEV_EVENT_ERROR) ≠ 0

/-- `conn_eventcb` with its flags. -/
def connEventcbOn (events : UInt16) (client : Option ClientId) :
    ServerM F Unit :=
  if endsConnection events then connEventcb client else return ()

/-! ## The invariant -/

/-- The client of a live connection is active, with its bufferevent and the
descriptor of that. -/
structure World.OwnedBy (world : World F) (connection : Connection)
    (entry : YaClient F) (contents : Bufferevent) : Prop where
  stored : world.manager.deref connection.client = some entry
  active : entry.state = .active
  bev : entry.bev = some connection.bev
  buffered : world.bevs connection.bev = some contents
  descriptor : contents.fd = entry.fd
  valid : 0 ≤ entry.fd

/-- Live connections, active clients and bufferevents belong to each other. -/
structure Ownership (live : List Connection) (world : World F) : Prop where
  once : (world.manager.clients.map YaClient.addr).Nodup
  clients : (live.map Connection.client).Nodup
  bevs : (live.map Connection.bev).Nodup
  owned :
    ∀ connection ∈ live, ∃ entry contents,
      world.OwnedBy connection entry contents
  others :
    ∀ entry ∈ world.manager.clients,
      (∃ connection ∈ live, connection.client = entry.addr) ∨
        (entry.state = .disconnecting ∧ entry.bev = none)
  stored :
    ∀ bev contents, world.bevs bev = some contents →
      ∃ connection ∈ live, connection.bev = bev
  descriptors :
    ∀ first second firstContents secondContents,
      world.bevs first = some firstContents →
        world.bevs second = some secondContents →
        firstContents.fd = secondContents.fd → first = second

namespace Ownership

variable {live : List Connection} {world after : World F}
variable {connection : Connection} {entry : YaClient F}

theorem connection_of_active (ownership : Ownership live world)
    (active : world.manager.HasActive entry) :
    ∃ connection ∈ live, connection.client = entry.addr := by
  rcases ownership.others entry active.1 with connected | ⟨state, -⟩
  · exact connected
  · rw [active.2] at state
    cases state

/-- The client of a live connection is the one in the table. -/
theorem owned_of_active (ownership : Ownership live world)
    (active : world.manager.HasActive entry) :
    ∃ connection ∈ live, ∃ contents,
      world.OwnedBy connection entry contents := by
  obtain ⟨connection, isLive, client⟩ := ownership.connection_of_active active
  obtain ⟨owner, contents, owned⟩ := ownership.owned connection isLive
  have stored := owned.stored
  rw [client, deref_eq_of_mem ownership.once active.1] at stored
  cases stored
  exact ⟨connection, isLive, contents, owned⟩

theorem eq_of_fd (ownership : Ownership live world) {first second : YaClient F}
    (firstActive : world.manager.HasActive first)
    (secondActive : world.manager.HasActive second)
    (sameFd : first.fd = second.fd) : first = second := by
  obtain ⟨one, oneLive, oneContents, oneOwned⟩ :=
    ownership.owned_of_active firstActive
  obtain ⟨two, twoLive, twoContents, twoOwned⟩ :=
    ownership.owned_of_active secondActive
  have sameBev := ownership.descriptors _ _ _ _ oneOwned.buffered
    twoOwned.buffered
    (oneOwned.descriptor.trans (sameFd.trans twoOwned.descriptor.symm))
  have same : one = two :=
    List.inj_on_of_nodup_map ownership.bevs oneLive twoLive sameBev
  have stored := oneOwned.stored
  rw [same, twoOwned.stored] at stored
  exact (Option.some.inj stored).symm

theorem serves (ownership : Ownership live world)
    (isLive : connection ∈ live) : world.Serves connection := by
  obtain ⟨entry, contents, owned⟩ := ownership.owned connection isLive
  have member : entry ∈ world.manager.clients :=
    mem_of_deref owned.stored
  have present : (yaClientFindByFd world.manager contents.fd).isSome := by
    rw [yaClientFindByFd_eq, owned.descriptor,
      if_neg (Int.not_lt.mpr owned.valid), List.find?_isSome]
    exact ⟨entry, member, by simp [YaClient.hasFd, owned.active]⟩
  obtain ⟨found, isFound⟩ := Option.isSome_iff_exists.mp present
  obtain ⟨active, sameFd⟩ := hasActive_of_findByFd isFound
  have isEntry : found = entry :=
    ownership.eq_of_fd active ⟨member, owned.active⟩
      (sameFd.trans owned.descriptor)
  rw [isEntry] at isFound
  exact ⟨ownership.once, entry, contents, owned.stored, owned.active,
    owned.bev, owned.buffered, isFound⟩

theorem keep (ownership : Ownership live world)
    (keeps : world.KeepsOwners after) : Ownership live after where
  once := by
    rw [← addresses_of_view_eq keeps.clients fun _ => rfl]
    exact ownership.once
  clients := ownership.clients
  bevs := ownership.bevs
  owned := by
    intro connection isLive
    obtain ⟨entry, contents, owned⟩ := ownership.owned connection isLive
    have sameEntry := deref_of_view_eq keeps.clients (fun _ => rfl)
      connection.client
    rw [owned.stored] at sameEntry
    obtain ⟨entry', stored', owner⟩ := Option.map_eq_some_iff.mp sameEntry.symm
    have sameSocket := keeps.sockets connection.bev
    rw [owned.buffered] at sameSocket
    obtain ⟨contents', buffered', descriptor⟩ :=
      Option.map_eq_some_iff.mp sameSocket.symm
    obtain ⟨-, fd, state, bev⟩ := fields_of_owner_eq owner
    refine ⟨entry', contents', stored', state.trans owned.active,
      bev.trans owned.bev, buffered', ?_, ?_⟩
    · rw [descriptor, owned.descriptor, fd]
    · rw [fd]
      exact owned.valid
  others := by
    intro entry member
    have owners := congrArg YaClientManager.clients keeps.clients
    rw [clients_view, clients_view] at owners
    have known : entry.owner ∈ world.manager.clients.map YaClient.owner := by
      rw [owners]
      exact List.mem_map_of_mem member
    obtain ⟨original, originalMember, owner⟩ := List.mem_map.mp known
    obtain ⟨addr, -, state, bev⟩ := fields_of_owner_eq owner
    rw [← addr, ← state, ← bev]
    exact ownership.others original originalMember
  stored := by
    intro bev contents buffered
    have sameSocket := keeps.sockets bev
    rw [buffered] at sameSocket
    obtain ⟨original, originalBuffered, -⟩ :=
      Option.map_eq_some_iff.mp sameSocket
    exact ownership.stored bev original originalBuffered
  descriptors := by
    intro first second firstContents secondContents firstBuffered secondBuffered
      sameFd
    have firstSocket := keeps.sockets first
    have secondSocket := keeps.sockets second
    rw [firstBuffered] at firstSocket
    rw [secondBuffered] at secondSocket
    obtain ⟨one, oneBuffered, oneFd⟩ := Option.map_eq_some_iff.mp firstSocket
    obtain ⟨two, twoBuffered, twoFd⟩ := Option.map_eq_some_iff.mp secondSocket
    exact ownership.descriptors _ _ _ _ oneBuffered twoBuffered
      (oneFd.trans (sameFd.trans twoFd.symm))

end Ownership

/-! ## New connections -/

theorem yaClientCreate_created {manager created : YaClientManager F} {fd : Int}
    {bev : BevId} {resources : ClientResources F} {client : YaClient F}
    (creates :
      yaClientCreate manager fd (some bev) resources = (created, some client)) :
    resources.memory = some client.addr ∧ client.fd = fd ∧ 0 ≤ fd ∧
      client.bev = some bev ∧ client.state = .active ∧
      created.clients.Perm (client :: manager.clients) := by
  unfold yaClientCreate at creates
  split at creates
  · cases creates
  · rename_i accepted
    cases allocated : resources.memory with
    | none =>
        rw [allocated] at creates
        cases creates
    | some addr =>
        rw [allocated] at creates
        cases creates
        refine ⟨rfl, rfl, ?_, rfl, rfl, ?_⟩
        · have valid : ¬ fd < 0 := fun negative => accepted (Or.inr negative)
          omega
        · exact ChainedTable.flatMap_insert_perm (List.nodup_finRange _)
            (List.mem_finRange _) manager.buckets

/-- The server with the bufferevent and the client of a new connection. -/
def World.withConnection (world : World F) (fd : Int) (bev : BevId)
    (manager : YaClientManager F) : World F :=
  { world.setBev bev (some { fd, input := [], output := [] }) with
    manager
    stats := {
      totalConnections := world.stats.totalConnections + 1
      activeConnections := world.stats.activeConnections + 1 } }

private theorem acceptCb_of_created {world : World F} {fd : Int} {bev : BevId}
    {resources : ClientResources F} {created : YaClientManager F}
    {client : YaClient F}
    (creates :
      yaClientCreate world.manager fd (some bev) resources =
        (created, some client)) :
    acceptCb fd (some bev) resources world =
      (.ok (some client.addr), world.withConnection fd bev created) := by
  simp only [acceptCb]
  rw [bind_of_ok (modifyState_apply _ world), bind_of_ok (getState_apply _)]
  simp only [World.setBev, creates]
  rw [bind_of_ok (modifyState_apply _ _), yaServerStatsIncConnections,
    bind_of_ok (modifyState_apply _ _)]
  rfl

private theorem acceptCb_of_refused {world : World F} {fd : Int} {bev : BevId}
    {resources : ClientResources F} (fresh : world.bevs bev = none)
    (refuses :
      yaClientCreate world.manager fd (some bev) resources =
        (world.manager, none)) :
    acceptCb fd (some bev) resources world = (.ok none, world) := by
  have unchanged :
      (world.setBev bev (some { fd, input := [], output := [] })).setBev bev
          none = world := by
    have sameBevs :
        ((world.setBev bev (some { fd, input := [], output := [] })).setBev bev
          none).bevs = world.bevs := by
      funext other
      by_cases same : other = bev
      · simp [World.setBev, same, fresh]
      · simp [World.setBev, same]
    exact congrArg (fun bevs => { world with bevs }) sameBevs
  simp only [acceptCb]
  rw [bind_of_ok (modifyState_apply _ world), bind_of_ok (getState_apply _)]
  simp only [World.setBev, refuses]
  rw [bind_of_ok (modifyState_apply _ _)]
  have freed :
      buffereventFree bev
          (world.setBev bev (some { fd, input := [], output := [] })) =
        (.ok (), world) := by
    rw [buffereventFree_of_some (if_pos rfl), unchanged]
  exact bind_of_ok freed

/-- Where `accept_cb` leads. -/
theorem acceptCb_outcome {world : World F} (fd : Int) {bev : BevId}
    (resources : ClientResources F) (fresh : world.bevs bev = none) :
    acceptCb fd (some bev) resources world = (.ok none, world) ∨
      ∃ created client,
        yaClientCreate world.manager fd (some bev) resources =
            (created, some client) ∧
          acceptCb fd (some bev) resources world =
            (.ok (some client.addr), world.withConnection fd bev created) := by
  rcases yaClientCreate_cases world.manager fd (some bev) resources with
    refuses | ⟨created, client, creates, -⟩
  · exact Or.inl (acceptCb_of_refused fresh refuses)
  · exact Or.inr ⟨created, client, creates, acceptCb_of_created creates⟩

theorem World.withConnection_bevs (world : World F) (fd : Int) {bev other : BevId}
    (manager : YaClientManager F) (different : other ≠ bev) :
    (world.withConnection fd bev manager).bevs other = world.bevs other :=
  if_neg different

theorem World.withConnection_self (world : World F) (fd : Int) (bev : BevId)
    (manager : YaClientManager F) :
    (world.withConnection fd bev manager).bevs bev =
      some { fd, input := [], output := [] } :=
  if_pos rfl

/-- With a new descriptor, no two bufferevents have the same one. -/
theorem Ownership.withConnection_descriptors {live : List Connection}
    {world : World F} {fd : Int} {bev : BevId} (ownership : Ownership live world)
    (freshFd :
      ∀ other contents, world.bevs other = some contents → contents.fd ≠ fd)
    (manager : YaClientManager F) :
    ∀ first second firstContents secondContents,
      (world.withConnection fd bev manager).bevs first = some firstContents →
        (world.withConnection fd bev manager).bevs second =
            some secondContents →
          firstContents.fd = secondContents.fd → first = second := by
  have otherBev {other : BevId} (different : other ≠ bev) :=
    world.withConnection_bevs fd manager different
  have ownBev := world.withConnection_self fd bev manager
  intro first second firstContents secondContents firstBuffered secondBuffered
    sameFd
  by_cases isFirst : first = bev
  · by_cases isSecond : second = bev
    · rw [isFirst, isSecond]
    · rw [otherBev isSecond] at secondBuffered
      rw [isFirst, ownBev] at firstBuffered
      cases firstBuffered
      exact absurd sameFd.symm (freshFd second _ secondBuffered)
  · rw [otherBev isFirst] at firstBuffered
    by_cases isSecond : second = bev
    · rw [isSecond, ownBev] at secondBuffered
      cases secondBuffered
      exact absurd sameFd (freshFd first _ firstBuffered)
    · rw [otherBev isSecond] at secondBuffered
      exact ownership.descriptors _ _ _ _ firstBuffered secondBuffered sameFd

/-- No live connection has an address at which nothing is stored. -/
theorem Ownership.ne_of_fresh {live : List Connection} {world : World F}
    {connection : Connection} (ownership : Ownership live world)
    (isLive : connection ∈ live) {bev : BevId} {client : ClientId}
    (freshBev : world.bevs bev = none)
    (freshClient : ∀ entry ∈ world.manager.clients, entry.addr ≠ client) :
    connection.bev ≠ bev ∧ connection.client ≠ client := by
  obtain ⟨entry, contents, owned⟩ := ownership.owned connection isLive
  constructor
  · rintro rfl
    have buffered := owned.buffered
    rw [freshBev] at buffered
    cases buffered
  · intro same
    exact freshClient entry (mem_of_deref owned.stored)
      ((addr_of_deref owned.stored).trans same)

/-- A new connection gets a client of its own, and a descriptor that no other
bufferevent has. -/
theorem Ownership.accept {live : List Connection} {world : World F} {fd : Int}
    {bev : BevId} {resources : ClientResources F}
    {created : YaClientManager F} {client : YaClient F}
    (ownership : Ownership live world) (freshBev : world.bevs bev = none)
    (freshMemory :
      ∀ entry ∈ world.manager.clients, resources.memory ≠ some entry.addr)
    (freshFd :
      ∀ other contents, world.bevs other = some contents → contents.fd ≠ fd)
    (creates :
      yaClientCreate world.manager fd (some bev) resources =
        (created, some client)) :
    Ownership ({ bev, client := client.addr } :: live)
      (world.withConnection fd bev created) := by
  obtain ⟨memory, isFd, valid, isBev, active, perm⟩ :=
    yaClientCreate_created creates
  have newAddr : ∀ entry ∈ world.manager.clients, entry.addr ≠ client.addr := by
    intro entry member same
    apply freshMemory entry member
    rw [memory, same]
  have once : (created.clients.map YaClient.addr).Nodup := by
    rw [(perm.map YaClient.addr).nodup_iff, List.map_cons]
    refine List.nodup_cons.mpr ⟨?_, ownership.once⟩
    intro taken
    obtain ⟨entry, member, same⟩ := List.mem_map.mp taken
    exact newAddr entry member same
  have differs : ∀ connection ∈ live,
      connection.bev ≠ bev ∧ connection.client ≠ client.addr :=
    fun connection isLive => ownership.ne_of_fresh isLive freshBev newAddr
  have otherBev {other : BevId} (different : other ≠ bev) :=
    world.withConnection_bevs fd created different
  exact {
    once := once
    clients := by
      refine List.nodup_cons.mpr ⟨?_, ownership.clients⟩
      intro taken
      obtain ⟨connection, isLive, same⟩ := List.mem_map.mp taken
      exact (differs connection isLive).2 same
    bevs := by
      refine List.nodup_cons.mpr ⟨?_, ownership.bevs⟩
      intro taken
      obtain ⟨connection, isLive, same⟩ := List.mem_map.mp taken
      exact (differs connection isLive).1 same
    owned := by
      intro connection isLive
      rcases List.mem_cons.mp isLive with rfl | earlier
      · refine ⟨client, { fd, input := [], output := [] }, ?_, active, isBev,
          world.withConnection_self fd bev created, isFd.symm, ?_⟩
        · exact deref_eq_of_mem once (perm.mem_iff.mpr List.mem_cons_self)
        · rw [isFd]
          exact valid
      · obtain ⟨entry, contents, owned⟩ := ownership.owned connection earlier
        have member := mem_of_deref owned.stored
        refine ⟨entry, contents, ?_, owned.active, owned.bev, ?_,
          owned.descriptor, owned.valid⟩
        · rw [← addr_of_deref owned.stored]
          exact deref_eq_of_mem once
            (perm.mem_iff.mpr (List.mem_cons_of_mem _ member))
        · rw [otherBev (differs connection earlier).1]
          exact owned.buffered
    others := by
      intro entry member
      rcases List.mem_cons.mp (perm.mem_iff.mp member) with rfl | old
      · exact Or.inl ⟨_, List.mem_cons_self, rfl⟩
      · rcases ownership.others entry old with ⟨connection, isLive, same⟩ | gone
        · exact Or.inl ⟨connection, List.mem_cons_of_mem _ isLive, same⟩
        · exact Or.inr gone
    stored := by
      intro other contents buffered
      by_cases same : other = bev
      · exact ⟨_, List.mem_cons_self, same.symm⟩
      · rw [otherBev same] at buffered
        obtain ⟨connection, isLive, isBev⟩ :=
          ownership.stored other contents buffered
        exact ⟨connection, List.mem_cons_of_mem _ isLive, isBev⟩
    descriptors := ownership.withConnection_descriptors freshFd created }

/-! ## Connections that end -/

/-- The client of a connection that has ended. -/
def YaClient.hungUp (client : YaClient F) : YaClient F :=
  { client with state := .disconnecting, bev := none }

/-- The counters after `ya_server_stats_dec_connections`. -/
def YaServerStats.decremented (stats : YaServerStats) : YaServerStats where
  totalConnections := stats.totalConnections
  activeConnections :=
    if 0 < stats.activeConnections then stats.activeConnections - 1
    else stats.activeConnections

/-- The server without the bufferevent and the active client of a
connection. -/
def World.withoutConnection (world : World F) (connection : Connection) :
    World F :=
  { world.setBev connection.bev none with
    manager := world.manager.write connection.client YaClient.hungUp
    stats := world.stats.decremented }

/-- The server without a connection whose client has been released once. -/
def World.closed (world : World F) (connection : Connection) (entry : YaClient F) :
    World F :=
  { world.withoutConnection connection with
    manager :=
      (yaClientUnref (world.withoutConnection connection).manager entry.hungUp).1 }

/-- The end of a connection closes it and releases its client, once. -/
theorem connEventcb_closes {world : World F} {connection : Connection}
    {entry : YaClient F} {contents : Bufferevent}
    (owned : world.OwnedBy connection entry contents) :
    connEventcb (some connection.client) world =
      (.ok (), world.closed connection entry) := by
  let closed := world.withoutConnection connection
  have written :
      (world.manager.write connection.client YaClient.hungUp).deref
        connection.client = (world.manager.deref connection.client).map
          YaClient.hungUp :=
    deref_write connection.client YaClient.hungUp fun _ => rfl
  have stored : closed.manager.deref connection.client = some entry.hungUp := by
    rw [owned.stored] at written
    exact written
  have connected : entry.hungUp.state ≠ .disconnected := by
    intro gone
    cases gone
  -- The state is marked, the bufferevent freed and its pointer reset.
  let marked : World F :=
    { world with
      stats := world.stats.decremented
      manager :=
        world.manager.write connection.client fun entry =>
          { entry with state := .disconnecting } }
  have both :
      marked.manager.write connection.client
          (fun entry => { entry with bev := none }) =
        world.manager.write connection.client YaClient.hungUp :=
    write_write fun _ => rfl
  have close :
      buffereventFree connection.bev marked =
        (.ok (), marked.setBev connection.bev none) :=
    buffereventFree_of_some owned.buffered
  have reset :
      writeClient connection.client
          (fun entry => { entry with bev := none })
          (marked.setBev connection.bev none) = (.ok (), closed) := by
    have sameManager :
        { marked.setBev connection.bev none with
          manager := marked.manager.write connection.client
            fun entry => { entry with bev := none } } = closed := by
      rw [both]
      rfl
    rw [← sameManager]
    rfl
  have released := unrefClient_of_connected stored connected
  have closing :
      (buffereventFree connection.bev >>= fun _ =>
        writeClient connection.client
            (fun entry => { entry with bev := none }) >>= fun _ =>
          unrefClient connection.client) marked = _ :=
    (bind_of_ok close).trans ((bind_of_ok reset).trans released)
  rw [connEventcb, bind_of_ok (derefClient_of_some owned.stored), owned.bev]
  exact closing

/-- The owners are those of the server without the connection. -/
theorem connEventcb_of_owned {world : World F} {connection : Connection}
    {entry : YaClient F} {contents : Bufferevent}
    (owned : world.OwnedBy connection entry contents) :
    ∃ after,
      connEventcb (some connection.client) world = (.ok (), after) ∧
        (world.withoutConnection connection).KeepsOwners after := by
  have connected : entry.hungUp.state ≠ .disconnected := by
    intro gone
    cases gone
  refine ⟨_, connEventcb_closes owned, ?_, fun _ => rfl, rfl⟩
  exact (yaClientUnref_view owner_refCount
    (world.withoutConnection connection).manager connected).symm

theorem World.withoutConnection_bevs {world : World F}
    {connection : Connection} {bev : BevId} (different : bev ≠ connection.bev) :
    (world.withoutConnection connection).bevs bev = world.bevs bev :=
  if_neg different

theorem World.withoutConnection_stored {world : World F}
    {connection : Connection} {bev : BevId} {contents : Bufferevent}
    (buffered :
      (world.withoutConnection connection).bevs bev = some contents) :
    bev ≠ connection.bev ∧ world.bevs bev = some contents := by
  have different : bev ≠ connection.bev := by
    rintro rfl
    have freed :
        (world.withoutConnection connection).bevs connection.bev = none :=
      if_pos rfl
    rw [freed] at buffered
    cases buffered
  rw [World.withoutConnection_bevs different] at buffered
  exact ⟨different, buffered⟩

/-- The connections that remain have other clients and other bufferevents. -/
theorem Ownership.other_of_mem_erase {live : List Connection} {world : World F}
    {connection : Connection} (ownership : Ownership live world)
    (isLive : connection ∈ live) {other : Connection}
    (remains : other ∈ live.erase connection) :
    other ∈ live ∧ other.client ≠ connection.client ∧
      other.bev ≠ connection.bev := by
  have noTwice : live.Nodup := ownership.clients.of_map
  obtain ⟨different, otherLive⟩ := noTwice.mem_erase_iff.mp remains
  refine ⟨otherLive, fun same => different ?_, fun same => different ?_⟩
  · exact List.inj_on_of_nodup_map ownership.clients otherLive isLive same
  · exact List.inj_on_of_nodup_map ownership.bevs otherLive isLive same

/-- Without the connection that has ended the others stay as they are. -/
theorem Ownership.finish {live : List Connection} {world : World F}
    {connection : Connection} (ownership : Ownership live world)
    (isLive : connection ∈ live) :
    Ownership (live.erase connection) (world.withoutConnection connection) := by
  have keepsAddr (entry : YaClient F) : entry.hungUp.addr = entry.addr := rfl
  exact {
    once := by
      have addresses :
          (world.manager.write connection.client
              YaClient.hungUp).clients.map YaClient.addr =
            world.manager.clients.map YaClient.addr :=
        addresses_write keepsAddr
      exact addresses ▸ ownership.once
    clients := ownership.clients.sublist (List.erase_sublist.map _)
    bevs := ownership.bevs.sublist (List.erase_sublist.map _)
    owned := by
      intro other remains
      obtain ⟨otherLive, otherClient, differentBev⟩ :=
        ownership.other_of_mem_erase isLive remains
      obtain ⟨entry, contents, owned⟩ := ownership.owned other otherLive
      refine ⟨entry, contents, ?_, owned.active, owned.bev, ?_,
        owned.descriptor, owned.valid⟩
      · have kept :
            (world.manager.write connection.client YaClient.hungUp).deref
              other.client = world.manager.deref other.client :=
          deref_write_of_ne otherClient keepsAddr
        exact kept.trans owned.stored
      · rw [World.withoutConnection_bevs differentBev]
        exact owned.buffered
    others := by
      intro entry member
      have written :
          entry ∈ (world.manager.write connection.client
            YaClient.hungUp).clients := member
      rw [clients_write] at written
      obtain ⟨original, originalMember, rfl⟩ := List.mem_map.mp written
      by_cases isClient : original.addr = connection.client
      · rw [if_pos isClient]
        exact Or.inr ⟨rfl, rfl⟩
      · rw [if_neg isClient]
        rcases ownership.others original originalMember with
          ⟨other, otherLive, same⟩ | gone
        · refine Or.inl ⟨other, (List.mem_erase_of_ne ?_).mpr otherLive, same⟩
          rintro rfl
          exact isClient same.symm
        · exact Or.inr gone
    stored := by
      intro bev contents buffered
      obtain ⟨different, buffered⟩ := World.withoutConnection_stored buffered
      obtain ⟨other, otherLive, isBev⟩ :=
        ownership.stored bev contents buffered
      refine ⟨other, (List.mem_erase_of_ne ?_).mpr otherLive, isBev⟩
      rintro rfl
      exact different isBev.symm
    descriptors := by
      intro first second firstContents secondContents firstBuffered
        secondBuffered
      exact ownership.descriptors _ _ _ _
        (World.withoutConnection_stored firstBuffered).2
        (World.withoutConnection_stored secondBuffered).2 }

/-! ## Runs of the server -/

/-- The event can happen, and leads from one world to the other: callbacks are
called for live connections only, memory is allocated where nothing is stored,
and a descriptor is not that of a bufferevent.  A read counts also if it stops
at the parameters of its request. -/
def SessionEvent.Occurs [CFloat F] (live : List Connection)
    (world after : World F) : SessionEvent → Prop
  | accepted connection =>
      ∃ fd resources,
        world.bevs connection.bev = none ∧
          (∀ entry ∈ world.manager.clients,
            resources.memory ≠ some entry.addr) ∧
          (∀ other contents, world.bevs other = some contents →
            contents.fd ≠ fd) ∧
          acceptCb fd (some connection.bev) resources world =
            (.ok (some connection.client), after)
  | refused =>
      ∃ fd bev resources,
        (∀ address, bev = some address → world.bevs address = none) ∧
          acceptCb fd bev resources world = (.ok none, after)
  | received connection chunk =>
      connection ∈ live ∧
        (connReadcb connection.bev (some connection.client)
            (world.arrive connection.bev chunk)).2 =
          after
  | ended connection =>
      connection ∈ live ∧
        ∃ events,
          endsConnection events ∧
            connEventcbOn events (some connection.client) world =
              (.ok (), after)
  -- Other events on the connections, and the other servers.
  | waited => world.KeepsOwners after

/-- The worlds that a history of events, the latest first, can lead to from
the start of the server. -/
inductive ServerRun [CFloat F] : List SessionEvent → World F → Prop
  | start {world : World F} :
      world.manager = yaClientManagerInit →
      (∀ bev, world.bevs bev = none) →
      world.stats = { totalConnections := 0, activeConnections := 0 } →
      ServerRun [] world
  | step (event : SessionEvent) {history : List SessionEvent}
      {world after : World F} :
      ServerRun history world →
      event.Occurs (liveConnections history) world after →
      ServerRun (event :: history) after

theorem Ownership.start {world : World F}
    (empty : world.manager = yaClientManagerInit)
    (freed : ∀ bev, world.bevs bev = none) : Ownership [] world := by
  have noClients : world.manager.clients = [] := by
    rw [empty]
    exact List.flatMap_eq_nil_iff.mpr fun _ _ => rfl
  have noBevs {bev : BevId} {contents : Bufferevent}
      (stored : world.bevs bev = some contents) : False := by
    rw [freed] at stored
    cases stored
  exact {
    once := by
      rw [noClients]
      exact List.nodup_nil
    clients := List.nodup_nil
    bevs := List.nodup_nil
    owned := fun connection isLive => absurd isLive List.not_mem_nil
    others := fun entry member => by
      rw [noClients] at member
      exact absurd member List.not_mem_nil
    stored := fun bev contents stored => (noBevs stored).elim
    descriptors := fun first second one two stored _ _ =>
      (noBevs stored).elim }

theorem World.keepsOwners_arrive (world : World F) (bev : BevId)
    (chunk : List UInt8) : world.KeepsOwners (world.arrive bev chunk) := by
  refine ⟨by rw [World.arrive_manager], fun other => ?_, ?_⟩
  · unfold World.arrive
    cases stored : world.bevs bev with
    | none => rfl
    | some contents =>
        by_cases same : other = bev
        · rw [same, stored]
          simp [World.setBev]
        · simp [World.setBev, same]
  · unfold World.arrive
    cases world.bevs bev with
    | none => rfl
    | some contents => rfl

section Run

variable [CFloat F] {world after : World F} {history : List SessionEvent}

theorem Ownership.step {event : SessionEvent}
    (ownership : Ownership (liveConnections history) world)
    (occurs : event.Occurs (liveConnections history) world after) :
    Ownership (liveConnections (event :: history)) after := by
  cases event with
  | accepted connection =>
      obtain ⟨fd, resources, freshBev, freshMemory, freshFd, returned⟩ := occurs
      rcases acceptCb_outcome fd resources freshBev with
        refuses | ⟨created, client, creates, accepts⟩
      · rw [refuses] at returned
        cases returned
      · rw [accepts] at returned
        obtain ⟨sameClient, rfl⟩ := Prod.mk.inj returned
        have isClient : client.addr = connection.client :=
          Option.some.inj (Except.ok.inj sameClient)
        have accepted :=
          ownership.accept freshBev freshMemory freshFd creates
        rw [isClient] at accepted
        exact accepted
  | refused =>
      obtain ⟨fd, bev, resources, fresh, returned⟩ := occurs
      cases bev with
      | none =>
          cases returned
          exact ownership
      | some bev =>
          rcases acceptCb_outcome fd resources (fresh bev rfl) with
            refuses | ⟨created, client, creates, accepts⟩
          · rw [refuses] at returned
            cases returned
            exact ownership
          · rw [accepts] at returned
            cases returned
  | received connection chunk =>
      obtain ⟨isLive, returned⟩ := occurs
      have arrives := world.keepsOwners_arrive connection.bev chunk
      have careful :=
        connReadcb_careful ((ownership.keep arrives).serves isLive)
      exact returned ▸ (ownership.keep arrives).keep careful.1
  | ended connection =>
      obtain ⟨isLive, events, ends, returned⟩ := occurs
      obtain ⟨entry, contents, owned⟩ := ownership.owned connection isLive
      obtain ⟨closed, closes, keeps⟩ := connEventcb_of_owned owned
      rw [connEventcbOn, if_pos ends, closes] at returned
      cases returned
      exact (ownership.finish isLive).keep keeps
  | waited => exact ownership.keep occurs

theorem ServerRun.ownership (run : ServerRun history world) :
    Ownership (liveConnections history) world := by
  induction run with
  | start empty freed _ => exact .start empty freed
  | step event _ occurs inductionHypothesis =>
      exact inductionHypothesis.step occurs

end Run

/-! ## A first connection -/

theorem accepting_serverRun :
    ServerRun [.accepted firstConnection] World.accepting := by
  apply ServerRun.step _
    (.start rfl (fun _ => rfl) rfl : ServerRun [] World.started)
  refine ⟨5, { memory := some 8, mouseFilter := none, time := 0 }, rfl, ?_, ?_,
    rfl⟩
  · rw [World.started_clients]
    exact fun entry member => absurd member List.not_mem_nil
  · intro other contents stored
    cases stored

theorem hungUp_serverRun :
    ServerRun [.ended firstConnection, .accepted firstConnection]
      World.hungUp :=
  .step _ accepting_serverRun
    ⟨List.mem_singleton_self _, BEV_EVENT_EOF, by decide, rfl⟩

end MouseHero
