import MouseHero.Client.Reachable
import MouseHero.Config.Store
import MouseHero.Mpack.Writer
import MouseHero.Server.Sessions

/-!
# The status of the server

`handle_status`, and the counters it is compared with: the callbacks count the
connections, `ya_client_get_count` walks the chains, and the handler walks them
once more.  Clients whose connections have ended stay in the chains.
-/

namespace MouseHero

open MessagePack YaClientManager

variable {F : Type}

/-! ## The handler -/

/-- `ya_server_state_t`. -/
inductive YaServerState where
  | init
  | running
  | stopping
  | stopped
  deriving DecidableEq, Repr

/-- `ya_server_state_to_string`. -/
def yaServerStateToString : YaServerState → String
  | .init => "INIT"
  | .running => "RUNNING"
  | .stopping => "STOPPING"
  | .stopped => "STOPPED"

/-- What `handle_status` reads next to the clients.  `peerAddr` is the text
that `ya_get_peer_addr` writes for a descriptor. -/
structure StatusContext where
  state : YaServerState
  sessionAddr : CString
  commandAddr : CString
  httpAddr : CString
  config : YaConfig
  peerAddr : Int → List UInt8

def mpackWriteLiteral (text : String) : List UInt8 :=
  mpackWriteCstr (literal text)

/-- A string, or an empty one for a null pointer. -/
def mpackWriteOrEmpty (cstr : CString) : List UInt8 :=
  mpackWriteCstr (cString (cstr.getD []))

/-- The map of a client. -/
def clientMap (context : StatusContext) (client : YaClient F) : List UInt8 :=
  mpackStartMap 3 ++
    mpackWriteLiteral "uid" ++ mpackWriteU32 client.uid ++
    mpackWriteLiteral "address" ++
    mpackWriteCstr (cString (context.peerAddr client.fd)) ++
    mpackWriteLiteral "connected_at" ++
    mpackWriteU64 (UInt64.ofInt client.connectedAt)

/-- The maps that the loop over the chains emits. -/
def clientMaps (context : StatusContext) (manager : YaClientManager F) :
    List (List UInt8) :=
  (List.finRange YA_CLIENT_HASH_SIZE).flatMap fun bucket =>
    (manager.buckets bucket).filterMap fun client =>
      if client.state = .active then some (clientMap context client) else none

/-- The response in front of the array of clients. -/
def statusHead (context : StatusContext) : List UInt8 :=
  mpackStartMap 4 ++
    mpackWriteLiteral "server_status" ++
    mpackWriteLiteral (yaServerStateToString context.state) ++
    mpackWriteLiteral "listeners" ++
    mpackStartMap 3 ++
    mpackWriteLiteral "session" ++ mpackWriteOrEmpty context.sessionAddr ++
    mpackWriteLiteral "command" ++ mpackWriteOrEmpty context.commandAddr ++
    mpackWriteLiteral "http" ++ mpackWriteOrEmpty context.httpAddr ++
    mpackWriteLiteral "connected_clients"

/-- The response behind it. -/
def statusTail (context : StatusContext) : List UInt8 :=
  mpackWriteLiteral "log_path" ++
    mpackWriteOrEmpty
      (yaConfigGet context.config (some (literal "logger"))
        (some (literal "file")))

/-- `handle_status`. -/
def handleStatus (context : StatusContext) (manager : YaClientManager F) :
    List UInt8 :=
  statusHead context ++
    mpackStartArray (yaClientGetCount manager) ++
    (clientMaps context manager).flatten ++
    statusTail context

/-! ## The two walks -/

/-- The clients that both walks visit. -/
def YaClientManager.activeClients (manager : YaClientManager F) :
    List (YaClient F) :=
  manager.clients.filter fun client => client.state = .active

theorem clientMaps_eq (context : StatusContext)
    (manager : YaClientManager F) :
    clientMaps context manager =
      manager.activeClients.map (clientMap context) := by
  have chain (clients : List (YaClient F)) :
      (clients.filterMap fun client =>
          if client.state = .active then some (clientMap context client)
          else none) =
        (clients.filter fun client => client.state = .active).map
          (clientMap context) := by
    induction clients with
    | nil => rfl
    | cons client rest inductionHypothesis =>
        by_cases active : client.state = .active
        · simp [active, inductionHypothesis]
        · simp [active, inductionHypothesis]
  simp only [clientMaps, chain, YaClientManager.activeClients,
    YaClientManager.clients, List.filter_flatMap, List.map_flatMap]

theorem yaClientGetCount_eq_length (manager : YaClientManager F) :
    yaClientGetCount manager = UInt32.ofNat manager.activeClients.length := by
  rw [yaClientGetCount_eq, List.countP_eq_length_filter]
  rfl

/-- The active clients are those of the live connections, each of them once. -/
theorem Ownership.perm_activeClients {live : List Connection}
    {world : World F} (ownership : Ownership live world) :
    (world.manager.activeClients.map YaClient.addr).Perm
      (live.map Connection.client) := by
  have once : (world.manager.activeClients.map YaClient.addr).Nodup :=
    ownership.once.sublist (List.filter_sublist.map _)
  rw [List.perm_ext_iff_of_nodup once ownership.clients]
  intro client
  constructor
  · intro isActive
    obtain ⟨entry, member, rfl⟩ := List.mem_map.mp isActive
    obtain ⟨stored, active⟩ := List.mem_filter.mp member
    obtain ⟨connection, isLive, same⟩ :=
      ownership.connection_of_active ⟨stored, by simpa using active⟩
    exact List.mem_map.mpr ⟨connection, isLive, same⟩
  · intro isLive
    obtain ⟨connection, member, rfl⟩ := List.mem_map.mp isLive
    obtain ⟨entry, contents, owned⟩ := ownership.owned connection member
    refine List.mem_map.mpr
      ⟨entry, List.mem_filter.mpr ⟨?_, ?_⟩, addr_of_deref owned.stored⟩
    · exact mem_of_deref owned.stored
    · simpa using owned.active

theorem Ownership.length_activeClients {live : List Connection}
    {world : World F} (ownership : Ownership live world) :
    world.manager.activeClients.length = live.length := by
  simpa using ownership.perm_activeClients.length_eq

/-! ## The counters -/

/-- The connections that are live after an event have been so before it, or
have been accepted by it. -/
theorem balance_step {history : List SessionEvent} (event : SessionEvent)
    (wasLive :
      ∀ connection, event = .ended connection →
        connection ∈ liveConnections history)
    (balance :
      (liveConnections history).length +
          history.countP SessionEvent.isEnded =
        history.countP SessionEvent.isAccepted) :
    (liveConnections (event :: history)).length +
        (event :: history).countP SessionEvent.isEnded =
      (event :: history).countP SessionEvent.isAccepted := by
  simp only [List.countP_cons]
  cases event with
  | accepted connection =>
      simp only [liveConnections, SessionEvent.isAccepted,
        SessionEvent.isEnded, List.length_cons, if_true,
        Bool.false_eq_true, if_false]
      omega
  | ended connection =>
      have isLive := wasLive connection rfl
      have positive := List.length_pos_of_mem isLive
      simp only [liveConnections, SessionEvent.isAccepted,
        SessionEvent.isEnded, List.length_erase_of_mem isLive, if_true,
        Bool.false_eq_true, if_false]
      omega
  | refused => simpa [SessionEvent.isAccepted, SessionEvent.isEnded]
  | received => simpa [SessionEvent.isAccepted, SessionEvent.isEnded]
  | waited => simpa [SessionEvent.isAccepted, SessionEvent.isEnded]

/-- The counters count what the history has. -/
structure YaServerStats.Counts (stats : YaServerStats)
    (history : List SessionEvent) : Prop where
  total :
    stats.totalConnections.toNat = history.countP SessionEvent.isAccepted
  active :
    stats.activeConnections.toNat = (liveConnections history).length
  balance :
    (liveConnections history).length + history.countP SessionEvent.isEnded =
      history.countP SessionEvent.isAccepted

section Counts

variable {history : List SessionEvent} {connection : Connection}
variable {stats : YaServerStats}

theorem YaServerStats.Counts.accept (counts : stats.Counts history)
    (few :
      (.accepted connection :: history).countP SessionEvent.isAccepted <
        2 ^ 32) :
    ({ totalConnections := stats.totalConnections + 1
       activeConnections := stats.activeConnections + 1 } :
        YaServerStats).Counts (.accepted connection :: history) := by
  have balance := balance_step (.accepted connection)
    (fun other impossible => by cases impossible) counts.balance
  obtain ⟨total, active, earlier⟩ := counts
  refine ⟨?_, ?_, balance⟩
  all_goals
    simp only [List.countP_cons, liveConnections, SessionEvent.isAccepted,
      if_true, List.length_cons] at few ⊢
    rw [UInt32.toNat_add, UInt32.toNat_one]
    omega

theorem YaServerStats.Counts.finish (counts : stats.Counts history)
    (isLive : connection ∈ liveConnections history) :
    stats.decremented.Counts (.ended connection :: history) := by
  have balance := balance_step (.ended connection)
    (fun other same => by cases same; exact isLive) counts.balance
  obtain ⟨total, active, earlier⟩ := counts
  have positive := List.length_pos_of_mem isLive
  have someActive : 0 < stats.activeConnections := by
    rw [UInt32.lt_iff_toNat_lt, active]
    exact positive
  have one : (1 : UInt32) ≤ stats.activeConnections := by
    rw [UInt32.le_iff_toNat_le, active]
    exact positive
  refine ⟨?_, ?_, balance⟩
  · simpa [YaServerStats.decremented, SessionEvent.isAccepted] using total
  · simp only [YaServerStats.decremented, if_pos someActive, liveConnections,
      List.length_erase_of_mem isLive]
    rw [UInt32.toNat_sub_of_le _ _ one, active]
    rfl

theorem YaServerStats.Counts.keep {event : SessionEvent}
    (counts : stats.Counts history)
    (sameLive : liveConnections (event :: history) = liveConnections history)
    (notAccepted : event.isAccepted = false)
    (notEnded : event.isEnded = false) :
    stats.Counts (event :: history) := by
  obtain ⟨total, active, balance⟩ := counts
  refine ⟨?_, ?_, ?_⟩ <;>
    simpa [List.countP_cons, sameLive, notAccepted, notEnded]

end Counts

section Run

variable [CFloat F] {world after : World F} {history : List SessionEvent}

theorem YaServerStats.Counts.step {event : SessionEvent}
    (counts : world.stats.Counts history)
    (ownership : Ownership (liveConnections history) world)
    (occurs : event.Occurs (liveConnections history) world after)
    (few :
      (event :: history).countP SessionEvent.isAccepted < 2 ^ 32) :
    after.stats.Counts (event :: history) := by
  cases event with
  | accepted connection =>
      obtain ⟨fd, resources, freshBev, -, -, returned⟩ := occurs
      rcases acceptCb_outcome fd resources freshBev with
        refuses | ⟨created, client, creates, accepts⟩
      · rw [refuses] at returned
        cases returned
      · rw [accepts] at returned
        obtain ⟨-, rfl⟩ := Prod.mk.inj returned
        exact counts.accept few
  | refused =>
      obtain ⟨fd, bev, resources, fresh, returned⟩ := occurs
      cases bev with
      | none =>
          cases returned
          exact counts.keep rfl rfl rfl
      | some bev =>
          rcases acceptCb_outcome fd resources (fresh bev rfl) with
            refuses | ⟨created, client, creates, accepts⟩
          · rw [refuses] at returned
            cases returned
            exact counts.keep rfl rfl rfl
          · rw [accepts] at returned
            cases returned
  | received connection chunk =>
      obtain ⟨isLive, returned⟩ := occurs
      have arrives := world.keepsOwners_arrive connection.bev chunk
      have careful :=
        connReadcb_careful ((ownership.keep arrives).serves isLive)
      have same := arrives.stats.trans careful.1.stats
      rw [returned] at same
      rw [← same]
      exact counts.keep rfl rfl rfl
  | ended connection =>
      obtain ⟨isLive, events, ends, returned⟩ := occurs
      obtain ⟨entry, contents, owned⟩ := ownership.owned connection isLive
      obtain ⟨closed, closes, keeps⟩ := connEventcb_of_owned owned
      rw [connEventcbOn, if_pos ends, closes] at returned
      cases returned
      rw [← keeps.stats]
      exact counts.finish isLive
  | waited =>
      have keeps : world.KeepsOwners after := occurs
      rw [← keeps.stats]
      exact counts.keep rfl rfl rfl

theorem ServerRun.counts (run : ServerRun history world)
    (few : history.countP SessionEvent.isAccepted < 2 ^ 32) :
    world.stats.Counts history := by
  induction run with
  | start empty freed initial =>
      rw [initial]
      exact ⟨rfl, rfl, rfl⟩
  | step event earlier occurs inductionHypothesis =>
      have fewEarlier := few
      rw [List.countP_cons] at fewEarlier
      exact (inductionHypothesis (by omega)).step earlier.ownership occurs few

/-- The counters, the count of the active clients and the response of
`handle_status` agree. -/
structure CountersAgree (history : List SessionEvent) (world : World F)
    (context : StatusContext) : Prop where
  active : world.stats.activeConnections = yaClientGetCount world.manager
  emitted :
    (clientMaps context world.manager).length =
      world.stats.activeConnections.toNat
  declared :
    ∃ header,
      ArrayHeader (clientMaps context world.manager).length header ∧
        handleStatus context world.manager =
          statusHead context ++ header ++
            (clientMaps context world.manager).flatten ++ statusTail context
  total :
    world.stats.totalConnections.toNat =
      world.stats.activeConnections.toNat +
        history.countP SessionEvent.isEnded

theorem ServerRun.countersAgree (run : ServerRun history world)
    (few : history.countP SessionEvent.isAccepted < 2 ^ 32)
    (context : StatusContext) : CountersAgree history world context := by
  have counts := run.counts few
  have sameLength := run.ownership.length_activeClients
  have maps : (clientMaps context world.manager).length =
      world.stats.activeConnections.toNat := by
    rw [clientMaps_eq, List.length_map, sameLength, counts.active]
  have active : world.stats.activeConnections =
      yaClientGetCount world.manager := by
    rw [yaClientGetCount_eq_length, sameLength, ← counts.active,
      UInt32.ofNat_toNat]
  have header := mpackStartArray_header (yaClientGetCount world.manager)
  rw [← active, ← maps] at header
  refine ⟨active, maps, ⟨_, header, ?_⟩, ?_⟩
  · rw [active]
    rfl
  · rw [counts.total, counts.active, counts.balance]

end Run

/-- A running server with clients on its own machine. -/
def StatusContext.running : StatusContext where
  state := .running
  sessionAddr := none
  commandAddr := none
  httpAddr := none
  config := yaConfigInit
  peerAddr := fun _ => literal "127.0.0.1"

theorem countersAgree_hungUp :
    CountersAgree [.ended firstConnection, .accepted firstConnection]
      World.hungUp .running :=
  hungUp_serverRun.countersAgree (by decide) .running

end MouseHero
