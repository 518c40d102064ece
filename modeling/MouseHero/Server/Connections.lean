import MouseHero.Server.FrameConditions
import MouseHero.Server.Session

/-!
# Clients and connections

The callbacks of the session server in any order.  The end of a connection
marks its client as disconnecting, but a client is freed only once it is
marked as disconnected, which no callback does: every client stays in the
table.
-/

namespace MouseHero

open FaultM YaClientManager

variable {F : Type} {Answer Next : Type}

/-! ## What the callbacks keep -/

/-- No client is marked as disconnected. -/
def YaClientManager.NoneDisconnected (manager : YaClientManager F) : Prop :=
  ∀ client ∈ manager.clients, client.state ≠ .disconnected

/-- If no client is marked as disconnected, none gets marked and none is freed
or created. -/
def YaClientManager.KeepsClients (before after : YaClientManager F) : Prop :=
  before.NoneDisconnected →
    after.NoneDisconnected ∧
      after.clients.map YaClient.addr = before.clients.map YaClient.addr ∧
      after.clientCount = before.clientCount

/-- The table keeps its clients. -/
def World.KeepsClients (before after : World F) : Prop :=
  before.manager.KeepsClients after.manager

theorem World.keepsClients_refl (world : World F) : world.KeepsClients world :=
  fun none => ⟨none, rfl, rfl⟩

theorem World.keepsClients_trans (first middle last : World F)
    (initial : first.KeepsClients middle)
    (later : middle.KeepsClients last) : first.KeepsClients last := by
  intro none
  obtain ⟨noneMiddle, addresses, count⟩ := initial none
  obtain ⟨noneLast, addresses', count'⟩ := later noneMiddle
  exact ⟨noneLast, addresses'.trans addresses, count'.trans count⟩

theorem bind_keepsClients {first : ServerM F Answer}
    {next : Answer → ServerM F Next}
    (firstKeeps : Respects World.KeepsClients first)
    (nextKeeps : ∀ value, Respects World.KeepsClients (next value)) :
    Respects World.KeepsClients (first >>= next) :=
  respects_bind World.keepsClients_trans firstKeeps nextKeeps

theorem pure_keepsClients (value : Answer) :
    Respects World.KeepsClients (pure value : ServerM F Answer) :=
  respects_pure World.keepsClients_refl value

theorem fault_keepsClients (reason : Fault) :
    Respects World.KeepsClients (fault reason : ServerM F Answer) :=
  respects_fault World.keepsClients_refl reason

theorem getState_keepsClients :
    Respects World.KeepsClients (getState : ServerM F (World F)) :=
  respects_getState World.keepsClients_refl

theorem modifyState_keepsClients {update : World F → World F}
    (sameManager : ∀ world, (update world).manager = world.manager) :
    Respects World.KeepsClients (modifyState update : ServerM F Unit) := by
  apply respects_modifyState
  intro world none
  rw [sameManager]
  exact ⟨none, rfl, rfl⟩

/-- Writing to clients, except to mark one as disconnected. -/
theorem keepsClients_write (manager : YaClientManager F) (client : ClientId)
    {change : YaClient F → YaClient F}
    (keepsAddr : ∀ entry, (change entry).addr = entry.addr)
    (marksNone : ∀ entry, entry.state ≠ .disconnected →
      (change entry).state ≠ .disconnected) :
    manager.KeepsClients (manager.write client change) := by
  intro none
  refine ⟨?_, addresses_write keepsAddr, rfl⟩
  intro entry member
  rw [clients_write] at member
  obtain ⟨original, originalMember, rfl⟩ := List.mem_map.mp member
  split
  · exact marksNone original (none original originalMember)
  · exact none original originalMember

theorem writeClient_keepsClients (client : ClientId)
    {change : YaClient F → YaClient F}
    (keepsAddr : ∀ entry, (change entry).addr = entry.addr)
    (marksNone : ∀ entry, entry.state ≠ .disconnected →
      (change entry).state ≠ .disconnected) :
    Respects World.KeepsClients (writeClient client change) :=
  respects_modifyState fun world =>
    keepsClients_write world.manager client keepsAddr marksNone

private theorem keepsClients_of_records {before after : World F}
    (same :
      before.manager.view YaClient.record =
        after.manager.view YaClient.record) :
    before.KeepsClients after := by
  have records := congrArg YaClientManager.clients same
  rw [clients_view, clients_view] at records
  intro none
  refine ⟨?_, ?_, ?_⟩
  · intro entry member
    have recorded : entry.record ∈ before.manager.clients.map YaClient.record := by
      rw [records]
      exact List.mem_map_of_mem member
    obtain ⟨original, originalMember, sameRecord⟩ := List.mem_map.mp recorded
    have sameState := congrArg YaClient.state sameRecord
    exact sameState ▸ none original originalMember
  · have addresses := congrArg (List.map YaClient.addr) records
    rw [List.map_map, List.map_map] at addresses
    exact addresses.symm
  · exact (congrArg YaClientManager.clientCount same).symm

/-! ## The callbacks -/

theorem derefClient_keepsClients (client : ClientId) :
    Respects World.KeepsClients (derefClient client : ServerM F (YaClient F)) := by
  apply bind_keepsClients getState_keepsClients
  intro world
  cases world.manager.deref client with
  | none => exact fault_keepsClients _
  | some entry => exact pure_keepsClients _

theorem derefBev_keepsClients (bev : Option BevId) :
    Respects World.KeepsClients (derefBev bev : ServerM F Bufferevent) := by
  cases bev with
  | none => exact fault_keepsClients _
  | some bev =>
      apply bind_keepsClients getState_keepsClients
      intro world
      cases world.bevs bev with
      | none => exact fault_keepsClients _
      | some contents => exact pure_keepsClients _

theorem writeBev_keepsClients (bev : BevId)
    (change : Bufferevent → Bufferevent) :
    Respects World.KeepsClients (writeBev bev change : ServerM F Unit) :=
  bind_keepsClients (derefBev_keepsClients _) fun _ =>
    modifyState_keepsClients fun _ => rfl

private theorem buffereventFree_keepsClients (bev : BevId) :
    Respects World.KeepsClients (buffereventFree bev : ServerM F Unit) := by
  apply bind_keepsClients getState_keepsClients
  intro world
  cases world.bevs bev with
  | none => exact fault_keepsClients _
  | some contents => exact modifyState_keepsClients fun _ => rfl

/-- Releasing a client that is not marked as disconnected frees nothing. -/
theorem unrefClient_of_connected {world : World F} {client : ClientId}
    {entry : YaClient F} (stored : world.manager.deref client = some entry)
    (connected : entry.state ≠ .disconnected) :
    unrefClient client world =
      (.ok (),
        { world with manager := (yaClientUnref world.manager entry).1 }) := by
  rw [unrefClient, bind_of_ok (derefClient_of_some stored),
    bind_of_ok (getState_apply world)]
  simp only [yaClientUnref_freed world.manager connected]
  rfl

theorem yaClientUnref_keepsClients (manager : YaClientManager F)
    {entry : YaClient F} (connected : entry.state ≠ .disconnected) :
    manager.KeepsClients (yaClientUnref manager entry).1 := by
  unfold yaClientUnref
  split
  · simp only [connected, and_false, if_false]
    exact keepsClients_write _ _ (fun _ => rfl) fun _ kept => kept
  · exact fun none => ⟨none, rfl, rfl⟩

theorem unrefClient_keepsClients (client : ClientId) :
    Respects World.KeepsClients (unrefClient client : ServerM F Unit) := by
  intro world none
  cases stored : world.manager.deref client with
  | none =>
      have dangling :
          derefClient client world = (.error .useAfterFree, world) := by
        rw [derefClient, bind_of_ok (getState_apply world), stored]
        rfl
      rw [unrefClient, bind_of_fault dangling]
      exact ⟨none, rfl, rfl⟩
  | some entry =>
      have connected := none entry (mem_of_deref stored)
      rw [unrefClient_of_connected stored connected]
      exact yaClientUnref_keepsClients world.manager connected none

private theorem validateCommandIndex_keepsClients (target : Option ClientId)
    (event : YAEvent F) :
    Respects World.KeepsClients (validateCommandIndex target event) := by
  cases target with
  | none => exact pure_keepsClients _
  | some client =>
      refine respects_ite ?_ (pure_keepsClients _)
      apply bind_keepsClients (derefClient_keepsClients _)
      intro entry
      refine respects_ite (pure_keepsClients _) ?_
      exact bind_keepsClients
        (writeClient_keepsClients _ (fun _ => rfl) fun _ kept => kept)
        fun _ => pure_keepsClients _

variable [CFloat F]

private theorem processServerEvent_keepsClients (bev : Option BevId)
    (event : YAEvent F) (target : Option ClientId) :
    Respects World.KeepsClients (processServerEvent bev event target) := by
  have recorded (call : ServerCall F) :
      Respects World.KeepsClients (recordCall call) :=
    modifyState_keepsClients fun _ => rfl
  unfold processServerEvent findEventHandler
  cases YAEventType.ofCode? event.header.type with
  | none =>
      exact bind_keepsClients (recorded _) fun _ => pure_keepsClients _
  | some type =>
      apply bind_keepsClients (validateCommandIndex_keepsClients _ _)
      intro executed
      apply bind_keepsClients (recorded _)
      intro _
      refine respects_ite ?_ (pure_keepsClients _)
      exact fun world =>
        keepsClients_of_records
          (eventHandler_keepsRecords type world bev event).records

private theorem respond_keepsClients (bev : BevId) (response : Option (YAEvent F)) :
    Respects World.KeepsClients (respond bev response) := by
  rcases respond_cases bev response with
    dropped | ⟨event, reason, -, stops⟩ | ⟨bytes, appends⟩
  · rw [dropped]
    exact pure_keepsClients _
  · rw [stops]
    exact fault_keepsClients _
  · rw [appends]
    exact writeBev_keepsClients _ _

theorem connReadcb_keepsClients (bev : BevId) (client : ClientId) :
    Respects World.KeepsClients (connReadcb bev (some client) : ServerM F Unit) := by
  apply bind_keepsClients (derefClient_keepsClients _)
  intro entry
  refine respects_ite (pure_keepsClients _) ?_
  apply bind_keepsClients (derefBev_keepsClients _)
  intro contents
  cases yaGetPackageSize contents.input with
  | error reason => exact fault_keepsClients _
  | ok size =>
      refine respects_ite ?_ (pure_keepsClients _)
      cases yaParseEvent (F := F) (evbufferDrain contents.input 8) YAEvent.zero
          size with
      | error reason => exact fault_keepsClients _
      | ok parsed =>
          apply bind_keepsClients (writeBev_keepsClients _ _)
          intro _
          refine respects_ite (pure_keepsClients _) ?_
          apply bind_keepsClients
          · exact respects_modifyState fun world =>
              keepsClients_write world.manager client (fun _ => rfl)
                fun _ kept => kept
          intro _
          apply bind_keepsClients (processServerEvent_keepsClients _ _ _)
          intro response
          exact bind_keepsClients (respond_keepsClients _ _) fun _ =>
            unrefClient_keepsClients _

omit [CFloat F] in
theorem connEventcb_keepsClients (client : ClientId) :
    Respects World.KeepsClients (connEventcb (some client) : ServerM F Unit) := by
  apply bind_keepsClients (derefClient_keepsClients _)
  intro entry
  refine bind_keepsClients (modifyState_keepsClients fun _ => rfl)
    fun _ => ?_
  refine bind_keepsClients
    (writeClient_keepsClients _ (fun _ => rfl) fun _ _ => nofun) fun _ => ?_
  cases entry.bev with
  | none => exact unrefClient_keepsClients _
  | some bev =>
      apply bind_keepsClients (buffereventFree_keepsClients _)
      intro _
      exact bind_keepsClients
        (writeClient_keepsClients _ (fun _ => rfl) fun _ kept => kept)
        fun _ => unrefClient_keepsClients _

/-! ## New clients -/

omit [CFloat F] in
/-- `ya_client_create` returns no client, or adds an ACTIVE one. -/
theorem yaClientCreate_cases (manager : YaClientManager F) (fd : Int)
    (bev : Option BevId) (resources : ClientResources F) :
    yaClientCreate manager fd bev resources = (manager, none) ∨
      ∃ created client,
        yaClientCreate manager fd bev resources = (created, some client) ∧
          client.state = .active ∧
          created.clients.Perm (client :: manager.clients) ∧
          created.clientCount = manager.clientCount + 1 := by
  unfold yaClientCreate
  split
  · exact Or.inl rfl
  · cases resources.memory with
    | none => exact Or.inl rfl
    | some addr =>
        refine Or.inr ⟨_, _, rfl, rfl, ?_, rfl⟩
        exact ChainedTable.flatMap_insert_perm (List.nodup_finRange _)
          (List.mem_finRange _) manager.buckets

omit [CFloat F] in
/-- A connection is refused and the table left alone, or it is accepted and
gets a new client. -/
theorem acceptCb_cases (fd : Int) (bev : Option BevId)
    (resources : ClientResources F) (world : World F) :
    ∃ answer after,
      acceptCb fd bev resources world = (.ok answer, after) ∧
        ((answer = none ∧ after.manager = world.manager) ∨
          ∃ entry : YaClient F,
            answer = some entry.addr ∧ entry.state = .active ∧
              after.manager.clients.Perm (entry :: world.manager.clients) ∧
              after.manager.clientCount = world.manager.clientCount + 1) := by
  cases bev with
  | none => exact ⟨none, world, rfl, Or.inl ⟨rfl, rfl⟩⟩
  | some bev =>
      simp only [acceptCb]
      rw [bind_of_ok (modifyState_apply _ world),
        bind_of_ok (getState_apply _)]
      rcases yaClientCreate_cases world.manager fd (some bev) resources with
        none | ⟨created, entry, some, active, perm, count⟩
      · simp only [World.setBev, none]
        rw [bind_of_ok (modifyState_apply _ _)]
        have freed :
            buffereventFree bev
                { world with
                  bevs := fun other =>
                    if other = bev then
                      Option.some { fd, input := [], output := [] }
                    else world.bevs other } =
              (.ok (), _) :=
          buffereventFree_of_some (if_pos rfl)
        rw [bind_of_ok freed]
        exact ⟨_, _, rfl, Or.inl ⟨rfl, rfl⟩⟩
      · simp only [World.setBev, some]
        rw [bind_of_ok (modifyState_apply _ _), yaServerStatsIncConnections,
          bind_of_ok (modifyState_apply _ _)]
        exact ⟨_, _, rfl, Or.inr ⟨entry, rfl, active, perm, count⟩⟩

/-! ## Runs -/

/-- A connection: its bufferevent and the client that its callbacks get. -/
structure Connection where
  bev : BevId
  client : ClientId
  deriving DecidableEq, Repr

/-- What happens to the session server. -/
inductive SessionEvent where
  | accepted (connection : Connection)
  | refused
  | received (connection : Connection) (chunk : List UInt8)
  | ended (connection : Connection)
  | waited
  deriving DecidableEq, Repr

namespace SessionEvent

def isAccepted : SessionEvent → Bool
  | accepted _ => true
  | _ => false

def isEnded : SessionEvent → Bool
  | ended _ => true
  | _ => false

end SessionEvent

/-- The connections that have been accepted and have not ended.  The latest
event comes first. -/
def liveConnections : List SessionEvent → List Connection
  | [] => []
  | .accepted connection :: earlier => connection :: liveConnections earlier
  | .ended connection :: earlier => (liveConnections earlier).erase connection
  | _ :: earlier => liveConnections earlier

/-- The event can happen, and leads from one world to the other.  Callbacks
are called for live connections only, and memory is allocated where nothing
is stored. -/
def SessionEvent.Possible (live : List Connection) (world after : World F) :
    SessionEvent → Prop
  | accepted connection =>
      ∃ fd resources,
        world.bevs connection.bev = none ∧
          (∀ entry ∈ world.manager.clients,
            resources.memory ≠ some entry.addr) ∧
          acceptCb fd (some connection.bev) resources world =
            (.ok (some connection.client), after)
  | refused =>
      ∃ fd bev resources, acceptCb fd bev resources world = (.ok none, after)
  | received connection chunk =>
      connection ∈ live ∧
        connReadcb connection.bev (some connection.client)
            (world.arrive connection.bev chunk) =
          (.ok (), after)
  | ended connection =>
      connection ∈ live ∧
        connEventcb (some connection.client) world = (.ok (), after)
  -- The devices, the clock and the other servers go on.
  | waited => after.manager = world.manager ∧ after.bevs = world.bevs

/-- The worlds that a history of events, the latest first, can lead to. -/
inductive SessionRun : List SessionEvent → World F → Prop
  | start {world : World F} :
      world.manager = yaClientManagerInit →
      (∀ bev, world.bevs bev = none) →
      SessionRun [] world
  | step (event : SessionEvent) {history : List SessionEvent}
      {world after : World F} :
      SessionRun history world →
      event.Possible (liveConnections history) world after →
      SessionRun (event :: history) after

/-! ## The table after a run -/

/-- What the table has to do with the history. -/
structure TableInvariant (history : List SessionEvent) (world : World F) :
    Prop where
  states : world.manager.NoneDisconnected
  entries :
    world.manager.clients.length = history.countP SessionEvent.isAccepted
  count :
    world.manager.clientCount =
      UInt32.ofNat (history.countP SessionEvent.isAccepted)
  live :
    (liveConnections history).length + history.countP SessionEvent.isEnded =
      history.countP SessionEvent.isAccepted
  known :
    ∀ connection, .accepted connection ∈ history →
      connection.client ∈ world.manager.clients.map YaClient.addr
  ended :
    ∀ connection, .ended connection ∈ history →
      .accepted connection ∈ history

private theorem accepted_of_live {history : List SessionEvent}
    {connection : Connection}
    (live : connection ∈ liveConnections history) :
    .accepted connection ∈ history := by
  induction history with
  | nil => cases live
  | cons event earlier inductionHypothesis =>
      have later (live : connection ∈ liveConnections earlier) :
          .accepted connection ∈ event :: earlier :=
        List.mem_cons_of_mem _ (inductionHypothesis live)
      cases event with
      | accepted other =>
          rcases List.mem_cons.mp live with rfl | earlierLive
          · exact List.mem_cons_self
          · exact later earlierLive
      | refused => exact later live
      | received => exact later live
      | ended => exact later (List.mem_of_mem_erase live)
      | waited => exact later live

omit [CFloat F] in
theorem tableInvariant_start {world : World F}
    (initial : world.manager = yaClientManagerInit) :
    TableInvariant [] world := by
  have empty : world.manager.clients = [] := by
    rw [initial]
    exact List.flatMap_eq_nil_iff.mpr fun _ _ => rfl
  exact {
    states := by
      intro client member
      rw [empty] at member
      cases member
    entries := by rw [empty]; rfl
    count := by rw [initial]; rfl
    live := rfl
    known := nofun
    ended := nofun }

omit [CFloat F] in
/-- An event that keeps the clients, and neither accepts nor ends a
connection. -/
theorem TableInvariant.silent {history : List SessionEvent}
    {world after : World F} {event : SessionEvent}
    (invariant : TableInvariant history world)
    (keeps : world.KeepsClients after)
    (sameLive :
      liveConnections (event :: history) = liveConnections history)
    (acceptsNone : event.isAccepted = false)
    (endsNone : event.isEnded = false) :
    TableInvariant (event :: history) after := by
  obtain ⟨states, addresses, count⟩ := keeps invariant.states
  have sameLength := congrArg List.length addresses
  simp only [List.length_map] at sameLength
  exact {
    states := states
    entries := by
      rw [sameLength, invariant.entries, List.countP_cons, acceptsNone]
      rfl
    count := by
      rw [count, invariant.count, List.countP_cons, acceptsNone]
      rfl
    live := by
      rw [sameLive, List.countP_cons, List.countP_cons, acceptsNone, endsNone]
      exact invariant.live
    known := by
      intro connection accepted
      rw [addresses]
      rcases List.mem_cons.mp accepted with rfl | earlier
      · cases acceptsNone
      · exact invariant.known connection earlier
    ended := by
      intro connection ended
      rcases List.mem_cons.mp ended with rfl | earlier
      · cases endsNone
      · exact List.mem_cons_of_mem _ (invariant.ended connection earlier) }

omit [CFloat F] in
theorem TableInvariant.accepted {history : List SessionEvent}
    {world after : World F} {connection : Connection} {entry : YaClient F}
    (invariant : TableInvariant history world)
    (pointer : entry.addr = connection.client)
    (active : entry.state = .active)
    (perm : after.manager.clients.Perm (entry :: world.manager.clients))
    (count : after.manager.clientCount = world.manager.clientCount + 1) :
    TableInvariant (.accepted connection :: history) after where
  states := by
    intro client member
    rcases List.mem_cons.mp (perm.mem_iff.mp member) with rfl | old
    · rw [active]
      nofun
    · exact invariant.states client old
  entries := by
    rw [perm.length_eq, List.length_cons, invariant.entries]
    exact (List.countP_cons_of_pos rfl).symm
  count := by
    rw [count, invariant.count,
      List.countP_cons_of_pos (p := SessionEvent.isAccepted) rfl,
      UInt32.ofNat_add]
    rfl
  live := by
    have live := invariant.live
    simp only [liveConnections, List.countP_cons, SessionEvent.isAccepted,
      SessionEvent.isEnded, List.length_cons]
    simp only [if_true, Bool.false_eq_true, if_false]
    omega
  known := by
    intro other accepted
    have addresses := perm.map YaClient.addr
    rw [List.map_cons] at addresses
    rw [addresses.mem_iff]
    rcases List.mem_cons.mp accepted with same | earlier
    · cases same
      rw [pointer]
      exact List.mem_cons_self
    · exact List.mem_cons_of_mem _ (invariant.known other earlier)
  ended := by
    intro other ended
    rcases List.mem_cons.mp ended with impossible | earlier
    · cases impossible
    · exact List.mem_cons_of_mem _ (invariant.ended other earlier)

omit [CFloat F] in
theorem TableInvariant.finished {history : List SessionEvent}
    {world after : World F} {connection : Connection}
    (invariant : TableInvariant history world)
    (live : connection ∈ liveConnections history)
    (keeps : world.KeepsClients after) :
    TableInvariant (.ended connection :: history) after := by
  obtain ⟨states, addresses, count⟩ := keeps invariant.states
  have sameLength := congrArg List.length addresses
  simp only [List.length_map] at sameLength
  exact {
    states := states
    entries := by
      rw [sameLength, invariant.entries]
      rfl
    count := by
      rw [count, invariant.count]
      rfl
    live := by
      have erased := List.length_erase_of_mem live
      have balance := invariant.live
      have positive := List.length_pos_of_mem live
      simp only [liveConnections, List.countP_cons, SessionEvent.isAccepted,
        SessionEvent.isEnded]
      simp only [if_true, Bool.false_eq_true, if_false]
      omega
    known := by
      intro other accepted
      rw [addresses]
      rcases List.mem_cons.mp accepted with impossible | earlier
      · cases impossible
      · exact invariant.known other earlier
    ended := by
      intro other ended
      rcases List.mem_cons.mp ended with same | earlier
      · cases same
        exact List.mem_cons_of_mem _ (accepted_of_live live)
      · exact List.mem_cons_of_mem _ (invariant.ended other earlier) }

theorem TableInvariant.step {history : List SessionEvent}
    {world after : World F} {event : SessionEvent}
    (invariant : TableInvariant history world)
    (possible : event.Possible (liveConnections history) world after) :
    TableInvariant (event :: history) after := by
  cases event with
  | accepted connection =>
      obtain ⟨fd, resources, -, -, accepted⟩ := possible
      obtain ⟨answer, reached, outcome, refused | ⟨entry, created, facts⟩⟩ :=
        acceptCb_cases fd (some connection.bev) resources world
      · rw [outcome, refused.1] at accepted
        cases accepted
      · rw [outcome, created, Prod.mk.injEq, Except.ok.injEq,
          Option.some.injEq] at accepted
        obtain ⟨pointer, rfl⟩ := accepted
        exact invariant.accepted pointer facts.1 facts.2.1 facts.2.2
  | refused =>
      obtain ⟨fd, bev, resources, refused⟩ := possible
      obtain ⟨answer, reached, outcome, unchanged | ⟨entry, created, -⟩⟩ :=
        acceptCb_cases fd bev resources world
      · rw [outcome] at refused
        cases refused
        apply invariant.silent _ rfl rfl rfl
        rw [World.KeepsClients, unchanged.2]
        exact fun none => ⟨none, rfl, rfl⟩
      · rw [outcome, created] at refused
        cases refused
  | received connection chunk =>
      obtain ⟨-, returned⟩ := possible
      apply invariant.silent _ rfl rfl rfl
      have keeps :=
        connReadcb_keepsClients connection.bev connection.client
          (world.arrive connection.bev chunk)
      rw [returned, World.KeepsClients, World.arrive_manager] at keeps
      exact keeps
  | ended connection =>
      obtain ⟨live, returned⟩ := possible
      apply invariant.finished live
      have keeps := connEventcb_keepsClients connection.client world
      rw [returned] at keeps
      exact keeps
  | waited =>
      apply invariant.silent _ rfl rfl rfl
      rw [World.KeepsClients, possible.1]
      exact fun none => ⟨none, rfl, rfl⟩

theorem SessionRun.tableInvariant {history : List SessionEvent}
    {world : World F} (run : SessionRun history world) :
    TableInvariant history world := by
  induction run with
  | start initial => exact tableInvariant_start initial
  | step event earlier possible inductionHypothesis =>
      exact inductionHypothesis.step possible

/-! ## Clients and connections -/

/-- No client outlives its connection: the table and its counter have as many
clients as there are live connections, and the clients of the connections that
have ended are not in the table. -/
structure NoClientOutlives (history : List SessionEvent) (world : World F) :
    Prop where
  entries :
    world.manager.clients.length = (liveConnections history).length
  count :
    world.manager.clientCount.toNat = (liveConnections history).length
  freed :
    ∀ connection, .ended connection ∈ history →
      world.manager.deref connection.client = none

/-- No client outlives its connection as long as no connection ends and the
counter does not wrap.  After that one does, since the client of a connection
that has ended stays in the table. -/
theorem noClientOutlives_iff {history : List SessionEvent} {world : World F}
    (run : SessionRun history world) :
    (NoClientOutlives history world ↔
      (∀ connection, .ended connection ∉ history) ∧
        history.countP SessionEvent.isAccepted < 2 ^ 32) ∧
    ∀ connection, .ended connection ∈ history →
      (world.manager.deref connection.client).isSome := by
  have invariant := run.tableInvariant
  have stays : ∀ connection, .ended connection ∈ history →
      (world.manager.deref connection.client).isSome := by
    intro connection ended
    have linked := invariant.known connection (invariant.ended connection ended)
    obtain ⟨entry, member, pointer⟩ := List.mem_map.mp linked
    rw [YaClientManager.deref, List.find?_isSome]
    exact ⟨entry, member, decide_eq_true pointer⟩
  refine ⟨⟨?_, ?_⟩, stays⟩
  · intro holds
    constructor
    · intro connection ended
      have inTable := stays connection ended
      rw [holds.freed connection ended] at inTable
      cases inTable
    · rw [← invariant.entries, holds.entries, ← holds.count]
      exact world.manager.clientCount.toNat_lt
  · rintro ⟨noneEnded, bound⟩
    have balance := invariant.live
    have noEnd : history.countP SessionEvent.isEnded = 0 := by
      rw [List.countP_eq_zero]
      intro event member
      cases event with
      | ended connection => exact absurd member (noneEnded connection)
      | _ => exact Bool.false_ne_true
    rw [noEnd, Nat.add_zero] at balance
    exact {
      entries := by rw [invariant.entries, balance]
      count := by
        rw [invariant.count, UInt32.toNat_ofNat', Nat.mod_eq_of_lt bound,
          balance]
      freed := fun connection ended =>
        absurd ended (noneEnded connection) }

/-! ## A first connection -/

def firstConnection : Connection where
  bev := 16
  client := 8

/-- The server after it has accepted a first connection. -/
def World.accepting : World Rat :=
  (acceptCb 5 (some 16) { memory := some 8, mouseFilter := none, time := 0 }
    World.started).2

/-- The server after that connection has ended. -/
def World.hungUp : World Rat :=
  (connEventcb (some 8) World.accepting).2

theorem accepting_run :
    SessionRun [.accepted firstConnection] World.accepting := by
  apply SessionRun.step _ (.start rfl fun _ => rfl : SessionRun [] World.started)
  refine ⟨5, { memory := some 8, mouseFilter := none, time := 0 }, rfl, ?_, rfl⟩
  rw [World.started_clients]
  exact fun entry member => absurd member List.not_mem_nil

private theorem hungUp_run :
    SessionRun [.ended firstConnection, .accepted firstConnection]
      World.hungUp :=
  .step _ accepting_run ⟨List.mem_singleton_self _, rfl⟩

theorem noClientOutlives_accepting :
    NoClientOutlives [.accepted firstConnection] World.accepting :=
  (noClientOutlives_iff accepting_run).1.mpr
    ⟨fun _ ended => (by cases List.mem_singleton.mp ended), by decide⟩

/-- The client of the first connection outlives it. -/
theorem hungUp_outlives :
    SessionRun [.ended firstConnection, .accepted firstConnection]
        World.hungUp ∧
      liveConnections [.ended firstConnection, .accepted firstConnection] = [] ∧
      World.hungUp.manager.clientCount = 1 ∧
      ¬ NoClientOutlives [.ended firstConnection, .accepted firstConnection]
        World.hungUp := by
  refine ⟨hungUp_run, rfl, rfl, ?_⟩
  intro holds
  have counted : (1 : UInt32).toNat = 0 := holds.count
  cases counted

end MouseHero
