import MouseHero.Event.Parsed
import MouseHero.Server.Requests

/-!
# Authorization binds the client of the connection

`handle_authorize` looks for the client by the descriptor of the bufferevent.
On a system that does not hand out a descriptor twice, this is the client of
the connection, whatever the header of the request says.
-/

namespace MouseHero

open FaultM YaClientManager

variable {F : Type} [CFloat F]

theorem World.HandsOver.wellTyped {world reached : World F}
    {connection : Connection} {request : YAEvent F}
    (hands : world.HandsOver connection request reached) :
    request.WellTyped := by
  obtain ⟨entry, contents, parsed, -, -, -, -, parsing, -, rfl, -⟩ := hands
  exact yaParseEvent_wellTyped parsing

/-- What a response to AUTHORIZE and the clients after it have to do with the
client that owns the connection. -/
structure BindsOwner (connection : Connection)
    (parameters : YAAuthorizeEventRequest) (owner : YaClient F)
    (before : World F) (response : YAAuthorizeEventResponse F)
    (after : World F) : Prop where
  owns :
    before.manager.deref connection.client = some owner ∧
      owner.bev = some connection.bev ∧ owner.state = .active
  distinct : (before.manager.clients.map YaClient.addr).Nodup
  decision :
    response.success = true ↔
      (parameters.type = CLIENT_IOS ∨ parameters.type = CLIENT_ANDROID) ∧
        1 ≤ parameters.version
  granted :
    response.success = true →
      response.uid = owner.uid ∧
        after.manager =
          before.manager.write connection.client fun entry =>
            { entry with
              protocolVersion := parameters.version
              bev := some connection.bev
              mouseFilter := entry.mouseFilter.map fun filter =>
                yaMouseFilterSetAlgorithmsEnabled filter true }
  refused :
    response.success = false →
      response.uid = 0 ∧ after.manager = before.manager

private theorem authorize_iff (parameters : YAAuthorizeEventRequest) :
    authorize parameters = true ↔
      (parameters.type = CLIENT_IOS ∨ parameters.type = CLIENT_ANDROID) ∧
        1 ≤ parameters.version := by
  simp only [authorize, Bool.and_eq_true, Bool.or_eq_true, decide_eq_true_eq]
  exact And.comm

section Served

variable {world : World F} {connection : Connection} {request : YAEvent F}
variable {parameters : YAAuthorizeEventRequest}

/-- The handler of AUTHORIZE on a connection that is served. -/
theorem handleAuthorize_binds (serves : world.Serves connection)
    (carried : request.param = some (.authorizeRequest parameters)) :
    ∃ owner response after,
      handleAuthorize (some connection.bev) request world =
          (.ok (some (assignResponse request
            (some (.authorizeResponse response)))), after) ∧
        BindsOwner connection parameters owner world response after := by
  obtain ⟨owner, contents, served⟩ := serves.client
  cases authorized : authorize parameters with
  | false =>
      refine ⟨owner, _, _, handleAuthorize_refused carried authorized, {
        owns := ⟨served.stored, served.bev, served.active⟩
        distinct := serves.once
        decision := ?_
        granted := fun success => ?_
        refused := fun _ => ⟨rfl, rfl⟩ }⟩
      · rw [← authorize_iff, authorized]
        rfl
      · cases success
  | true =>
      refine ⟨owner, _, _, handleAuthorize_granted carried authorized
        served.buffered served.found, {
          owns := ⟨served.stored, served.bev, served.active⟩
          distinct := serves.once
          decision := ?_
          granted := fun _ => ⟨rfl, ?_⟩
          refused := fun success => ?_ }⟩
      · rw [← authorize_iff, authorized]
        rfl
      · rw [served.addr]
        rfl
      · cases success

/-- The dispatcher does not look at the index of the request. -/
theorem processServerEvent_authorize
    (authorization : request.header.type = YAEventType.authorize.code) :
    processServerEvent (some connection.bev) request (some connection.client)
        world =
      handleAuthorize (some connection.bev) request
        (world.logged {
          bev := some connection.bev
          event := request
          client := some connection.client
          executed := true }) := by
  have known : YAEventType.ofCode? request.header.type = some .authorize := by
    rw [authorization]
    rfl
  have exempt : ¬ (request.header.direction = REQUEST ∧
      needCommandIndexCheck request.header.type) := by
    rw [authorization]
    exact fun checked => absurd checked.2 (by decide)
  exact processServerEvent_executed known (validateCommandIndex_exempt exempt)

end Served

/-- In a run of the server, AUTHORIZE on a live connection is decided by the
type and the version of the client alone, and binds the client that owns the
connection. -/
theorem ServerRun.bindsOwner {history : List SessionEvent}
    {world reached : World F} (run : ServerRun history world)
    {connection : Connection} (isLive : connection ∈ liveConnections history)
    {chunk : List UInt8} {request : YAEvent F}
    (hands :
      (world.arrive connection.bev chunk).HandsOver connection request reached)
    (authorization : request.header.type = YAEventType.authorize.code)
    {param : YAParam F} (carried : request.param = some param) :
    ∃ parameters owner response after,
      param = .authorizeRequest parameters ∧
        processServerEvent (some connection.bev) request
            (some connection.client) reached =
          (.ok (some (assignResponse request
            (some (.authorizeResponse response)))), after) ∧
        BindsOwner connection parameters owner reached response after := by
  have known : YAEventType.ofCode? request.header.type = some .authorize := by
    rw [authorization]
    rfl
  rcases hands.wellTyped.authorize known with absent | ⟨parameters, typed⟩
  · rw [carried] at absent
    cases absent
  · have arrives := world.keepsOwners_arrive connection.bev chunk
    have serves := hands.keepsOwners.serves
      ((run.ownership.keep arrives).serves isLive)
    have logs :
        reached.KeepsOwners (reached.logged {
          bev := some connection.bev
          event := request
          client := some connection.client
          executed := true }) :=
      ⟨rfl, fun _ => rfl, rfl⟩
    obtain ⟨owner, response, after, answers, binds⟩ :=
      handleAuthorize_binds (logs.serves serves) typed
    refine ⟨parameters, owner, response, after, ?_, ?_, ?_⟩
    · rw [carried] at typed
      exact Option.some.inj typed
    · rw [processServerEvent_authorize authorization, answers]
    · exact ⟨binds.owns, binds.distinct, binds.decision, binds.granted,
        binds.refused⟩

/-! ## A first authorization -/

/-- AUTHORIZE from a client of type 1 with the protocol version 2, under the
header of another client. -/
def authorizeRequest : YAEvent Rat where
  header := { type := 0xA, direction := REQUEST, index := 0, uid := 7 }
  param := some (.authorizeRequest { type := 1, version := 2 })
  paramLen := 8

def authorizeBytes : List UInt8 :=
  frameBytes (serializeEventHeader authorizeRequest.header)
    (mpackStartArray 2 ++ mpackWriteU32 1 ++ mpackWriteU32 2)

private theorem accepting_handsOver :
    ∃ reached,
      (World.accepting.arrive 16 authorizeBytes).HandsOver firstConnection
        authorizeRequest reached := by
  refine ⟨_, YaClient.first, { fd := 5, input := authorizeBytes, output := [] },
    { status := 0, buf := [], event := authorizeRequest }, rfl, rfl, rfl, ?_, ?_,
    ?_, rfl, rfl⟩
  · decide
  · rfl
  · decide

/-- The first client gets its own `uid` in the response. -/
theorem bindsOwner_first :
    ∃ reached response after,
      (World.accepting.arrive 16 authorizeBytes).HandsOver firstConnection
          authorizeRequest reached ∧
        response.uid = 1 ∧
        BindsOwner firstConnection { type := 1, version := 2 }
          { YaClient.first with refCount := 2 } reached response after := by
  obtain ⟨reached, hands⟩ := accepting_handsOver
  obtain ⟨parameters, owner, response, after, typed, -, binds⟩ :=
    accepting_serverRun.bindsOwner (List.mem_singleton_self _) hands rfl rfl
  cases typed
  have isOwner : owner = { YaClient.first with refCount := 2 } := by
    have stored := binds.owns.1
    rw [hands.clients] at stored
    exact (Option.some.inj stored).symm
  rw [isOwner] at binds
  have success := binds.decision.mpr ⟨Or.inl rfl, by decide⟩
  exact ⟨reached, response, after, hands, (binds.granted success).1, binds⟩

end MouseHero
