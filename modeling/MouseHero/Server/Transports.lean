import MouseHero.Server.Alike
import MouseHero.Server.Command
import MouseHero.Server.Exchanges

/-!
# Two transports

A client can send a frame on its connection or in a datagram.  Whatever it does
with each of its frames, they have the same effects and the same answers.
-/

namespace MouseHero

open FaultM YaClientManager

variable {F : Type} [CFloat F]

/-- How a frame comes to the server. -/
inductive Carrier where
  | connection
  | datagram
  deriving DecidableEq, Repr

/-- The callback that gets the frame. -/
def carry (connection : Connection) (frame : List UInt8) : Carrier → ServerM F Unit
  | .connection => do
      modifyState fun world => world.arrive connection.bev frame
      connReadcb connection.bev (some connection.client)
  | .datagram => udpReadcb frame

/-- A frame, and what the clock reads when it comes. -/
structure TimedFrame where
  frame : List UInt8
  clock : Timespec
  deriving DecidableEq, Repr

omit [CFloat F] in
/-- What the client has been sent between two worlds, on its connection and in
datagrams. -/
def World.answered (connection : Connection) (before after : World F) : List UInt8 :=
  ((after.output connection.bev).getD []).drop
      ((before.output connection.bev).getD []).length ++
    (after.sent.take (after.sent.length - before.sent.length)).flatten

/-- The answers to a sequence of frames, and the world behind it.  It ends at a
fault. -/
def carryAll (connection : Connection) :
    List (Carrier × TimedFrame) → World F → List (Except Fault (List UInt8)) × World F
  | [], world => ([], world)
  | (carrier, timed) :: later, world =>
      let before := { world with clock := timed.clock }
      match carry connection timed.frame carrier before with
      | (.error reason, after) => ([.error reason], after)
      | (.ok (), after) =>
          let (answers, last) := carryAll connection later after
          (.ok (before.answered connection after) :: answers, last)

/-- The frame is a request of the client with this `uid`, other than an authorization,
and the parser consumes it. -/
structure RequestOf (uid : UInt32) (frame : List UInt8) (event : YAEvent F) : Prop where
  short : frame.length ≤ 2048
  whole : UInt32.ofNat frame.length = (packageSize frame).totalSize + 4
  parsed : ∃ status, ¬ status < 0 ∧
    yaParseEvent (evbufferDrain frame 8) YAEvent.zero (packageSize frame) =
      .ok { status, buf := [], event }
  own : event.header.uid = uid
  other : event.header.type ≠ YAEventType.authorize.code

omit [CFloat F] in
/-- The client with this `uid` is the one of the connection, nothing of which waits to
be read. -/
structure World.Ready (world : World F) (connection : Connection) (uid : UInt32) :
    Prop where
  client : ∃ entry, world.manager.deref connection.client = some entry ∧
    entry.state = .active
  input : ∃ contents, world.bevs connection.bev = some contents ∧ contents.input = []
  found : (yaClientFindByUid world.manager uid).map YaClient.addr =
    some connection.client

section Steps

variable {world after first second : World F} {connection : Connection} {uid : UInt32}
variable {frame : List UInt8} {event : YAEvent F} {entry : YaClient F}
variable {contents : Bufferevent}

omit [CFloat F] in
/-- The owners of the table say whether a world is ready. -/
theorem World.Ready.of_owners (ready : world.Ready connection uid)
    (same : world.manager.view YaClient.owner = after.manager.view YaClient.owner)
    (input : ∃ contents, after.bevs connection.bev = some contents ∧
      contents.input = []) : after.Ready connection uid where
  client := by
    obtain ⟨entry, stored, active⟩ := ready.client
    have sameEntry := deref_of_view_eq same (fun _ => rfl) connection.client
    rw [stored] at sameEntry
    obtain ⟨other, isStored, owner⟩ := Option.map_eq_some_iff.mp sameEntry.symm
    exact ⟨other, isStored, (fields_of_owner_eq owner).2.2.1.trans active⟩
  input := input
  found := by
    have sameFound := findByUid_of_view_eq same (fun _ => rfl) (fun _ => rfl) uid
    have address (manager : YaClientManager F) :
        (yaClientFindByUid manager uid).map YaClient.addr =
          ((yaClientFindByUid manager uid).map YaClient.owner).map YaClient.addr := by
      rw [Option.map_map]
      rfl
    rw [address, ← sameFound, ← address]
    exact ready.found

omit [CFloat F] in
/-- The reference counts say nothing about owners. -/
theorem owner_of_uncounted {manager other : YaClientManager F}
    (same : manager.view YaClient.uncounted = other.view YaClient.uncounted) :
    manager.view YaClient.owner = other.view YaClient.owner := by
  have coarser (table : YaClientManager F) :
      table.view YaClient.owner = (table.view YaClient.uncounted).view YaClient.owner := by
    have sameBuckets :
        ChainedTable.update YaClient.owner table.buckets =
          ChainedTable.update YaClient.owner
            (ChainedTable.update YaClient.uncounted table.buckets) := by
      funext bucket
      simp only [ChainedTable.update, List.map_map]
      rfl
    rw [view, sameBuckets]
    rfl
  rw [coarser manager, same, ← coarser other]

/-- The dispatcher leaves the owners, the bufferevents and what has been sent alone. -/
theorem processServerEvent_leaves
    (isOther : event.header.type ≠ YAEventType.authorize.code) (bev : Option BevId)
    (stored : world.manager.deref connection.client = some entry) :
    let after := (processServerEvent bev event (some connection.client) world).2
    world.manager.view YaClient.owner = after.manager.view YaClient.owner ∧
      world.bevs = after.bevs ∧ world.sent = after.sent := by
  cases known : YAEventType.ofCode? event.header.type with
  | none =>
      rw [processServerEvent_unknown known]
      exact ⟨rfl, rfl, rfl⟩
  | some type =>
      have notAuthorize : type ≠ .authorize := by
        intro same
        rw [same] at known
        exact isOther (YAEventType.ofCode?_eq_some.mp known)
      have careful := validateCommandIndex_careful event stored
      have live : ∀ client, some connection.client = some client →
          (world.manager.deref client).isSome := by
        intro client same
        cases same
        rw [stored]
        rfl
      have outcomes :
          (Discarded world (some connection.client) event ∧
            validateCommandIndex (some connection.client) event world = (.ok false, world)) ∨
          (¬ Discarded world (some connection.client) event ∧
            ∃ manager,
              validateCommandIndex (some connection.client) event world =
                (.ok true, { world with manager })) :=
        validateCommandIndex_cases live
      rcases outcomes with ⟨-, discards⟩ | ⟨-, manager, passes⟩
      · rw [processServerEvent_discarded known discards]
        exact ⟨rfl, rfl, rfl⟩
      · rw [processServerEvent_executed known passes]
        have checked := careful.1.clients
        rw [passes] at checked
        have framed := (eventHandler_framed notAuthorize bev
          (fun _ _ _ _ _ => rfl) :
            Framed YaClient.owner (eventHandler type bev event)
              (World.logged { world with manager }
                { bev, event, client := some connection.client, executed := true })).1
        exact ⟨checked.trans framed.clients, framed.bevs, framed.sent⟩

end Steps

/-! ## What is sent -/

/-- The bytes of a response. -/
def wireAnswer (response : Option (YAEvent F)) : List (List UInt8) :=
  match response with
  | none => []
  | some response =>
      match yaSerializeEvent response with
      | .error _ => []
      | .ok serialized =>
          (serialized.out.map (List.take (sizeOfInt serialized.length))).toList

/-- Whether a response can be serialized. -/
def sendOutcome (response : Option (YAEvent F)) : Except Fault Unit :=
  match response with
  | none => .ok ()
  | some response => (yaSerializeEvent response).map fun _ => ()

section Sending

variable {world : World F} {bev : BevId} {contents : Bufferevent}

omit [CFloat F] in
theorem setBev_self (buffered : world.bevs bev = some contents) :
    world.setBev bev (some contents) = world := by
  have same : (fun other => if other = bev then some contents else world.bevs other) =
      world.bevs := by
    funext other
    split
    · rename_i isBev
      rw [isBev, buffered]
    · rfl
  rw [World.setBev, same]

theorem respond_eq (response : Option (YAEvent F))
    (buffered : world.bevs bev = some contents) :
    respond bev response world =
      (sendOutcome response,
        world.setBev bev (some { contents with
          output := contents.output ++ (wireAnswer response).flatten })) := by
  have nothing : world.setBev bev
      (some { contents with output := contents.output ++ [] }) = world := by
    rw [List.append_nil]
    exact setBev_self buffered
  cases response with
  | none => exact Prod.ext rfl nothing.symm
  | some response =>
      cases serializing : yaSerializeEvent response with
      | error reason =>
          simp only [respond, sendOutcome, wireAnswer, serializing, List.flatten_nil, nothing]
          rfl
      | ok serialized =>
          cases out : serialized.out with
          | none =>
              simp only [respond, sendOutcome, wireAnswer, serializing, out, Option.map_none,
                Option.toList_none, List.flatten_nil, nothing]
              rfl
          | some rsp =>
              simp only [respond, sendOutcome, wireAnswer, serializing, out, Option.map_some,
                Option.toList_some, List.flatten_singleton]
              rw [writeBev, bind_of_ok (derefBev_of_some buffered)]
              rfl

private theorem sendResponse_eq (response : Option (YAEvent F)) (world : World F) :
    sendResponse response world =
      (sendOutcome response, { world with sent := wireAnswer response ++ world.sent }) := by
  cases response with
  | none => rfl
  | some response =>
      cases serializing : yaSerializeEvent response with
      | error reason =>
          simp only [sendResponse, sendOutcome, wireAnswer, serializing]
          rfl
      | ok serialized =>
          cases out : serialized.out with
          | none =>
              simp only [sendResponse, sendOutcome, wireAnswer, serializing, out]
              rfl
          | some rsp =>
              simp only [sendResponse, sendOutcome, wireAnswer, serializing, out]
              rfl

end Sending

/-! ## One frame -/

/-- A carrier does what the dispatcher does without a connection, and sends the
response. -/
structure CarriesAs (world : World F) (connection : Connection) (uid : UInt32)
    (processed : Except Fault (Option (YAEvent F)) × World F)
    (carried : Except Fault Unit × World F) : Prop where
  outcome : carried.1 = processed.1 >>= sendOutcome
  alike : carried.2.Alike processed.2
  ready : carried.1 = .ok () → carried.2.Ready connection uid
  answer : ∀ response, processed.1 = .ok response → carried.1 = .ok () →
    world.answered connection carried.2 = (wireAnswer response).flatten

section Frames

variable {world first second : World F} {connection : Connection} {uid : UInt32}
variable {frame : List UInt8} {event : YAEvent F}

theorem frameArrived_of_whole
    (whole : UInt32.ofNat frame.length = (packageSize frame).totalSize + 4) :
    frameArrived frame = true := by
  rw [frameArrived, whole]
  simp

private theorem udpReadcb_of_request (request : RequestOf uid frame event)
    (ready : world.Ready connection uid) :
    udpReadcb frame world =
      (do
        let response ← processServerEvent none event (some connection.client)
        sendResponse response) world := by
  obtain ⟨status, accepted, parsed⟩ := request.parsed
  have received : udpReceive frame = .ok (some event) := by
    have word := four_le_of_frameArrived (frameArrived_of_whole request.whole)
    rw [udpReceive, List.take_of_length_le request.short]
    simp only [yaGetPackageSize_of_word word, request.whole, ne_eq, not_true_eq_false,
      if_false, parsed, if_neg accepted]
  have isClient : requestClient world event = some connection.client := by
    rw [requestClient, request.own, ready.found]
  rw [udpReadcb, received]
  simp only
  rw [serveDatagram, bind_of_ok (getState_apply world), isClient]

theorem carry_datagram (request : RequestOf uid frame event)
    (ready : world.Ready connection uid) :
    CarriesAs world connection uid
      (processServerEvent none event (some connection.client) world)
      (carry connection frame .datagram world) := by
  obtain ⟨entry, stored, -⟩ := ready.client
  obtain ⟨owners, sameBevs, sameSent⟩ :=
    processServerEvent_leaves request.other none stored
  rw [carry, udpReadcb_of_request request ready]
  cases processes : processServerEvent none event (some connection.client) world with
  | mk result middle =>
      rw [processes] at owners sameBevs sameSent
      cases result with
      | error reason =>
          rw [bind_of_fault processes]
          exact {
            outcome := rfl
            alike := ⟨rfl, rfl, rfl, rfl, rfl, rfl, rfl, rfl, rfl⟩
            ready := nofun
            answer := nofun }
      | ok response =>
          rw [bind_of_ok processes, sendResponse_eq]
          refine {
            outcome := rfl
            alike := (middle.alike_sent _).symm
            ready := fun _ => ready.of_owners owners (sameBevs ▸ ready.input)
            answer := ?_ }
          intro answered same _
          cases same
          have sameOutput : middle.output connection.bev = world.output connection.bev :=
            congrFun (output_of_bevs sameBevs.symm) _
          have sent : ({ middle with sent := wireAnswer response ++ middle.sent } :
              World F).output connection.bev = world.output connection.bev := sameOutput
          rw [World.answered, sent, List.drop_length, ← sameSent, List.length_append,
            Nat.add_sub_cancel, List.take_left]
          rfl

/-- On its connection the request is handed over in a world that is alike. -/
theorem handsOver_of_request (request : RequestOf uid frame event)
    (ready : world.Ready connection uid) :
    ∃ contents reached, world.bevs connection.bev = some contents ∧
      (world.arrive connection.bev frame).HandsOver connection event reached ∧
      reached.Alike world ∧ reached.bevs connection.bev =
        some { contents with input := [] } ∧
      reached.sent = world.sent := by
  obtain ⟨entry, stored, active⟩ := ready.client
  obtain ⟨contents, buffered, isEmpty⟩ := ready.input
  obtain ⟨status, accepted, parsed⟩ := request.parsed
  have arrived : world.arrive connection.bev frame =
      world.setBev connection.bev (some { contents with input := frame }) := by
    rw [World.arrive, buffered]
    simp only [isEmpty, List.nil_append]
  have bufferedFrame : (world.arrive connection.bev frame).bevs connection.bev =
      some { contents with input := frame } := by
    rw [arrived]
    exact if_pos rfl
  have storedFrame : (world.arrive connection.bev frame).manager.deref connection.client =
      some entry := by
    rw [World.arrive_manager]
    exact stored
  refine ⟨contents, _, buffered,
    ⟨entry, _, _, storedFrame, active, bufferedFrame, frameArrived_of_whole request.whole,
      parsed, accepted, rfl, rfl⟩, ?_, if_pos rfl, ?_⟩
  · rw [arrived]
    exact ⟨yaClientRef_view (fun _ _ => rfl) _ _, rfl, rfl, rfl, rfl, rfl, rfl, rfl, rfl⟩
  · rw [arrived]
    rfl

private theorem carry_connection (request : RequestOf uid frame event)
    (ready : world.Ready connection uid) :
    CarriesAs world connection uid
      (processServerEvent none event (some connection.client) world)
      (carry connection frame .connection world) := by
  obtain ⟨contents, reached, buffered, hands, alike, taken, sameSent⟩ :=
    handsOver_of_request request ready
  have readyReached : reached.Ready connection uid :=
    ready.of_owners (owner_of_uncounted alike.clients.symm) ⟨_, taken, rfl⟩
  obtain ⟨entry, stored, -⟩ := readyReached.client
  obtain ⟨owners, sameBevs, sentMiddle⟩ :=
    processServerEvent_leaves request.other (some connection.bev) stored
  have agrees := processServerEvent_sameAnswers request.other (some connection.bev) none
    connection.client reached world alike
  rw [carry, bind_of_ok (modifyState_apply _ _), connReadcb_of_handsOver hands]
  obtain ⟨sameOutcome, alikeMiddle⟩ := agrees
  cases processes :
      processServerEvent (some connection.bev) event (some connection.client) reached with
  | mk result middle =>
      rw [processes] at owners sameBevs sentMiddle sameOutcome alikeMiddle
      cases result with
      | error reason =>
          rw [bind_of_fault processes]
          exact {
            outcome := by rw [← sameOutcome]; rfl
            alike := alikeMiddle
            ready := nofun
            answer := fun _ _ absurdly => nomatch absurdly }
      | ok response =>
          have bufferedMiddle : middle.bevs connection.bev =
              some { contents with input := [] } := sameBevs ▸ taken
          have sends := respond_eq response bufferedMiddle
          rw [bind_of_ok processes]
          let sent := middle.setBev connection.bev (some { contents with
            input := []
            output := contents.output ++ (wireAnswer response).flatten })
          have bufferedSent : sent.bevs connection.bev = some { contents with
              input := []
              output := contents.output ++ (wireAnswer response).flatten } := if_pos rfl
          have readySent : sent.Ready connection uid :=
            readyReached.of_owners owners ⟨_, bufferedSent, rfl⟩
          have alikeSent : sent.Alike
              (processServerEvent none event (some connection.client) world).2 :=
            (middle.alike_setBev _ _).symm.trans alikeMiddle
          cases sending : sendOutcome response with
          | error reason =>
              rw [sending] at sends
              rw [bind_of_fault sends]
              exact {
                outcome := by rw [← sameOutcome, except_ok_bind, sending]
                alike := alikeSent
                ready := nofun
                answer := fun _ _ absurdly => nomatch absurdly }
          | ok done =>
              rw [sending] at sends
              obtain ⟨entry, stored, active⟩ := readySent.client
              have connected : entry.state ≠ .disconnected := by
                rw [active]
                exact YaClientState.noConfusion
              have released : (yaClientUnref sent.manager entry).1.view YaClient.uncounted =
                  sent.manager.view YaClient.uncounted :=
                yaClientUnref_view (fun _ _ => rfl) sent.manager connected
              rw [bind_of_ok sends, unrefClient_of_connected stored connected]
              refine {
                outcome := by rw [← sameOutcome, except_ok_bind, sending]
                alike := (World.alike_of_manager released.symm).symm.trans alikeSent
                ready := fun _ => readySent.of_owners (owner_of_uncounted released.symm)
                  readySent.input
                answer := ?_ }
              intro answered same _
              rw [← sameOutcome] at same
              cases same
              have output : ({ sent with manager := (yaClientUnref sent.manager entry).1 } :
                  World F).output connection.bev =
                  some (contents.output ++ (wireAnswer response).flatten) :=
                congrArg (Option.map Bufferevent.output) bufferedSent
              have before : world.output connection.bev = some contents.output :=
                congrArg (Option.map Bufferevent.output) buffered
              have nothingSent : middle.sent.length - world.sent.length = 0 := by
                rw [← sentMiddle, sameSent, Nat.sub_self]
              rw [World.answered, output, before]
              show (contents.output ++ (wireAnswer response).flatten).drop
                  contents.output.length ++
                (middle.sent.take (middle.sent.length - world.sent.length)).flatten = _
              rw [nothingSent, List.drop_left, List.take_zero, List.flatten_nil,
                List.append_nil]

private theorem carry_carriesAs (request : RequestOf uid frame event)
    (ready : world.Ready connection uid) (carrier : Carrier) :
    CarriesAs world connection uid
      (processServerEvent none event (some connection.client) world)
      (carry connection frame carrier world) := by
  cases carrier with
  | connection => exact carry_connection request ready
  | datagram => exact carry_datagram request ready

end Frames

/-! ## Any sequence of frames -/

section Sequences

variable {world first second : World F} {connection : Connection} {uid : UInt32}
variable {frame : List UInt8} {event : YAEvent F}

/-- Two carriers from worlds that are alike. -/
theorem carry_alike (request : RequestOf uid frame event) (alike : first.Alike second)
    (ready : first.Ready connection uid) (otherReady : second.Ready connection uid)
    (carrier other : Carrier) :
    let carried := carry connection frame carrier first
    let otherCarried := carry connection frame other second
    carried.1 = otherCarried.1 ∧ carried.2.Alike otherCarried.2 ∧
      (carried.1 = .ok () →
        carried.2.Ready connection uid ∧ otherCarried.2.Ready connection uid ∧
          first.answered connection carried.2 =
            second.answered connection otherCarried.2) := by
  have carries := carry_carriesAs request ready carrier
  have otherCarries := carry_carriesAs request otherReady other
  have agrees := processServerEvent_sameAnswers request.other none none connection.client
    first second alike
  have sameOutcome := carries.outcome.trans
    ((congrArg (· >>= sendOutcome) agrees.outcome).trans otherCarries.outcome.symm)
  refine ⟨sameOutcome, (carries.alike.trans agrees.reached).trans otherCarries.alike.symm, ?_⟩
  intro returned
  have otherReturned := sameOutcome.symm.trans returned
  refine ⟨carries.ready returned, otherCarries.ready otherReturned, ?_⟩
  cases processes :
      (processServerEvent none event (some connection.client) first).1 with
  | error reason =>
      have stopped := carries.outcome
      rw [processes, returned] at stopped
      cases stopped
  | ok response =>
      rw [carries.answer response processes returned,
        otherCarries.answer response (agrees.outcome.symm.trans processes) otherReturned]

private theorem carryAll_alike {frames : List TimedFrame}
    (requests : ∀ timed ∈ frames, ∃ event : YAEvent F, RequestOf uid timed.frame event)
    {carriers others : List Carrier} (long : carriers.length = frames.length)
    (otherLong : others.length = frames.length) (alike : first.Alike second)
    (ready : first.Ready connection uid) (otherReady : second.Ready connection uid) :
    (carryAll connection (carriers.zip frames) first).1 =
        (carryAll connection (others.zip frames) second).1 ∧
      (carryAll connection (carriers.zip frames) first).2.Alike
        (carryAll connection (others.zip frames) second).2 := by
  induction frames generalizing carriers others first second with
  | nil =>
      rw [List.zip_nil_right, List.zip_nil_right]
      exact ⟨rfl, alike⟩
  | cons timed frames inductionHypothesis =>
      obtain ⟨⟨event, request⟩, laterRequests⟩ := List.forall_mem_cons.mp requests
      obtain ⟨carrier, carriers, rfl⟩ := List.exists_cons_of_length_eq_add_one long
      obtain ⟨other, others, rfl⟩ := List.exists_cons_of_length_eq_add_one otherLong
      have alikeBefore : World.Alike { first with clock := timed.clock }
          { second with clock := timed.clock } := { alike with clock := rfl }
      have readyBefore : World.Ready { first with clock := timed.clock } connection uid :=
        ready.of_owners rfl ready.input
      have otherBefore : World.Ready { second with clock := timed.clock } connection uid :=
        otherReady.of_owners rfl otherReady.input
      obtain ⟨sameOutcome, alikeAfter, goesOn⟩ :=
        carry_alike request alikeBefore readyBefore otherBefore carrier other
      rw [List.zip_cons_cons, List.zip_cons_cons, carryAll, carryAll]
      cases carried : carry connection timed.frame carrier
          { first with clock := timed.clock } with
      | mk outcome after =>
          cases otherCarried : carry connection timed.frame other
              { second with clock := timed.clock } with
          | mk otherOutcome otherAfter =>
              rw [carried, otherCarried] at sameOutcome alikeAfter goesOn
              cases sameOutcome
              cases outcome with
              | error reason => exact ⟨rfl, alikeAfter⟩
              | ok done =>
                  obtain ⟨readyAfter, otherReadyAfter, sameAnswer⟩ := goesOn rfl
                  obtain ⟨sameAnswers, alikeLast⟩ :=
                    inductionHypothesis laterRequests (Nat.succ.inj long)
                      (Nat.succ.inj otherLong) alikeAfter readyAfter otherReadyAfter
                  refine ⟨?_, alikeLast⟩
                  simp only [sameAnswer, sameAnswers]

/-- Whatever way each of its frames takes, a connected client gets the same answers, and
everything but the channels ends up the same. -/
theorem ServerRun.carriers_interchangeable {history : List SessionEvent}
    (run : ServerRun history world) (isLive : connection ∈ liveConnections history)
    (allRead : ∃ contents, world.bevs connection.bev = some contents ∧ contents.input = [])
    (found : (yaClientFindByUid world.manager uid).map YaClient.addr =
      some connection.client)
    {frames : List TimedFrame}
    (requests : ∀ timed ∈ frames, ∃ event : YAEvent F, RequestOf uid timed.frame event)
    {carriers others : List Carrier} (long : carriers.length = frames.length)
    (otherLong : others.length = frames.length) :
    (carryAll connection (carriers.zip frames) world).1 =
        (carryAll connection (others.zip frames) world).1 ∧
      (carryAll connection (carriers.zip frames) world).2.Alike
        (carryAll connection (others.zip frames) world).2 := by
  obtain ⟨entry, contents, owned⟩ := run.ownership.owned connection isLive
  have ready : world.Ready connection uid :=
    { client := ⟨entry, owned.stored, owned.active⟩, input := allRead, found }
  exact carryAll_alike requests long otherLong
    (World.alike_of_manager rfl) ready ready

end Sequences

/-! ## Two heartbeats -/

def twoHeartbeats : List TimedFrame :=
  [{ frame := heartbeatFrame.bytes, clock := { sec := 0, nsec := 0 } },
    { frame := heartbeatFrame.bytes, clock := { sec := 1, nsec := 0 } }]

private theorem heartbeat_requestOf : RequestOf 1 heartbeatFrame.bytes heartbeatRequest where
  short := by decide
  whole := rfl
  parsed := ⟨0, by decide, rfl⟩
  own := rfl
  other := by decide

theorem carriers_interchangeable_heartbeats :
    (carryAll firstConnection ([.connection, .datagram].zip twoHeartbeats)
        World.accepting).1 =
      (carryAll firstConnection ([.datagram, .connection].zip twoHeartbeats)
        World.accepting).1 ∧
    (carryAll firstConnection ([.connection, .datagram].zip twoHeartbeats)
        World.accepting).2.Alike
      (carryAll firstConnection ([.datagram, .connection].zip twoHeartbeats)
        World.accepting).2 := by
  have accepts : SessionEvent.Occurs [] World.started World.accepting
      (.accepted firstConnection) := by
    refine ⟨5, { memory := some 8, mouseFilter := none, time := 0 }, rfl, ?_, ?_, rfl⟩
    · rw [World.started_clients]
      exact fun entry member => absurd member List.not_mem_nil
    · intro other contents stored
      cases stored
  have run : ServerRun [.accepted firstConnection] World.accepting :=
    .step _ (.start rfl (fun _ => rfl) rfl) accepts
  have requests : ∀ timed ∈ twoHeartbeats,
      ∃ event : YAEvent Rat, RequestOf 1 timed.frame event := by
    intro timed member
    simp only [twoHeartbeats, List.mem_cons, List.not_mem_nil, or_false] at member
    rcases member with rfl | rfl <;> exact ⟨_, heartbeat_requestOf⟩
  exact run.carriers_interchangeable (List.mem_singleton_self _) ⟨_, rfl, rfl⟩ rfl requests
    rfl rfl

end MouseHero
