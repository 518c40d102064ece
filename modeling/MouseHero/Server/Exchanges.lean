import MouseHero.Event.Headers
import MouseHero.Library.Framing
import MouseHero.Server.Requests
import MouseHero.Server.Responses

/-!
# Requests and responses on a connection

What goes out on a connection, over whole runs of the server: the frames of the
responses to the requests of that connection, each once and in order, which a
reader can take apart wherever the stream has been cut.
-/

namespace MouseHero

open FaultM YaClientManager

variable {F : Type} [CFloat F]

/-! ## Exchanges -/

/-- A request, the response to it and the frame of that. -/
structure Exchange (F : Type) where
  request : YAEvent F
  response : YAEvent F
  frame : List UInt8

/-- The frame that `ya_serialize_event` returns. -/
def YAEvent.FrameIs (response : YAEvent F) (frame : List UInt8) : Prop :=
  ∃ length, yaSerializeEvent response = .ok { length, out := some frame }

/-- The read callback of the connection hands over the request, which is answered,
and the response can be written. -/
def World.Answers (world : World F) (connection : Connection) (exchange : Exchange F) :
    Prop :=
  ∃ reached processed,
    world.HandsOver connection exchange.request reached ∧
      processServerEvent (some connection.bev) exchange.request
          (some connection.client) reached =
        (.ok (some exchange.response), processed) ∧
      exchange.response.FrameIs exchange.frame

/-- The exchanges of one call of the read callback. -/
inductive World.Exchanges (world : World F) (connection : Connection) :
    List (Exchange F) → Prop where
  | answered {exchange : Exchange F} (answers : world.Answers connection exchange) :
      world.Exchanges connection [exchange]
  | silent (unanswered : ∀ exchange, ¬ world.Answers connection exchange) :
      world.Exchanges connection []

/-! ## Responses in the output buffer -/

/-- A frame that is returned comes with its length. -/
theorem YAEvent.FrameIs.serialized {response : YAEvent F} {frame : List UInt8}
    (isFrame : response.FrameIs frame) :
    yaSerializeEvent response = .ok { length := frame.length, out := some frame } := by
  obtain ⟨length, serialized⟩ := isFrame
  rw [serialized]
  rw [yaSerializeEvent] at serialized
  cases written : serializeBody response with
  | error reason =>
      rw [written] at serialized
      cases serialized
  | ok result =>
      rw [written] at serialized
      simp only [except_ok_bind] at serialized
      split at serialized
      · cases serialized
      split at serialized
      · cases serialized
      split at serialized
      · cases serialized
      · rename_i whole
        injection serialized with same
        injection same with isLength out
        injection out with bytes
        have bound :=
          (Int32.ofNat ((serializeEventHeader response.header).length +
            result.2.length + 4 + 4)).toInt_lt
        have short : (serializeEventHeader response.header).length +
            result.2.length + 4 + 4 < 2 ^ 31 := by omega
        rw [Int32.toInt_ofNat_of_lt short] at isLength
        rw [← bytes, length_frameBytes, ← isLength]

/-- Where the response has a frame, the frame is appended whole. -/
theorem respond_of_frame {response : YAEvent F} {frame : List UInt8}
    (isFrame : response.FrameIs frame) (bev : BevId) :
    respond bev (some response) =
      writeBev bev fun contents =>
        { contents with output := contents.output ++ frame } := by
  have serialized := isFrame.serialized
  obtain ⟨-, -, -, -, short⟩ := yaSerializeEvent_eq_ok serialized
  have whole : frame.take (sizeOfInt (frame.length : Int)) = frame := by
    rw [sizeOfInt_of_nonneg (by omega) (by omega), Int.toNat_natCast, List.take_length]
  simp only [respond, serialized, whole]

/-- Without a response, or a frame of it, everything stays as it is. -/
theorem respond_of_noFrame {response : Option (YAEvent F)}
    (noFrame : ∀ event frame, response = some event → ¬ event.FrameIs frame)
    (bev : BevId) (world : World F) : (respond bev response world).2 = world := by
  cases response with
  | none => rfl
  | some event =>
      cases serializing : yaSerializeEvent event with
      | error reason =>
          simp only [respond, serializing]
          rfl
      | ok serialized =>
          obtain ⟨length, out⟩ := serialized
          cases out with
          | none =>
              simp only [respond, serializing]
              rfl
          | some frame => exact absurd ⟨length, serializing⟩ (noFrame event frame rfl)

/-! ## The output buffers -/

/-- What waits in the output buffers. -/
def World.output (world : World F) (bev : BevId) : Option (List UInt8) :=
  (world.bevs bev).map Bufferevent.output

/-- Bytes are appended to the output buffer of one connection, and to no other. -/
def World.Appends (world : World F) (bev : BevId) (bytes : List UInt8)
    (after : World F) : Prop :=
  after.output =
    Function.update world.output bev ((world.output bev).map (· ++ bytes))

omit [CFloat F] in
theorem output_of_bevs {world after : World F} (same : after.bevs = world.bevs) :
    after.output = world.output := by
  funext bev
  rw [World.output, World.output, same]

omit [CFloat F] in
/-- The input of a bufferevent is not its output. -/
theorem output_setBev {world : World F} {bev : BevId} {contents changed : Bufferevent}
    (buffered : world.bevs bev = some contents)
    (same : changed.output = contents.output) :
    (world.setBev bev (some changed)).output = world.output := by
  funext other
  by_cases isBev : other = bev
  · rw [isBev, World.output, World.output, buffered]
    simp [World.setBev, same]
  · simp [World.output, World.setBev, isBev]

omit [CFloat F] in
theorem output_arrive (world : World F) (bev : BevId) (chunk : List UInt8) :
    (world.arrive bev chunk).output = world.output := by
  unfold World.arrive
  cases buffered : world.bevs bev with
  | none => rfl
  | some contents => exact output_setBev buffered rfl

omit [CFloat F] in
theorem World.HandsOver.output {world reached : World F} {connection : Connection}
    {request : YAEvent F} [CFloat F]
    (hands : world.HandsOver connection request reached) :
    reached.output = world.output := by
  obtain ⟨entry, contents, parsed, -, -, buffered, -, -, -, -, rfl⟩ := hands
  exact output_setBev buffered rfl

section Callback

variable {world after reached : World F} {connection : Connection}

omit [CFloat F] in
theorem World.Serves.bound (serves : world.Serves connection) :
    world.Bound (some connection.bev) := by
  intro address contents same stored
  obtain ⟨entry, found, served⟩ := serves.client
  cases same
  rw [served.buffered] at stored
  cases stored
  rw [served.found]
  rfl

/-- The dispatcher leaves the bufferevents of a connection that it serves alone. -/
theorem processServerEvent_bevs (event : YAEvent F) (serves : world.Serves connection) :
    (processServerEvent (some connection.bev) event (some connection.client)
      world).2.bevs = world.bevs := by
  cases known : YAEventType.ofCode? event.header.type with
  | none =>
      rw [processServerEvent_unknown known]
      rfl
  | some type =>
      obtain ⟨entry, contents, served⟩ := serves.client
      have stored : ∀ client, some connection.client = some client →
          (world.manager.deref client).isSome := by
        intro client same
        cases same
        rw [served.stored]
        rfl
      have careful := validateCommandIndex_careful event served.stored
      have outcomes :
          (Discarded world (some connection.client) event ∧
            validateCommandIndex (some connection.client) event world = (.ok false, world)) ∨
          (¬ Discarded world (some connection.client) event ∧
            ∃ manager,
              validateCommandIndex (some connection.client) event world =
                (.ok true, { world with manager })) :=
        validateCommandIndex_cases stored
      rcases outcomes with ⟨-, discards⟩ | ⟨-, manager, passes⟩
      · rw [processServerEvent_discarded known discards]
        rfl
      · rw [processServerEvent_executed known passes]
        have keeps : world.KeepsOwners { world with manager } := by
          have kept := careful.1
          rw [passes] at kept
          exact kept
        have bound : World.Bound ({ world with manager }.logged
            { bev := some connection.bev, event, client := some connection.client,
              executed := true }) (some connection.bev) :=
          (keeps.serves serves).bound
        exact (eventHandler_quiet_of_bound type event bound).bevs.symm

omit [CFloat F] in
theorem unrefClient_bevs (serves : world.Serves connection) :
    (unrefClient connection.client world).2.bevs = world.bevs := by
  obtain ⟨entry, contents, served⟩ := serves.client
  have connected : entry.state ≠ .disconnected := by
    rw [served.active]
    exact YaClientState.noConfusion
  rw [unrefClient_of_connected served.stored connected]

omit [CFloat F] in
/-- The client is released, unless the computation in front has stopped. -/
theorem releasing_bevs {first : ServerM F Unit} (serves : world.Serves connection)
    (same : (first world).2 = world) :
    ((first >>= fun _ => unrefClient connection.client) world).2.bevs = world.bevs := by
  have outcome : first world = ((first world).1, world) := Prod.ext rfl same
  cases result : (first world).1 with
  | error reason =>
      rw [result] at outcome
      rw [bind_of_fault outcome]
  | ok value =>
      rw [result] at outcome
      rw [bind_of_ok outcome]
      exact unrefClient_bevs serves

/-- The frame of an answer is appended on the connection of the request. -/
theorem connReadcb_appends {exchange : Exchange F} (serves : world.Serves connection)
    (answers : world.Answers connection exchange) :
    world.Appends connection.bev exchange.frame
      (connReadcb connection.bev (some connection.client) world).2 := by
  obtain ⟨reached, processed, hands, processes, isFrame⟩ := answers
  have servesReached := hands.keepsOwners.serves serves
  have keepsProcessed := (processServerEvent_careful exchange.request servesReached).1
  have sameBevs := processServerEvent_bevs exchange.request servesReached
  rw [processes] at keepsProcessed sameBevs
  have servesProcessed := keepsProcessed.serves servesReached
  obtain ⟨entry, contents, served⟩ := servesProcessed.client
  let written := processed.setBev connection.bev
    (some { contents with output := contents.output ++ exchange.frame })
  have writes : writeBev connection.bev (fun contents =>
        { contents with output := contents.output ++ exchange.frame }) processed =
      (.ok (), written) := by
    rw [writeBev, bind_of_ok (derefBev_of_some served.buffered)]
    rfl
  have keeps : processed.KeepsOwners written := by
    have careful : Careful (writeBev connection.bev fun contents =>
        { contents with output := contents.output ++ exchange.frame }) processed :=
      writeBev_careful (fun _ => rfl) served.buffered
    have kept := careful.1
    rw [writes] at kept
    exact kept
  have same : processed.output = world.output :=
    (output_of_bevs sameBevs).trans hands.output
  rw [connReadcb_of_handsOver hands, bind_of_ok processes, respond_of_frame isFrame,
    bind_of_ok writes]
  rw [World.Appends, output_of_bevs (unrefClient_bevs (keeps.serves servesProcessed)),
    ← same]
  funext other
  by_cases isBev : other = connection.bev
  · rw [isBev, Function.update_self, World.output, World.output, served.buffered]
    exact congrArg (Option.map Bufferevent.output) (if_pos rfl)
  · rw [Function.update_of_ne isBev]
    exact congrArg (Option.map Bufferevent.output) (if_neg isBev)

/-- A call without an answer appends nothing anywhere. -/
theorem connReadcb_output (serves : world.Serves connection)
    (unanswered : ∀ exchange, ¬ world.Answers connection exchange) :
    (connReadcb connection.bev (some connection.client) world).2.output =
      world.output := by
  obtain ⟨entry, contents, served⟩ := serves.client
  cases arrived : frameArrived contents.input with
  | false =>
      rw [connReadcb_early served.stored served.active served.buffered arrived]
  | true =>
      cases parsing :
          (yaParseEvent (evbufferDrain contents.input 8) YAEvent.zero
            (packageSize contents.input) :
            Except Fault (ParsedEvent F)) with
      | error reason =>
          rw [connReadcb_stops served.stored served.active served.buffered arrived
            parsing]
      | ok parsed =>
          by_cases refused : parsed.status < 0
          · rw [connReadcb_parses served.stored served.active served.buffered
              arrived parsing, if_pos refused]
            exact output_setBev served.buffered rfl
          · obtain ⟨reached, hands⟩ :
                ∃ reached, world.HandsOver connection parsed.event reached :=
              ⟨_, entry, contents, parsed, served.stored, served.active,
                served.buffered, arrived, parsing, refused, rfl, rfl⟩
            have servesReached := hands.keepsOwners.serves serves
            have keeps := (processServerEvent_careful parsed.event servesReached).1
            have sameBevs := processServerEvent_bevs parsed.event servesReached
            rw [connReadcb_of_handsOver hands, ← hands.output]
            cases processing : processServerEvent (some connection.bev) parsed.event
                (some connection.client) reached with
            | mk result processed =>
                rw [processing] at keeps sameBevs
                cases result with
                | error reason =>
                    rw [bind_of_fault processing]
                    exact output_of_bevs sameBevs
                | ok response =>
                    have noFrame : ∀ event frame, response = some event →
                        ¬ event.FrameIs frame := by
                      intro event frame isSome isFrame
                      rw [isSome] at processing
                      exact unanswered ⟨parsed.event, event, frame⟩
                        ⟨reached, processed, hands, processing, isFrame⟩
                    rw [bind_of_ok processing]
                    refine output_of_bevs (Eq.trans ?_ sameBevs)
                    exact releasing_bevs (keeps.serves servesReached)
                      (respond_of_noFrame noFrame connection.bev processed)

end Callback

/-! ## Frames in a stream -/

/-- The length of the frame in front, as `ya_get_package_size` announces it. -/
def announcedLength (stream : List UInt8) : Nat :=
  (packageSize stream).totalSize.toNat + 4

private theorem announcedLength_eq (stream : List UInt8) :
    announcedLength stream = (wordAt stream 0).toNat + 4 :=
  rfl

/-- The frames in front of a stream, and what is behind them. -/
def splitFrames (stream : List UInt8) : List (List UInt8) × List UInt8 :=
  Framing.split announcedLength stream

private theorem announcedLength_frame {header body : List UInt8}
    (short : (frameBytes header body).length < 2 ^ 31) (rest : List UInt8) :
    announcedLength (frameBytes header body ++ rest) = (frameBytes header body).length := by
  rw [length_frameBytes] at short ⊢
  rw [announcedLength, packageSize_frame]
  simp only [frameSize, UInt32.toNat_ofNat']
  omega

/-- A part of a frame announces more than there is. -/
theorem frame_measured {header body : List UInt8}
    (short : (frameBytes header body).length < 2 ^ 31) :
    Framing.Measured announcedLength (frameBytes header body) where
  nonempty := by
    apply List.ne_nil_of_length_pos
    rw [length_frameBytes]
    omega
  whole := announcedLength_frame short
  waits := by
    intro front behind isFrame remains
    by_cases word : 4 ≤ front.length
    · have announced := announcedLength_frame short []
      have positive := List.length_pos_iff.mpr remains
      rw [List.append_nil, isFrame, announcedLength_eq, wordAt_append word,
        List.length_append] at announced
      rw [announcedLength_eq]
      omega
    · rw [announcedLength_eq]
      omega

/-- What a reader of the stream gets from an exchange.  The header can be read only
if the identifiers of the request are the values of an `int32_t`. -/
structure Exchange.Sound (exchange : Exchange F) : Prop where
  header : exchange.response.header =
    { exchange.request.header with direction := RESPONSE }
  measured : Framing.Measured announcedLength exchange.frame
  readsBack :
    yaParseEventHeader (evbufferDrain exchange.frame 8)
        (packageSize exchange.frame).headerSize =
      .ok (some exchange.response.header) ↔
    exchange.request.header.IdsRepresentable

theorem World.Answers.sound {world : World F} {connection : Connection}
    {exchange : Exchange F} (answers : world.Answers connection exchange) :
    exchange.Sound := by
  obtain ⟨reached, processed, -, processes, isFrame⟩ := answers
  obtain ⟨type, param, known, -, isResponse⟩ := processServerEvent_answers processes
  obtain ⟨status, body, -, bytes, short⟩ := yaSerializeEvent_eq_ok isFrame.serialized
  have header : exchange.response.header =
      { exchange.request.header with direction := RESPONSE } := by
    rw [isResponse]
    rfl
  refine ⟨header, ?_, ?_⟩
  · rw [bytes] at short ⊢
    exact frame_measured short
  · have code := YAEventType.ofCode?_eq_some.mp known
    have bound := type.code_lt
    have range : exchange.response.header.InRange := by
      rw [header]
      rw [← code] at bound
      exact ⟨bound.trans (by decide), (by decide : RESPONSE.toNat < 256)⟩
    have size :
        (packageSize exchange.frame).headerSize.toNat =
          (serializeEventHeader exchange.response.header).length := by
      have sizes :=
        packageSize_frame (serializeEventHeader exchange.response.header) body []
      have small := length_serializeEventHeader_le exchange.response.header
      rw [List.append_nil, ← bytes] at sizes
      rw [sizes]
      simp only [frameSize, UInt32.toNat_ofNat']
      omega
    have behind :
        evbufferDrain exchange.frame 8 =
          serializeEventHeader exchange.response.header ++ body := by
      have drained :=
        evbufferDrain_frame (serializeEventHeader exchange.response.header) body []
      rw [bytes]
      simpa only [List.append_nil] using drained
    have encoding := serializeEventHeader_encoding exchange.response.header
    have sameIds : exchange.response.header.IdsRepresentable ↔
        exchange.request.header.IdsRepresentable := by
      rw [header]
      rfl
    rw [behind, ← sameIds]
    constructor
    · intro readsBack
      by_contra outside
      rw [yaParseEventHeader_outOfRange encoding range outside size] at readsBack
      cases readsBack
    · intro representable
      exact yaParseEventHeader_encoding encoding range representable size

/-! ## Runs -/

/-- The exchanges on the bufferevents since they were opened, and the bytes that
their sockets have taken. -/
structure Traffic (F : Type) where
  exchanged : BevId → List (Exchange F)
  delivered : BevId → List UInt8

namespace Traffic

variable {F : Type}

def silent : Traffic F where
  exchanged := fun _ => []
  delivered := fun _ => []

/-- A connection is opened on a bufferevent. -/
def opened (traffic : Traffic F) (bev : BevId) : Traffic F where
  exchanged := Function.update traffic.exchanged bev []
  delivered := Function.update traffic.delivered bev []

def exchange (traffic : Traffic F) (bev : BevId) (exchanges : List (Exchange F)) :
    Traffic F where
  exchanged := Function.update traffic.exchanged bev (traffic.exchanged bev ++ exchanges)
  delivered := traffic.delivered

def deliver (traffic : Traffic F) (taken : BevId → List UInt8) : Traffic F where
  exchanged := traffic.exchanged
  delivered := fun bev => traffic.delivered bev ++ taken bev

end Traffic

/-- What an event adds to the traffic.  The sockets take bytes off the front of the
output buffers when the server waits. -/
inductive Traffic.Follows (world after : World F) :
    SessionEvent → Traffic F → Traffic F → Prop where
  | accepted (connection : Connection) (traffic : Traffic F) :
      Follows world after (.accepted connection) traffic (traffic.opened connection.bev)
  | refused (traffic : Traffic F) : Follows world after .refused traffic traffic
  | received (connection : Connection) (chunk : List UInt8) (traffic : Traffic F)
      {exchanges : List (Exchange F)}
      (exchanged : (world.arrive connection.bev chunk).Exchanges connection exchanges) :
      Follows world after (.received connection chunk) traffic
        (traffic.exchange connection.bev exchanges)
  | ended (connection : Connection) (traffic : Traffic F) :
      Follows world after (.ended connection) traffic traffic
  | waited (traffic : Traffic F) (taken : BevId → List UInt8)
      (drained : ∀ bev, world.output bev = (after.output bev).map (taken bev ++ ·)) :
      Follows world after .waited traffic (traffic.deliver taken)

/-- The runs of the server, with the traffic. -/
inductive TrafficRun : List SessionEvent → World F → Traffic F → Prop where
  | start {world : World F} (started : ServerRun [] world) :
      TrafficRun [] world .silent
  | step {event : SessionEvent} {history : List SessionEvent} {world after : World F}
      {traffic later : Traffic F} (run : TrafficRun history world traffic)
      (occurs : event.Occurs (liveConnections history) world after)
      (follows : Traffic.Follows world after event traffic later) :
      TrafficRun (event :: history) after later

/-- What has been delivered on a connection and what waits for it are the frames of
its exchanges. -/
structure Traffic.AccountsFor (traffic : Traffic F) (world : World F)
    (connection : Connection) : Prop where
  stream : ∃ pending, world.output connection.bev = some pending ∧
    traffic.delivered connection.bev ++ pending =
      ((traffic.exchanged connection.bev).map Exchange.frame).flatten
  sound : ∀ exchange ∈ traffic.exchanged connection.bev, exchange.Sound

section Runs

variable {history : List SessionEvent} {world after : World F}
variable {traffic later : Traffic F} {connection : Connection}

theorem TrafficRun.serverRun (run : TrafficRun history world traffic) :
    ServerRun history world := by
  induction run with
  | start started => exact started
  | step run occurs follows inductionHypothesis =>
      exact .step _ inductionHypothesis occurs

omit [CFloat F] in
/-- On a connection that nothing has happened to, everything stays accounted for. -/
theorem Traffic.AccountsFor.same (accounts : traffic.AccountsFor world connection)
    (output : after.output connection.bev = world.output connection.bev)
    (exchanged : later.exchanged connection.bev = traffic.exchanged connection.bev)
    (delivered : later.delivered connection.bev = traffic.delivered connection.bev) :
    later.AccountsFor after connection := by
  constructor
  · rw [output, exchanged, delivered]
    exact accounts.stream
  · rw [exchanged]
    exact accounts.sound

omit [CFloat F] in
theorem Traffic.AccountsFor.deliver (accounts : traffic.AccountsFor world connection)
    {taken : BevId → List UInt8}
    (drained : ∀ bev, world.output bev = (after.output bev).map (taken bev ++ ·)) :
    (traffic.deliver taken).AccountsFor after connection := by
  refine ⟨?_, accounts.sound⟩
  obtain ⟨pending, waits, stream⟩ := accounts.stream
  rw [drained connection.bev] at waits
  obtain ⟨remaining, remains, rfl⟩ := Option.map_eq_some_iff.mp waits
  refine ⟨remaining, remains, ?_⟩
  rw [← List.append_assoc] at stream
  exact stream

omit [CFloat F] in
theorem Traffic.AccountsFor.exchange (accounts : traffic.AccountsFor world connection)
    {exchange : Exchange F} (sound : exchange.Sound)
    (appends : world.Appends connection.bev exchange.frame after) :
    (traffic.exchange connection.bev [exchange]).AccountsFor after connection := by
  have exchanged : (traffic.exchange connection.bev [exchange]).exchanged
      connection.bev = traffic.exchanged connection.bev ++ [exchange] :=
    Function.update_self ..
  constructor
  · obtain ⟨pending, waits, stream⟩ := accounts.stream
    refine ⟨pending ++ exchange.frame, ?_, ?_⟩
    · rw [appends, Function.update_self, waits]
      rfl
    · rw [exchanged, List.map_append, List.flatten_append, ← stream, List.append_assoc]
      simp [Traffic.exchange]
  · rw [exchanged]
    intro other member
    rcases List.mem_append.mp member with earlier | latest
    · exact accounts.sound other earlier
    · rw [List.mem_singleton.mp latest]
      exact sound

omit [CFloat F] in
/-- A bufferevent that has just been opened is not that of another connection. -/
theorem Ownership.opened_ne (ownership : Ownership (liveConnections history) world)
    (isLive : connection ∈ liveConnections history) {bev : BevId}
    (fresh : world.bevs bev = none) : connection.bev ≠ bev := by
  obtain ⟨entry, contents, owned⟩ := ownership.owned connection isLive
  intro same
  have buffered := owned.buffered
  rw [same, fresh] at buffered
  cases buffered

omit [CFloat F] in
/-- A connection is refused without a trace. -/
theorem acceptCb_refused {fd : Int} {bev : Option BevId} {resources : ClientResources F}
    (fresh : ∀ address, bev = some address → world.bevs address = none)
    (returned : acceptCb fd bev resources world = (.ok none, after)) : after = world := by
  cases bev with
  | none =>
      cases returned
      rfl
  | some bev =>
      rcases acceptCb_outcome fd resources (fresh bev rfl) with
        refuses | ⟨created, client, -, accepts⟩
      · rw [refuses] at returned
        cases returned
        rfl
      · rw [accepts] at returned
        cases returned

/-- A read callback changes what is accounted for on its own connection only. -/
theorem Traffic.AccountsFor.received {spoken : Connection} {chunk : List UInt8}
    {exchanges : List (Exchange F)}
    (ownership : Ownership (liveConnections history) world)
    (spokenLive : spoken ∈ liveConnections history)
    (isLive : connection ∈ liveConnections history)
    (accounts : traffic.AccountsFor world connection)
    (exchanged : (world.arrive spoken.bev chunk).Exchanges spoken exchanges) :
    (traffic.exchange spoken.bev exchanges).AccountsFor
      (connReadcb spoken.bev (some spoken.client) (world.arrive spoken.bev chunk)).2
      connection := by
  have arrives := world.keepsOwners_arrive spoken.bev chunk
  have serves := (ownership.keep arrives).serves spokenLive
  have quiet := output_arrive world spoken.bev chunk
  have arrived : traffic.AccountsFor (world.arrive spoken.bev chunk) connection :=
    accounts.same (congrFun quiet _) rfl rfl
  cases exchanged with
  | answered answers =>
      have appends := connReadcb_appends serves answers
      by_cases own : connection = spoken
      · rw [own] at arrived ⊢
        exact arrived.exchange answers.sound appends
      · have different : connection.bev ≠ spoken.bev := fun same =>
          own (List.inj_on_of_nodup_map ownership.bevs isLive spokenLive same)
        refine arrived.same ?_ (Function.update_of_ne different ..) rfl
        rw [appends, Function.update_of_ne different]
  | silent unanswered =>
      have unchanged := connReadcb_output serves unanswered
      refine arrived.same (congrFun unchanged _) ?_ rfl
      simp [Traffic.exchange]

theorem Traffic.AccountsFor.step {event : SessionEvent}
    (ownership : Ownership (liveConnections history) world)
    (accounts : ∀ connection ∈ liveConnections history,
      traffic.AccountsFor world connection)
    (occurs : event.Occurs (liveConnections history) world after)
    (follows : Traffic.Follows world after event traffic later) :
    ∀ connection ∈ liveConnections (event :: history),
      later.AccountsFor after connection := by
  intro connection isLive
  cases follows with
  | accepted opened =>
      obtain ⟨fd, resources, freshBev, -, -, returned⟩ := occurs
      rcases acceptCb_outcome fd resources freshBev with
        refuses | ⟨created, client, -, accepts⟩
      · rw [refuses] at returned
        cases returned
      · rw [accepts] at returned
        obtain ⟨-, rfl⟩ := Prod.mk.inj returned
        rcases List.mem_cons.mp isLive with rfl | earlier
        · refine ⟨⟨[], ?_, ?_⟩, ?_⟩
          · exact congrArg (Option.map Bufferevent.output) (if_pos rfl)
          · simp [Traffic.opened]
          · simp [Traffic.opened]
        · have different := ownership.opened_ne earlier freshBev
          refine (accounts connection earlier).same ?_
            (Function.update_of_ne different ..) (Function.update_of_ne different ..)
          exact congrArg (Option.map Bufferevent.output) (if_neg different)
  | refused =>
      obtain ⟨fd, bev, resources, fresh, returned⟩ := occurs
      rw [acceptCb_refused fresh returned]
      exact accounts connection isLive
  | received spoken chunk _ exchanged =>
      obtain ⟨spokenLive, rfl⟩ := occurs
      exact (accounts connection isLive).received ownership spokenLive isLive exchanged
  | ended closed =>
      obtain ⟨closedLive, events, ends, returned⟩ := occurs
      obtain ⟨remains, -, different⟩ := ownership.other_of_mem_erase closedLive isLive
      obtain ⟨entry, contents, owned⟩ := ownership.owned closed closedLive
      rw [connEventcbOn, if_pos ends, connEventcb_closes owned] at returned
      obtain ⟨-, rfl⟩ := Prod.mk.inj returned
      exact (accounts connection remains).same
        (congrArg (Option.map Bufferevent.output) (if_neg different)) rfl rfl
  | waited _ taken drained => exact (accounts connection isLive).deliver drained

theorem TrafficRun.accountsFor (run : TrafficRun history world traffic) :
    ∀ connection ∈ liveConnections history, traffic.AccountsFor world connection := by
  induction run with
  | start started =>
      intro connection isLive
      cases isLive
  | step run occurs follows inductionHypothesis =>
      exact Traffic.AccountsFor.step run.serverRun.ownership inductionHypothesis occurs
        follows

/-- In every run, what a connection has been sent are the frames of the responses to
its own requests, in order, none lost and none twice; a reader gets the first of them
whole, however much has been delivered.  Each header is that of the request, and can be
read if the identifiers are the values of an `int32_t`. -/
theorem TrafficRun.answers_in_order (run : TrafficRun history world traffic)
    (isLive : connection ∈ liveConnections history) :
    (∃ pending, world.output connection.bev = some pending ∧
      traffic.delivered connection.bev ++ pending =
        ((traffic.exchanged connection.bev).map Exchange.frame).flatten) ∧
    (∃ count rest,
      splitFrames (traffic.delivered connection.bev) =
          (((traffic.exchanged connection.bev).map Exchange.frame).take count, rest) ∧
        Framing.Begins
          (((traffic.exchanged connection.bev).map Exchange.frame).drop count) rest) ∧
    ∀ exchange ∈ traffic.exchanged connection.bev, exchange.Sound := by
  obtain ⟨⟨pending, waits, stream⟩, sound⟩ := run.accountsFor connection isLive
  have measured : ∀ frame ∈ (traffic.exchanged connection.bev).map Exchange.frame,
      Framing.Measured announcedLength frame := by
    intro frame member
    obtain ⟨exchange, isExchange, rfl⟩ := List.mem_map.mp member
    exact (sound exchange isExchange).measured
  obtain ⟨count, rest, isSplit, -, begins⟩ := Framing.split_of_front measured stream
  exact ⟨⟨pending, waits, stream⟩, ⟨count, rest, isSplit, begins⟩, sound⟩

end Runs

/-! ## Two heartbeats -/

section Taking

variable {world : World F} {bev : BevId} {contents : Bufferevent} {taken output : List UInt8}

omit [CFloat F] in
/-- A socket may take the front of its output buffer. -/
private theorem keepsOwners_take (buffered : world.bevs bev = some contents) :
    world.KeepsOwners (world.setBev bev (some { contents with output })) := by
  refine ⟨rfl, ?_, rfl⟩
  intro other
  by_cases isBev : other = bev
  · simp [isBev, World.setBev, buffered]
  · simp [isBev, World.setBev]

omit [CFloat F] in
private theorem output_take (buffered : world.bevs bev = some contents)
    (isOutput : contents.output = taken ++ output) (other : BevId) :
    world.output other =
      ((world.setBev bev (some { contents with output })).output other).map
        ((if other = bev then taken else []) ++ ·) := by
  by_cases isBev : other = bev
  · simp [isBev, World.output, World.setBev, buffered, isOutput]
  · cases buffer : world.bevs other <;>
      simp [isBev, World.output, World.setBev, buffer]

end Taking

/-- A heartbeat of the first client and the answer to it. -/
def heartbeatExchange (index : UInt32) : Exchange Rat :=
  let request := { heartbeatRequest with header := { heartbeatRequest.header with index } }
  { request
    response := assignResponse request none
    frame := [0, 0, 0, 9, 0, 0, 0, 5, 0x94, 1, 11, 2, index.toUInt8] }

/-- The frame of the request. -/
def heartbeatBytes (index : UInt8) : List UInt8 :=
  [0, 0, 0, 9, 0, 0, 0, 5, 0x94, 1, 11, 1, index]

/-- The server behind the first and behind the second heartbeat. -/
def World.heartbeats : Nat → World Rat
  | 0 => World.accepting
  | count + 1 =>
      (connReadcb 16 (some 8)
        ((World.heartbeats count).arrive 16 (heartbeatBytes (UInt8.ofNat (count + 1))))).2

private theorem heartbeats_answered :
    (World.accepting.arrive 16 (heartbeatBytes 1)).Answers firstConnection
        (heartbeatExchange 1) ∧
      ((World.heartbeats 1).arrive 16 (heartbeatBytes 2)).Answers firstConnection
        (heartbeatExchange 2) :=
  ⟨⟨_, _, ⟨_, _, _, rfl, rfl, rfl, rfl, rfl, by decide, rfl, rfl⟩, rfl, ⟨_, rfl⟩⟩,
    ⟨_, _, ⟨_, _, _, rfl, rfl, rfl, rfl, rfl, by decide, rfl, rfl⟩, rfl, ⟨_, rfl⟩⟩⟩

/-- The server once the socket has taken one answer and half of the other. -/
def World.taken : World Rat :=
  (World.heartbeats 2).setBev 16
    (some { fd := 5, input := [], output := (heartbeatExchange 2).frame.drop 6 })

def heartbeatTraffic : Traffic Rat :=
  (((Traffic.silent.opened 16).exchange 16 [heartbeatExchange 1]).exchange 16
    [heartbeatExchange 2]).deliver fun bev =>
      if bev = 16 then (heartbeatExchange 1).frame ++ (heartbeatExchange 2).frame.take 6
      else []

def heartbeatEvents : List SessionEvent :=
  [.waited, .received firstConnection (heartbeatBytes 2),
    .received firstConnection (heartbeatBytes 1), .accepted firstConnection]

private theorem heartbeats_trafficRun :
    TrafficRun heartbeatEvents World.taken heartbeatTraffic := by
  have accepts : SessionEvent.Occurs [] World.started World.accepting
      (.accepted firstConnection) := by
    refine ⟨5, { memory := some 8, mouseFilter := none, time := 0 }, rfl, ?_, ?_, rfl⟩
    · rw [World.started_clients]
      exact fun entry member => absurd member List.not_mem_nil
    · intro other contents stored
      cases stored
  have opened : TrafficRun [.accepted firstConnection] World.accepting
      (Traffic.silent.opened 16) :=
    .step (.start (.start rfl (fun _ => rfl) rfl)) accepts (.accepted ..)
  have first : TrafficRun
      [.received firstConnection (heartbeatBytes 1), .accepted firstConnection]
      (World.heartbeats 1)
      ((Traffic.silent.opened 16).exchange 16 [heartbeatExchange 1]) :=
    .step opened ⟨List.mem_singleton_self _, rfl⟩
      (.received _ _ _ (.answered heartbeats_answered.1))
  have second : TrafficRun
      [.received firstConnection (heartbeatBytes 2),
        .received firstConnection (heartbeatBytes 1), .accepted firstConnection]
      (World.heartbeats 2)
      (((Traffic.silent.opened 16).exchange 16 [heartbeatExchange 1]).exchange 16
        [heartbeatExchange 2]) :=
    .step first ⟨List.mem_singleton_self _, rfl⟩
      (.received _ _ _ (.answered heartbeats_answered.2))
  have buffered : (World.heartbeats 2).bevs 16 =
      some { fd := 5, input := [], output := (heartbeatExchange 1).frame ++
        (heartbeatExchange 2).frame } := rfl
  exact .step second (keepsOwners_take buffered) (.waited _ _ (output_take buffered rfl))

theorem answers_in_order_heartbeats :
    (∃ pending, World.taken.output 16 = some pending ∧
      heartbeatTraffic.delivered 16 ++ pending =
        ((heartbeatTraffic.exchanged 16).map Exchange.frame).flatten) ∧
    (∃ count rest,
      splitFrames (heartbeatTraffic.delivered 16) =
          (((heartbeatTraffic.exchanged 16).map Exchange.frame).take count, rest) ∧
        Framing.Begins
          (((heartbeatTraffic.exchanged 16).map Exchange.frame).drop count) rest) ∧
    ∀ exchange ∈ heartbeatTraffic.exchanged 16, exchange.Sound :=
  TrafficRun.answers_in_order heartbeats_trafficRun (List.mem_singleton_self firstConnection)

end MouseHero
