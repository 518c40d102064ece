import MouseHero.Server.Datagram
import MouseHero.Server.Reads
import MouseHero.Server.Responses

/-!
# Callbacks that do not return

On a stream of frames `conn_readcb` stops in two ways.  It reads the sizes of a
buffer that is too short for them, or the response to the frame in front cannot
be serialised.
-/

namespace MouseHero

open FaultM

variable {F : Type} [CFloat F]

/-! ## Responses that cannot be serialised -/

/-- The response to the event, if it is handled, cannot be serialised: it is
that to a CONTROL request, or the text that is copied is too long. -/
def Unanswerable (world : World F) (event : YAEvent F) : Prop :=
  match YAEventType.ofCode? event.header.type with
  | some .control => True
  | some .textGet =>
      ∃ text devices,
        copySelection world.devices = (.ok (some text), devices) ∧
          2 ^ 31 ≤ event.header.frameLength (textLength (cString text))
  | _ => False

/-- Whatever the response is, its serializer returns. -/
def Serializes (response : Option (YAEvent F)) : Prop :=
  ∀ event, response = some event →
    ∃ serialized, yaSerializeEvent event = .ok serialized

theorem serializes_none : Serializes (none : Option (YAEvent F)) :=
  fun _ => nofun

theorem serializes_of_ok {event : YAEvent F} {serialized : SerializedEvent}
    (returned : yaSerializeEvent event = .ok serialized) : Serializes (some event) := by
  intro other same
  cases same
  exact ⟨serialized, returned⟩

theorem not_serializes {event : YAEvent F} {reason : Fault}
    (stopped : yaSerializeEvent event = .error reason) :
    ¬ Serializes (some event) := by
  intro serializes
  obtain ⟨serialized, returned⟩ := serializes event rfl
  rw [stopped] at returned
  cases returned

/-- From 2^31 bytes on the length of a frame is not an `int`. -/
theorem yaSerializeEvent_long {event : YAEvent F} {body : List UInt8}
    (written : serializeBody event = .ok (0, body))
    (long :
      2 ^ 31 ≤ (frameBytes (serializeEventHeader event.header) body).length) :
    ∃ reason, yaSerializeEvent event = .error reason := by
  rw [length_frameBytes] at long
  have wrapped :
      (Int32.ofNat ((serializeEventHeader event.header).length + body.length +
        4 + 4)).toInt <
        ((serializeEventHeader event.header).length + body.length + 4 + 4 : Nat) := by
    have range := Int32.toInt_lt (Int32.ofNat
      ((serializeEventHeader event.header).length + body.length + 4 + 4))
    omega
  rw [yaSerializeEvent, written]
  simp only [except_ok_bind]
  rw [if_neg (by decide)]
  split
  · exact ⟨_, rfl⟩
  · rw [if_pos (by push_cast at wrapped ⊢; omega)]
    exact ⟨_, rfl⟩

/-- A response whose body is written can be serialised if and only if its frame
has an `int` length. -/
theorem serializes_assignResponse {event : YAEvent F}
    {param : Option (YAParam F)} {body : List UInt8}
    (written : serializeBody (assignResponse event param) = .ok (0, body)) :
    Serializes (some (assignResponse event param)) ↔
      event.header.frameLength body.length < 2 ^ 31 := by
  have length :
      (frameBytes (serializeEventHeader (assignResponse event param).header)
        body).length = event.header.frameLength body.length := by
    rw [length_frameBytes, YAEventHeader.frameLength, Nat.add_comm 8,
      Nat.add_right_comm]
    rfl
  constructor
  · intro serializes
    by_contra long
    obtain ⟨reason, stopped⟩ := yaSerializeEvent_long written (by omega)
    exact not_serializes stopped serializes
  · intro short
    exact serializes_of_ok (yaSerializeEvent_of_body written (by omega))

/-! ## Frames -/

namespace SentFrame

variable (frame : SentFrame F)

theorem written {serialize : SerializerFn F}
    (selected :
      getSerializer frame.event.header.type frame.event.header.direction =
        some serialize) :
    ∃ body, serialize frame.event.param = .ok (0, body) ∧
      frame.event.received.param ≠ none := by
  obtain ⟨status, body, written, bytes, short⟩ :=
    yaSerializeEvent_eq_ok frame.serialized
  rw [bytes, length_frameBytes] at short
  rw [serializeBody, selected] at written
  obtain ⟨rfl, -, received, carried, -⟩ :=
    getSerializer_readBack selected frame.event.param status body written (by omega)
  refine ⟨body, written, ?_⟩
  simp only [YAEvent.received, selected, carried]
  exact Option.some_ne_none _

/-- A frame of a type that has a serializer carries parameters. -/
theorem received_ne_none {type : YAEventType}
    (known : YAEventType.ofCode? frame.event.header.type = some type)
    (serializes : (getSerializer type.code frame.event.header.direction :
      Option (SerializerFn F)).isSome) :
    frame.event.received.param ≠ none := by
  rw [← YAEventType.ofCode?_eq_some.mp known] at serializes
  obtain ⟨serialize, selected⟩ := Option.isSome_iff_exists.mp serializes
  obtain ⟨-, -, carries⟩ := frame.written selected
  exact carries

/-- The authorization that a frame carries is refused. -/
theorem received_unauthorized {request : YAAuthorizeEventRequest}
    (carried : frame.event.received.param = some (.authorizeRequest request)) :
    authorize request = false := by
  cases selected :
      (getSerializer frame.event.header.type frame.event.header.direction :
        Option (SerializerFn F)) with
  | none =>
      simp only [YAEvent.received, selected] at carried
      cases carried
  | some serialize =>
      obtain ⟨body, written, -⟩ := frame.written selected
      simp only [YAEvent.received, selected] at carried
      obtain ⟨param, isParam, same⟩ := Option.map_eq_some_iff.mp carried
      rw [isParam] at written
      cases param with
      | authorizeRequest sent =>
          -- No serializer takes a request to authorize.
          unfold getSerializer at selected
          split at selected <;> cases selected <;> cases written
      | authorizeResponse response =>
          cases same
          rfl
      | _ => cases same

/-- No handler follows a null pointer of a frame. -/
theorem received_harmless : ¬ frame.event.received.FollowsNull := by
  intro follows
  unfold YAEvent.FollowsNull at follows
  split at follows
  · rename_i known
    exact frame.received_ne_none known rfl follows
  · rename_i known
    exact frame.received_ne_none known rfl follows
  · obtain ⟨request, carried, authorized⟩ := follows
    rw [frame.received_unauthorized carried] at authorized
    cases authorized
  · exact follows

end SentFrame

/-! ## What the handler of a frame returns -/

section Handling

variable {world after : World F} {event : YAEvent F} {type : YAEventType}
variable {bev : Option BevId} {param : Option (YAParam F)}

omit [CFloat F] in
theorem not_unanswerable
    (known : YAEventType.ofCode? event.header.type = some type)
    (notControl : type ≠ .control) (notTextGet : type ≠ .textGet) :
    ¬ Unanswerable world event := by
  unfold Unanswerable
  rw [known]
  cases type <;> first | exact id | contradiction

/-- The responses of a fixed length can be serialised. -/
theorem serializes_of_answers
    (known : YAEventType.ofCode? event.header.type = some type)
    (unauthorized : ∀ request, event.param = some (.authorizeRequest request) →
      authorize request = false)
    (answers : Answers world bev event type param)
    (notControl : type ≠ .control) (notTextGet : type ≠ .textGet) :
    Serializes (some (assignResponse event param)) := by
  have serialized := serializeBody_assignResponse known param
  cases answers with
  | heartbeat =>
      exact (serializes_assignResponse serialized).mpr
        (YAEventHeader.frameLength_short (by decide))
  | control => contradiction
  | discover =>
      refine (serializes_assignResponse serialized).mpr
        (YAEventHeader.frameLength_short ?_)
      have magic := (mpackWriteU32_encoding DISCOVERY_MAGIC).length_le
      have port := (mpackWriteU32_encoding world.sessionPort.toUInt32).length_le
      have array : (mpackStartArray 2).length = 1 := rfl
      simp only [List.length_append]
      omega
  | textGet text copied => contradiction
  | refused request carried refused =>
      obtain ⟨body, written, length⟩ :=
        serializeAuthorizeResponse_length
          (refusedAuthorization request : YAAuthorizeEventResponse F)
      refine (serializes_assignResponse (serialized.trans written)).mpr
        (YAEventHeader.frameLength_short ?_)
      rw [length]
      exact (refusedAuthorization_bodyLength_le request).trans_lt (by decide)
  | granted request client carried authorized found =>
      rw [unauthorized request carried] at authorized
      cases authorized

/-- The response to a CONTROL request follows the null parameters. -/
theorem handleControl_unserialised {request : YACommonEventRequest}
    {response : Option (YAEvent F)}
    (known : YAEventType.ofCode? event.header.type = some .control)
    (carried : event.param = some (.common request))
    (returned : handleControl bev event world = (.ok response, after)) :
    ¬ Serializes response := by
  have yields :
      Yields (fun response => response = some (assignResponse event none))
        (handleControl bev event) := by
    simp only [handleControl, carried]
    exact yields_ite (handlePower_yields bev _ _) <|
      yields_ite (handlePower_yields bev _ _) <|
      yields_ite (handlePower_yields bev _ _) (yields_pure rfl)
  rw [yields _ _ _ returned]
  have stopped : yaSerializeEvent (assignResponse event none) =
      .error .nullDereference := by
    rw [yaSerializeEvent, serializeBody_assignResponse known none]
    rfl
  exact not_serializes stopped

/-- Only a text that is too long keeps the response to TEXT_GET from being
serialised. -/
theorem handleInputGet_serializes_iff (bev : Option BevId)
    {response : Option (YAEvent F)}
    (known : YAEventType.ofCode? event.header.type = some .textGet)
    (returned : handleInputGet bev event world = (.ok response, after)) :
    Serializes response ↔ ¬ Unanswerable world event := by
  obtain ⟨copied, selects, outcome⟩ := onDevices_apply copySelection world
  rw [handleInputGet, bind_of_ok outcome] at returned
  unfold Unanswerable
  rw [known]
  cases copied with
  | none =>
      cases returned
      refine iff_of_true serializes_none ?_
      intro tooLong
      obtain ⟨text, devices, found, -⟩ := tooLong
      rw [selects] at found
      cases found
  | some text =>
      cases returned
      have serialized := serializeBody_assignResponse known
        (some (.inputGet { text := some (cString text) } : YAParam F))
      rw [serializes_assignResponse serialized]
      constructor
      · intro short tooLong
        obtain ⟨other, devices, found, long⟩ := tooLong
        rw [selects] at found
        cases found
        exact absurd short (Nat.not_lt.mpr long)
      · intro fits
        by_contra long
        exact fits ⟨text, _, selects, Nat.not_lt.mp long⟩

/-- The handler of a frame returns, and its response can be serialised unless
the frame is unanswerable. -/
theorem eventHandler_frame (frame : SentFrame F) (world : World F)
    (bev : Option BevId)
    (representable : frame.event.header.IdsRepresentable)
    (known : YAEventType.ofCode? frame.event.header.type = some type) :
    ∃ response after,
      eventHandler type bev frame.event.received world = (.ok response, after) ∧
        (Serializes response ↔ ¬ Unanswerable world frame.event) := by
  have typed : frame.event.received.WellTyped :=
    yaParseEvent_wellTyped (frame.yaParseEvent_eq representable [])
  have received : YAEventType.ofCode? frame.event.received.header.type = some type :=
    known
  obtain ⟨response, after, returned⟩ :=
    eventHandler_returns bev typed received frame.received_harmless world
  refine ⟨response, after, returned, ?_⟩
  by_cases control : type = .control
  · cases control
    obtain ⟨request, carried, -⟩ :=
      (typed.common known rfl).resolve_left (frame.received_ne_none known rfl)
    refine iff_of_false (handleControl_unserialised received carried returned) ?_
    unfold Unanswerable
    rw [known]
    exact not_not_intro trivial
  by_cases textGet : type = .textGet
  · cases textGet
    exact handleInputGet_serializes_iff bev received returned
  refine iff_of_true ?_ (not_unanswerable known control textGet)
  cases response with
  | none => exact serializes_none
  | some answer =>
      obtain ⟨param, answers, rfl⟩ := eventHandler_answers bev returned
      exact serializes_of_answers received
        (fun request carried => frame.received_unauthorized carried) answers control
        textGet

end Handling

/-! ## Which calls stop -/

section Calls

variable {world : World F} {bev : BevId} {client : ClientId}
variable {input rest : List UInt8}

/-- A response is appended if and only if it can be serialised. -/
theorem respond_returns_iff {contents : Bufferevent} (response : Option (YAEvent F))
    (buffered : world.bevs bev = some contents) :
    (∃ after, respond bev response world = (.ok (), after)) ↔
      Serializes response := by
  cases response with
  | none => exact iff_of_true ⟨world, rfl⟩ serializes_none
  | some event =>
      cases serializing : yaSerializeEvent event with
      | error reason =>
          refine iff_of_false ?_ (not_serializes serializing)
          intro returns
          obtain ⟨after, returned⟩ := returns
          simp only [respond, serializing] at returned
          cases returned
      | ok serialized =>
          refine iff_of_true ?_ (serializes_of_ok serializing)
          cases out : serialized.out with
          | none =>
              simp only [respond, serializing, out]
              exact ⟨world, rfl⟩
          | some rsp =>
              simp only [respond, serializing, out]
              rw [writeBev, bind_of_ok (derefBev_of_some buffered)]
              exact ⟨_, rfl⟩

/-- A response to a request of an active client leaves the release of the
reference to be done, which returns. -/
theorem answering_returns_iff (response : Option (YAEvent F))
    (reads : world.Reads bev client input) :
    (∃ after,
      (respond bev response >>= fun _ => unrefClient client) world =
        (.ok (), after)) ↔
      Serializes response := by
  obtain ⟨contents, buffered, -⟩ := Option.map_eq_some_iff.mp reads.buffer
  rw [← respond_returns_iff response buffered]
  have steady : world.Steady bev (respond bev response world).2 :=
    respond_steady response world
  cases answered : respond bev response world with
  | mk result reached =>
      rw [answered] at steady
      cases result with
      | error reason => rw [bind_of_fault answered]
      | ok _ =>
          rw [bind_of_ok answered]
          obtain ⟨entry, stored, active⟩ :=
            Option.map_eq_some_iff.mp (steady.reads reads).active
          have connected : entry.state ≠ .disconnected := by
            rw [active]
            exact nofun
          exact iff_of_true ⟨_, unrefClient_of_connected stored connected⟩ ⟨reached, rfl⟩

omit [CFloat F] in
theorem unanswerable_congr {first second : World F} (event : YAEvent F)
    (same : first.devices = second.devices) :
    Unanswerable first event ↔ Unanswerable second event := by
  unfold Unanswerable
  rw [same]

/-- The processing of the event of a frame returns, and its response can be
serialised unless the event is handled and unanswerable. -/
theorem processServerEvent_frame (frame : SentFrame F)
    (representable : frame.event.header.IdsRepresentable)
    (reads : world.Reads bev client input) :
    ∃ response after,
      processServerEvent (some bev) frame.event.received (some client) world =
          (.ok response, after) ∧
        (Serializes response ↔
          Discarded world (some client) frame.event ∨
            ¬ Unanswerable world frame.event) := by
  have header : frame.event.received.header = frame.event.header := rfl
  cases known : YAEventType.ofCode? frame.event.header.type with
  | none =>
      refine ⟨none, _, processServerEvent_unknown (header ▸ known), ?_⟩
      refine iff_of_true serializes_none (Or.inr ?_)
      unfold Unanswerable
      rw [known]
      exact id
  | some type =>
      rcases @validateCommandIndex_cases F world frame.event.received _ reads.live
        with ⟨discarded, stale⟩ | ⟨accepted, manager, valid⟩
      · exact ⟨none, _, processServerEvent_discarded (header ▸ known) stale,
          iff_of_true serializes_none (Or.inl discarded)⟩
      · obtain ⟨response, after, returned, serializes⟩ :=
          eventHandler_frame frame
            (World.logged { world with manager }
              { bev := some bev, event := frame.event.received,
                client := some client, executed := true })
            (some bev) representable known
        refine ⟨response, after,
          (processServerEvent_executed (header ▸ known) valid).trans returned, ?_⟩
        have executed : ¬ Discarded world (some client) frame.event := accepted
        rw [serializes, or_iff_right executed]
        exact not_congr (unanswerable_congr frame.event rfl)

/-- A call with a frame in front returns if and only if the frame is discarded or
its response can be serialised. -/
theorem connReadcb_returns_iff {frame : SentFrame F}
    (reads : world.Reads bev client input) (arrives : frame.Arrived input rest) :
    (∃ after, connReadcb bev (some client) world = (.ok (), after)) ↔
      Discarded world (some client) frame.event ∨
        ¬ Unanswerable world frame.event := by
  obtain ⟨entry, stored, active⟩ := Option.map_eq_some_iff.mp reads.active
  obtain ⟨contents, buffered, isInput⟩ := Option.map_eq_some_iff.mp reads.buffer
  obtain ⟨representable, stream, complete⟩ := arrives
  cases isInput
  have arrived : frameArrived contents.input = true := by
    rw [stream] at complete ⊢
    exact (frame.frameArrived_iff rest).mpr complete
  have parsing :
      yaParseEvent (evbufferDrain contents.input 8) YAEvent.zero
          (packageSize contents.input) =
        .ok { status := 0, buf := rest, event := frame.event.received } := by
    rw [stream]
    exact frame.yaParseEvent_eq representable rest
  rw [connReadcb_parses stored active buffered arrived parsing,
    if_neg (by decide : ¬ (0 : Int) < 0)]
  let drained := world.setBev bev (some { contents with input := rest })
  have readsDrained : drained.Reads bev client rest := reads.setInput buffered rest
  have readsReferenced : (drained.referenced client).Reads bev client rest :=
    (drained.referenced_steady client).reads readsDrained
  obtain ⟨response, after, processed, serializes⟩ :=
    processServerEvent_frame frame representable readsReferenced
  have handed :=
    processServerEvent_hands frame.event.received readsReferenced.bound
      readsReferenced.live
  rw [processed] at handed
  have sameCheck :
      Discarded (drained.referenced client) (some client) frame.event ↔
        Discarded world (some client) frame.event :=
    discarded_referenced rfl
  rw [serveRequest, bind_of_ok (modifyState_apply _ _)]
  change (∃ returning,
    ((processServerEvent (some bev) frame.event.received (some client) >>=
      fun response => respond bev response >>= fun _ => unrefClient client)
        (drained.referenced client)) = (.ok (), returning)) ↔ _
  rw [bind_of_ok processed,
    answering_returns_iff response (handed.reads readsReferenced), serializes, sameCheck]
  exact or_congr_right (not_congr (unanswerable_congr frame.event rfl))

/-- A call that hands over nothing returns, if it can read the sizes. -/
theorem connReadcb_silent_returns
    (reads : world.Reads bev client input)
    (read : readFrame (F := F) input = .ok (rest, []))
    (word : 4 ≤ input.length) :
    ∃ after, connReadcb bev (some client) world = (.ok (), after) := by
  obtain ⟨entry, stored, active⟩ := Option.map_eq_some_iff.mp reads.active
  obtain ⟨contents, buffered, rfl⟩ := Option.map_eq_some_iff.mp reads.buffer
  unfold readFrame at read
  cases arrived : frameArrived contents.input with
  | false => exact ⟨_, connReadcb_waits stored active buffered word arrived⟩
  | true =>
      rw [arrived, if_pos rfl] at read
      split at read
      · cases read
      · rename_i parsed parsing
        split at read
        · rename_i failed
          rw [connReadcb_parses stored active buffered arrived parsing, if_pos failed]
          exact ⟨_, rfl⟩
        · cases read

end Calls

end MouseHero
