import MouseHero.Event.RoundTrip
import MouseHero.Server.Outcomes

/-!
# Responses

The handler table, the construction of responses and the serializer table are
three dispatches on the type of the event.  What each handler answers with is
described once, and compared with what the serializer of the type reads.
-/

namespace MouseHero

open FaultM

variable {F : Type} {Answer Next : Type}

/-! ## What responses carry -/

/-- The operations of a successful `handle_input_get`, the latest first. -/
def copyTrace : List DeviceCall :=
  [.clipboardGet, .mouseButton .left .click, .keyAction .control .release,
    .keyActionWithCode 99 .click, .keyActionWithCode 97 .click,
    .keyAction .control .press]

/-- The text that the clipboard holds after the selection has been copied. -/
def Devices.copiedText (devices : Devices) : CString :=
  devices.platform.clipboardText (copyTrace ++ devices.trace)

/-- The client of the connection of a bufferevent. -/
def World.FoundByBev (world : World F) (bev : Option BevId)
    (client : YaClient F) : Prop :=
  ∃ id contents,
    bev = some id ∧ world.bevs id = some contents ∧
      yaClientFindByFd world.manager contents.fd = some client

theorem World.FoundByBev.unique {world : World F} {bev : Option BevId}
    {first second : YaClient F} (isFirst : world.FoundByBev bev first)
    (isSecond : world.FoundByBev bev second) : first = second := by
  obtain ⟨id, contents, rfl, stored, found⟩ := isFirst
  obtain ⟨_, _, same, otherStored, otherFound⟩ := isSecond
  cases same
  rw [stored] at otherStored
  cases otherStored
  rw [found] at otherFound
  exact Option.some.inj otherFound

/-- The parameters of the response to an event of the given type. -/
inductive Answers [CFloat F] (world : World F) (bev : Option BevId)
    (event : YAEvent F) : YAEventType → Option (YAParam F) → Prop
  | heartbeat : Answers world bev event .heartbeat none
  | control : Answers world bev event .control none
  | discover :
      Answers world bev event .discover
        (some (.discoverResponse
          { magic := DISCOVERY_MAGIC, port := world.sessionPort }))
  | textGet (text : List UInt8) :
      world.devices.copiedText = some text →
      Answers world bev event .textGet
        (some (.inputGet { text := some (cString text) }))
  | refused (request : YAAuthorizeEventRequest) :
      event.param = some (.authorizeRequest request) →
      authorize request = false →
      Answers world bev event .authorize
        (some (.authorizeResponse (refusedAuthorization request)))
  | granted (request : YAAuthorizeEventRequest) (client : YaClient F) :
      event.param = some (.authorizeRequest request) →
      authorize request = true →
      world.FoundByBev bev client →
      Answers world bev event .authorize
        (some (.authorizeResponse (grantedAuthorization world client request)))

/-! ## Handlers that do not answer -/

/-- No run returns a response. -/
abbrev Silent (handling : ServerM F (Option (YAEvent F))) : Prop :=
  Yields (fun response => response = none) handling

section Silent

variable {world after : World F} (bev : Option BevId) (event : YAEvent F)

theorem pure_silent : Silent (pure none : ServerM F (Option (YAEvent F))) :=
  yields_pure rfl

theorem bind_silent {first : ServerM F Answer}
    {next : Answer → ServerM F (Option (YAEvent F))}
    (nextSilent : ∀ value, Silent (next value)) :
    Silent (first >>= next) :=
  yields_after nextSilent

theorem Silent.absurd {handling : ServerM F (Option (YAEvent F))}
    {response : YAEvent F} {claim : Prop} (silent : Silent handling)
    (answered : handling world = (.ok (some response), after)) : claim :=
  nomatch silent world (some response) after answered

theorem handleMouseClick_silent : Silent (handleMouseClick bev event) := by
  apply bind_silent
  intro request
  cases request with
  | none => exact pure_silent
  | some request =>
      simp only
      split
      · exact bind_silent fun _ => pure_silent
      · exact pure_silent

theorem handleMouseScroll_silent : Silent (handleMouseScroll bev event) := by
  apply bind_silent
  intro request
  cases request with
  | none => exact pure_silent
  | some request =>
      exact yields_ite pure_silent (bind_silent fun _ => pure_silent)

theorem handleKeyboard_silent : Silent (handleKeyboard bev event) := by
  unfold handleKeyboard
  cases event.param with
  | none => exact pure_silent
  | some param =>
      refine yields_ite pure_silent ?_
      cases param with
      | keyboard request =>
          simp only
          cases keyDirection request.op with
          | none => exact pure_silent
          | some direction =>
              refine yields_ite (bind_silent fun _ => pure_silent) ?_
              cases ckeyFromProtocol request.code with
              | none => exact pure_silent
              | some key => exact bind_silent fun _ => pure_silent
      | _ => exact yields_fault _

theorem handleInputText_silent : Silent (handleInputText bev event) := by
  unfold handleInputText
  cases event.param with
  | none => exact yields_fault _
  | some param =>
      cases param with
      | textInput request => exact bind_silent fun _ => pure_silent
      | _ => exact yields_fault _

variable [CFloat F]

theorem handleMouseMove_silent : Silent (handleMouseMove bev event) := by
  apply bind_silent
  intro request
  cases request with
  | none => exact pure_silent
  | some request =>
      apply bind_silent
      intro world
      cases yaClientFindByUid world.manager event.header.uid with
      | none => exact pure_silent
      | some client =>
          apply yields_ite
          · exact bind_silent fun _ => pure_silent
          · exact bind_silent fun _ => pure_silent

theorem handleMouseStop_silent : Silent (handleMouseStop bev event) := by
  apply bind_silent
  intro world
  cases yaClientFindByUid world.manager event.header.uid with
  | none => exact pure_silent
  | some client =>
      apply yields_ite
      · exact bind_silent fun _ => pure_silent
      · apply bind_silent
        intro _
        apply bind_silent
        intro _
        apply bind_silent
        intro _
        exact bind_silent fun _ => pure_silent

theorem handleSessionOption_silent :
    Silent (handleSessionOption bev event) := by
  unfold handleSessionOption
  cases event.param with
  | none => exact pure_silent
  | some param =>
      apply bind_silent
      intro world
      cases yaClientFindByUid world.manager event.header.uid with
      | none => exact pure_silent
      | some client =>
          cases param with
          | sessionOption request => exact bind_silent fun _ => pure_silent
          | _ => exact yields_fault _

end Silent

/-! ## The copied selection -/

/-- An operation is added to the trace. -/
def Devices.performed (devices : Devices) (call : DeviceCall) : Devices :=
  { devices with trace := call :: devices.trace }

/-- When a text is returned, an operation that must succeed has succeeded. -/
theorem succeeded_of_some {devices after : Devices} {call : DeviceCall}
    {first : DeviceM YAError} {failed next : DeviceM CString}
    {text : List UInt8}
    (performs : ∀ devices, (first devices).2 = devices.performed call)
    (fails : Yields (fun text => text = none) failed)
    (returned :
      (first >>= fun err => if err ≠ .success then failed else next) devices =
        (.ok (some text), after)) :
    next (devices.performed call) = (.ok (some text), after) := by
  have reaches := performs devices
  rw [bind_apply] at returned
  cases outcome : first devices with
  | mk result reached =>
      rw [outcome] at returned reaches
      cases result with
      | error impossible => exact nomatch impossible
      | ok err =>
          simp only at returned reaches
          rw [← reaches]
          by_cases success : err = .success
          · rwa [if_neg (not_not_intro success)] at returned
          · rw [if_pos success] at returned
            exact nomatch fails _ _ _ returned

/-- A selection that was copied is what the clipboard holds. -/
theorem copySelection_some {devices after : Devices} {text : List UInt8}
    (copied : copySelection devices = (.ok (some text), after)) :
    devices.copiedText = some text := by
  have nothing : Yields (fun text => text = none) (pure none : DeviceM CString) :=
    yields_pure rfl
  have released :
      Yields (fun text => text = none)
        (inputKeyAction .control .release >>= fun _ =>
          (pure none : DeviceM CString)) :=
    yields_after fun _ => nothing
  have held := succeeded_of_some (fun _ => rfl) nothing copied
  have selected := succeeded_of_some (fun _ => rfl) released held
  have copies := succeeded_of_some (fun _ => rfl) released selected
  have released := succeeded_of_some (fun _ => rfl) nothing copies
  have deselected := succeeded_of_some (fun _ => rfl) nothing released
  injection deselected with returned
  exact Except.ok.inj returned

/-! ## Handlers that answer -/

section Answers

variable {world after : World F} {event response : YAEvent F}
variable (bev : Option BevId)

theorem handleInputGet_answers
    (answered :
      handleInputGet bev event world = (.ok (some response), after)) :
    ∃ text,
      world.devices.copiedText = some text ∧
        response = assignResponse event
          (some (.inputGet { text := some (cString text) })) := by
  obtain ⟨copied, returned, outcome⟩ :=
    onDevices_apply copySelection world
  rw [handleInputGet, bind_of_ok outcome] at answered
  cases copied with
  | none => cases answered
  | some text =>
      cases answered
      exact ⟨text, copySelection_some returned, rfl⟩

theorem handlePower_yields (script command : String) :
    Yields (fun response => response = some (assignResponse event none))
      (handlePower script command bev event) := by
  apply yields_after
  intro ret
  apply yields_ite
  · exact yields_after fun _ => yields_pure rfl
  · exact yields_pure rfl

theorem handlePower_answers {script command : String}
    (answered :
      handlePower script command bev event world =
        (.ok (some response), after)) :
    response = assignResponse event none :=
  Option.some.inj (handlePower_yields bev script command _ _ _ answered)

theorem handleControl_answers
    (answered : handleControl bev event world = (.ok (some response), after)) :
    response = assignResponse event none := by
  cases carried : event.param with
  | none =>
      simp only [handleControl, carried] at answered
      cases answered
  | some param =>
      cases param with
      | common request =>
          simp only [handleControl, carried] at answered
          split at answered
          · exact handlePower_answers bev answered
          split at answered
          · exact handlePower_answers bev answered
          split at answered
          · exact handlePower_answers bev answered
          · cases answered
            rfl
      | _ =>
          simp only [handleControl, carried] at answered
          cases answered

theorem handleDiscover_answers
    (answered : handleDiscover bev event world = (.ok (some response), after)) :
    response = assignResponse event
      (some (.discoverResponse
        { magic := DISCOVERY_MAGIC, port := world.sessionPort })) := by
  cases carried : event.param with
  | none =>
      simp only [handleDiscover, carried] at answered
      cases answered
  | some param =>
      cases param with
      | discoverRequest request =>
          simp only [handleDiscover, carried] at answered
          split at answered
          · cases answered
          · cases answered
            rfl
      | _ =>
          simp only [handleDiscover, carried] at answered
          cases answered

variable [CFloat F]

theorem handleAuthorize_answers
    (answered :
      handleAuthorize bev event world = (.ok (some response), after)) :
    ∃ param,
      Answers world bev event .authorize param ∧
        response = assignResponse event param := by
  cases carried : event.param with
  | none =>
      simp only [handleAuthorize, carried] at answered
      cases answered
  | some param =>
      cases param with
      | authorizeRequest request =>
          cases authorized : authorize request with
          | false =>
              rw [handleAuthorize_refused carried authorized] at answered
              cases answered
              exact ⟨_, .refused request carried authorized, rfl⟩
          | true =>
              cases bev with
              | none =>
                  rw [handleAuthorize_noBev carried authorized] at answered
                  cases answered
              | some id =>
                  cases stored : world.bevs id with
                  | none =>
                      rw [handleAuthorize_freedBev carried authorized stored]
                        at answered
                      cases answered
                  | some contents =>
                      cases found :
                          yaClientFindByFd world.manager contents.fd with
                      | none =>
                          rw [handleAuthorize_unbound carried authorized stored
                            found] at answered
                          cases answered
                      | some client =>
                          rw [handleAuthorize_granted carried authorized stored
                            found] at answered
                          cases answered
                          exact ⟨_, .granted request client carried authorized
                            ⟨id, contents, rfl, stored, found⟩, rfl⟩
      | _ =>
          simp only [handleAuthorize, carried] at answered
          cases answered

theorem eventHandler_answers {type : YAEventType}
    (answered :
      eventHandler type bev event world = (.ok (some response), after)) :
    ∃ param,
      Answers world bev event type param ∧
        response = assignResponse event param := by
  cases type with
  | mouseMove => exact (handleMouseMove_silent bev event).absurd answered
  | mouseClick => exact (handleMouseClick_silent bev event).absurd answered
  | mouseWheel => exact (handleMouseScroll_silent bev event).absurd answered
  | keyboard => exact (handleKeyboard_silent bev event).absurd answered
  | textInput => exact (handleInputText_silent bev event).absurd answered
  | textGet =>
      obtain ⟨text, copied, rfl⟩ := handleInputGet_answers bev answered
      exact ⟨_, .textGet text copied, rfl⟩
  | discover => exact ⟨_, .discover, handleDiscover_answers bev answered⟩
  | mouseStop => exact (handleMouseStop_silent bev event).absurd answered
  | control => exact ⟨_, .control, handleControl_answers bev answered⟩
  | authorize => exact handleAuthorize_answers bev answered
  | heartbeat =>
      cases answered
      exact ⟨_, .heartbeat, rfl⟩
  | sessionOption => exact (handleSessionOption_silent bev event).absurd answered

end Answers

/-! ## Frames of responses -/

section Frames

variable [CFloat F] {event response : YAEvent F}

/-- The response is serialised, and its header is read back from the frame. -/
def YAEvent.Decodes (response : YAEvent F) : Prop :=
  ∃ frame,
    yaSerializeEvent response =
        .ok { length := frame.length, out := some frame } ∧
      yaParseEventHeader (evbufferDrain frame 8)
          (packageSize frame).headerSize =
        .ok (some response.header)

/-- The length of the frame of a response with a body of the given length. -/
def YAEventHeader.frameLength (header : YAEventHeader) (bodyLength : Nat) :
    Nat :=
  8 + (serializeEventHeader { header with direction := RESPONSE }).length +
    bodyLength

theorem Decodes.of_fault {reason : Fault}
    (stopped : serializeBody response = .error reason) :
    ¬ response.Decodes := by
  rintro ⟨frame, serialized, -⟩
  rw [yaSerializeEvent, stopped] at serialized
  cases serialized

/-- A response whose body can be written decodes unless a number does not fit:
the ids for the header parser, the length for `int`. -/
theorem decodes_iff {body : List UInt8}
    (range : response.header.InRange)
    (written : serializeBody response = .ok (0, body)) :
    response.Decodes ↔
      response.header.IdsRepresentable ∧
        (frameBytes (serializeEventHeader response.header) body).length <
          2 ^ 31 := by
  have encoding := serializeEventHeader_encoding response.header
  have size :
      (packageSize
          (frameBytes (serializeEventHeader response.header) body)).headerSize.toNat =
        (serializeEventHeader response.header).length := by
    have short := length_serializeEventHeader_le response.header
    have sizes :=
      packageSize_frame (serializeEventHeader response.header) body []
    rw [List.append_nil] at sizes
    simp only [sizes, frameSize, UInt32.toNat_ofNat']
    omega
  have behind :
      evbufferDrain (frameBytes (serializeEventHeader response.header) body) 8 =
        serializeEventHeader response.header ++ body := by
    have drained :=
      evbufferDrain_frame (serializeEventHeader response.header) body []
    simpa only [List.append_nil] using drained
  constructor
  · rintro ⟨frame, serialized, parsed⟩
    obtain ⟨status, bytes, same, rfl, short⟩ := yaSerializeEvent_eq_ok serialized
    rw [written] at same
    cases same
    refine ⟨?_, short⟩
    by_contra outside
    rw [behind, yaParseEventHeader_outOfRange encoding range outside size]
      at parsed
    cases parsed
  · rintro ⟨representable, short⟩
    refine ⟨_, yaSerializeEvent_of_body written short, ?_⟩
    rw [behind,
      yaParseEventHeader_encoding encoding range representable size]

end Frames

/-! ## The dispatcher -/

section Dispatch

variable {world after reached : World F} {event response : YAEvent F}
variable {bev : Option BevId} {target : Option ClientId}

/-- A check that lets an event through changes the table at most, and only for
the types it is made for. -/
theorem validateCommandIndex_true
    (valid : validateCommandIndex target event world = (.ok true, reached)) :
    ∃ manager,
      reached = { world with manager } ∧
        (needCommandIndexCheck event.header.type = false →
          manager = world.manager) := by
  cases target with
  | none =>
      cases valid
      exact ⟨world.manager, rfl, fun _ => rfl⟩
  | some client =>
      by_cases checked :
          event.header.direction = REQUEST ∧
            needCommandIndexCheck event.header.type
      · have unchecked (exempt : needCommandIndexCheck event.header.type = false) :
            False := by
          rw [exempt] at checked
          exact nomatch checked.2
        cases stored : world.manager.deref client with
        | none =>
            have dangling :
                derefClient client world = (.error .useAfterFree, world) := by
              rw [derefClient, bind_of_ok (getState_apply world), stored]
              rfl
            rw [validateCommandIndex, if_pos checked, bind_of_fault dangling]
              at valid
            cases valid
        | some entry =>
            by_cases stale :
                event.header.index ≤ entry.commandIndex.toUInt32
            · rw [validateCommandIndex_stale checked stored stale] at valid
              cases valid
            · rw [validateCommandIndex_fresh checked stored stale] at valid
              cases valid
              exact ⟨_, rfl, fun exempt => (unchecked exempt).elim⟩
      · rw [validateCommandIndex_exempt checked] at valid
        cases valid
        exact ⟨world.manager, rfl, fun _ => rfl⟩

variable [CFloat F]

/-- What `process_server_event` returns, if it returns a response. -/
theorem processServerEvent_answers
    (returned :
      processServerEvent bev event target world =
        (.ok (some response), after)) :
    ∃ type param,
      YAEventType.ofCode? event.header.type = some type ∧
        Answers world bev event type param ∧
        response = assignResponse event param := by
  cases known : YAEventType.ofCode? event.header.type with
  | none =>
      rw [processServerEvent_unknown known] at returned
      cases returned
  | some type =>
      cases checked : validateCommandIndex target event world with
      | mk result reached =>
          cases result with
          | error reason =>
              rw [processServerEvent, findEventHandler, known] at returned
              simp only [Option.map_some] at returned
              rw [bind_of_fault checked] at returned
              cases returned
          | ok executed =>
              cases executed with
              | false =>
                  rw [processServerEvent_discarded known checked] at returned
                  cases returned
              | true =>
                  rw [processServerEvent_executed known checked] at returned
                  obtain ⟨manager, rfl, exempt⟩ :=
                    validateCommandIndex_true checked
                  obtain ⟨param, answers, rfl⟩ := eventHandler_answers bev returned
                  refine ⟨type, param, rfl, ?_, rfl⟩
                  -- The check has not touched what the response depends on.
                  cases answers with
                  | heartbeat => exact .heartbeat
                  | control => exact .control
                  | discover => exact .discover
                  | textGet text copied => exact .textGet text copied
                  | refused request carried unauthorized =>
                      exact .refused request carried unauthorized
                  | granted request client carried authorized found =>
                      have unchecked :
                          needCommandIndexCheck event.header.type = false := by
                        rw [YAEventType.ofCode?_eq_some.mp known]
                        decide
                      cases exempt unchecked
                      exact .granted request client carried authorized found

end Dispatch

/-! ## Responses that decode -/

section Decoding

variable [CFloat F] {world after : World F} {event response : YAEvent F}
variable {bev : Option BevId} {target : Option ClientId}

/-- The length of a text on the wire. -/
def textLength (text : List UInt8) : Nat :=
  (mpackWriteStr text (UInt32.ofNat (cString text).length)).length

/-- The length of the body of an authorization on the wire. -/
def YAAuthorizeEventResponse.bodyLength
    (response : YAAuthorizeEventResponse F) : Nat :=
  (mpackWriteU32 response.osType).length +
    (mpackWriteU32 response.uid).length +
    (mpackWriteU32 response.sessionPort.toUInt32).length +
    (mpackWriteU32 response.commandPort.toUInt32).length +
    textLength (response.macs.getD []) +
    if response.clientVersion ≥ 2 then 8 else 7

/-- The frame of the response to the event has an `int` length.  Only a text
can make it longer: the clipboard or the list of MAC addresses. -/
def ResponseFits (world : World F) (bev : Option BevId) (event : YAEvent F) :
    Prop :=
  match YAEventType.ofCode? event.header.type with
  | some .textGet =>
      ∀ text, world.devices.copiedText = some text →
        event.header.frameLength (textLength (cString text)) < 2 ^ 31
  | some .authorize =>
      ∀ request client,
        event.param = some (.authorizeRequest request) →
        authorize request = true →
        world.FoundByBev bev client →
        event.header.frameLength
          (grantedAuthorization world client request).bodyLength < 2 ^ 31
  | _ => True

theorem serializeAuthorizeResponse_length
    (response : YAAuthorizeEventResponse F) :
    ∃ body,
      serializeAuthorizeResponse (some (.authorizeResponse response)) =
          .ok (0, body) ∧
        body.length = response.bodyLength := by
  simp only [serializeAuthorizeResponse, writeCString, except_ok_bind]
  split
  · rename_i version
    refine ⟨_, rfl, ?_⟩
    have array : (mpackStartArray 8).length = 1 := rfl
    have protocol : (mpackWriteU32 YA_PROTOCOL_VERSION).length = 1 := rfl
    simp only [YAAuthorizeEventResponse.bodyLength, textLength, if_pos version,
      List.length_append, array, protocol, mpackWriteBool, mpackWriteFloat,
      List.length_cons, List.length_nil, length_storeWord]
    omega
  · rename_i version
    refine ⟨_, rfl, ?_⟩
    have array : (mpackStartArray 7).length = 1 := rfl
    simp only [YAAuthorizeEventResponse.bodyLength, textLength, if_neg version,
      List.length_append, array, mpackWriteBool, mpackWriteFloat,
      List.length_cons, List.length_nil, length_storeWord]
    omega

theorem YAEventHeader.frameLength_short {header : YAEventHeader}
    {bodyLength : Nat} (short : bodyLength < 2 ^ 30) :
    header.frameLength bodyLength < 2 ^ 31 := by
  have bound :=
    length_serializeEventHeader_le { header with direction := RESPONSE }
  rw [YAEventHeader.frameLength]
  omega

theorem refusedAuthorization_bodyLength_le
    (request : YAAuthorizeEventRequest) :
    (refusedAuthorization request : YAAuthorizeEventResponse F).bodyLength ≤
      13 := by
  have fields :
      (mpackWriteU32 OS_LINUX).length + (mpackWriteU32 0).length +
          (mpackWriteU32 (UInt16.toUInt32 0)).length +
          (mpackWriteU32 (UInt16.toUInt32 0)).length + textLength [] ≤ 5 := by
    decide
  have version :
      (if (refusedAuthorization request :
            YAAuthorizeEventResponse F).clientVersion ≥ 2 then 8 else 7) ≤
        8 := by
    split <;> decide
  exact Nat.add_le_add fields version

/-- Responses other than to CONTROL events, whose serializer writes a body. -/
theorem assignResponse_decodes_iff {type : YAEventType}
    {param : Option (YAParam F)} {body : List UInt8}
    (known : YAEventType.ofCode? event.header.type = some type)
    (uncontrolled : type ≠ .control)
    (written : serializeBody (assignResponse event param) = .ok (0, body))
    (fits :
      ResponseFits world bev event ↔
        event.header.frameLength body.length < 2 ^ 31) :
    (assignResponse event param).Decodes ↔
      event.header.type ≠ YAEventType.control.code ∧
        event.header.IdsRepresentable ∧ ResponseFits world bev event := by
  have code := YAEventType.ofCode?_eq_some.mp known
  have other : event.header.type ≠ YAEventType.control.code := by
    rw [code]
    intro same
    have control := congrArg YAEventType.ofCode? same
    rw [YAEventType.ofCode?_code, YAEventType.ofCode?_code] at control
    exact uncontrolled (Option.some.inj control)
  have range : (assignResponse event param).header.InRange := by
    have bound := type.code_lt
    rw [← code] at bound
    exact ⟨bound.trans (by decide), (by decide : RESPONSE.toNat < 256)⟩
  have length :
      (frameBytes (serializeEventHeader (assignResponse event param).header)
        body).length = event.header.frameLength body.length := by
    rw [length_frameBytes, YAEventHeader.frameLength, Nat.add_comm 8,
      Nat.add_right_comm]
    rfl
  rw [decodes_iff range written, length, fits]
  exact ⟨fun decodes => ⟨other, decodes⟩, fun decodes => decodes.2⟩

/-- The serializer of the type, on what the response carries. -/
theorem serializeBody_assignResponse {type : YAEventType}
    (known : YAEventType.ofCode? event.header.type = some type)
    (param : Option (YAParam F)) :
    serializeBody (assignResponse event param) =
      match (getSerializer type.code RESPONSE : Option (SerializerFn F)) with
      | some serialize => serialize param
      | none => .ok (0, []) := by
  rw [← YAEventType.ofCode?_eq_some.mp known]
  rfl

/-- A response decodes if and only if it is not that of a CONTROL event, the
ids of the event are representable and its frame has an `int` length. -/
theorem response_decodes_iff
    (returned :
      processServerEvent bev event target world =
        (.ok (some response), after)) :
    response.Decodes ↔
      event.header.type ≠ YAEventType.control.code ∧
        event.header.IdsRepresentable ∧ ResponseFits world bev event := by
  obtain ⟨type, param, known, answers, rfl⟩ :=
    processServerEvent_answers returned
  have serialized := serializeBody_assignResponse known param
  cases answers with
  | heartbeat =>
      apply assignResponse_decodes_iff known nofun serialized
      rw [ResponseFits, known]
      exact iff_of_true trivial
        (YAEventHeader.frameLength_short (by decide))
  | control =>
      refine iff_of_false (Decodes.of_fault serialized) ?_
      intro condition
      exact condition.1 (YAEventType.ofCode?_eq_some.mp known)
  | discover =>
      apply assignResponse_decodes_iff known nofun serialized
      rw [ResponseFits, known]
      refine iff_of_true trivial (YAEventHeader.frameLength_short ?_)
      have magic := (mpackWriteU32_encoding DISCOVERY_MAGIC).length_le
      have port := (mpackWriteU32_encoding world.sessionPort.toUInt32).length_le
      have array : (mpackStartArray 2).length = 1 := rfl
      simp only [List.length_append]
      omega
  | textGet text copied =>
      apply assignResponse_decodes_iff known nofun serialized
      rw [ResponseFits, known]
      constructor
      · intro fits
        exact fits text copied
      · intro fits other otherCopied
        rw [copied] at otherCopied
        cases otherCopied
        exact fits
  | refused request carried unauthorized =>
      obtain ⟨body, written, length⟩ :=
        serializeAuthorizeResponse_length
          (refusedAuthorization request : YAAuthorizeEventResponse F)
      apply assignResponse_decodes_iff known nofun (serialized.trans written)
      rw [ResponseFits, known, length]
      refine iff_of_true ?_ (YAEventHeader.frameLength_short ?_)
      · intro other client otherCarried authorized
        rw [carried] at otherCarried
        cases otherCarried
        rw [unauthorized] at authorized
        cases authorized
      · exact (refusedAuthorization_bodyLength_le request).trans_lt (by decide)
  | granted request client carried authorized found =>
      obtain ⟨body, written, length⟩ :=
        serializeAuthorizeResponse_length
          (grantedAuthorization world client request)
      apply assignResponse_decodes_iff known nofun (serialized.trans written)
      rw [ResponseFits, known, length]
      constructor
      · intro fits
        exact fits request client carried authorized found
      · intro fits other otherClient otherCarried _ otherFound
        rw [carried] at otherCarried
        cases otherCarried
        rw [World.FoundByBev.unique otherFound found]
        exact fits

end Decoding

/-- A request to do nothing: CONTROL with an operation that does not exist. -/
def idleControl : YAEvent Rat where
  header := { type := 0x9, direction := REQUEST, index := 1, uid := 1 }
  param := some (.common { lparam := 0, rparam := 0 })
  paramLen := 8

/-- The response to a CONTROL request makes the serializer follow a null
pointer. -/
theorem idleControl_notSerialised :
    ∃ response after,
      processServerEvent (some 16) idleControl (some 8) World.connected =
          (.ok (some response), after) ∧
        yaSerializeEvent response = .error .nullDereference ∧
        ¬ response.Decodes := by
  refine ⟨assignResponse idleControl none, _, rfl, rfl, ?_⟩
  exact Decodes.of_fault rfl

/-- The response to a heartbeat. -/
def heartbeatRequest : YAEvent Rat where
  header := { type := 0xB, direction := REQUEST, index := 1, uid := 1 }
  param := none
  paramLen := 0

theorem response_decodes_heartbeat :
    (assignResponse heartbeatRequest none).Decodes :=
  (response_decodes_iff
    (rfl :
      processServerEvent none heartbeatRequest none World.connected =
        (.ok (some (assignResponse heartbeatRequest none)), _))).mpr
    ⟨by decide, ⟨by decide, by decide⟩, trivial⟩

end MouseHero
