import MouseHero.Client.View
import MouseHero.Event.Parsed
import MouseHero.Server.Command
import MouseHero.Server.Outcomes

/-!
# Datagrams and null pointers

On the UDP path there is no bufferevent, and an event without a body has no
parameters.  Three handlers follow such a pointer without a check; the other
ones never do.
-/

namespace MouseHero

open FaultM

variable {F : Type}

/-! ## Handlers without faults -/

section Total

variable {event : YAEvent F} {type : YAEventType} (bev : Option BevId)

theorem onDevices_total {Answer : Type} (computation : DeviceM Answer) :
    Total (onDevices computation : ServerM F Answer) :=
  total_within _ _ _

theorem writeClient_total (client : ClientId)
    (change : YaClient F → YaClient F) : Total (writeClient client change) :=
  total_modifyState _

theorem setThrottle_total (throttle : YAMouseThrottleState) :
    Total (setThrottle throttle : ServerM F Unit) :=
  total_modifyState _

theorem commonRequest_total (typed : event.WellTyped)
    (known : YAEventType.ofCode? event.header.type = some type)
    (common : type.isCommon) :
    Total (commonRequest event) := by
  rcases typed.common known common with absent | ⟨request, carried, length⟩
  · simp only [commonRequest, absent]
    exact total_pure _
  · simp only [commonRequest, carried, length]
    exact total_pure _

theorem handleMouseClick_total (typed : event.WellTyped)
    (known : YAEventType.ofCode? event.header.type = some .mouseClick) :
    Total (handleMouseClick bev event) := by
  apply total_bind (commonRequest_total typed known rfl)
  intro request
  cases request with
  | none => exact total_pure _
  | some request =>
      simp only
      split
      · exact total_bind (onDevices_total _) fun _ => total_pure _
      · exact total_pure _

theorem handleMouseScroll_total (typed : event.WellTyped)
    (known : YAEventType.ofCode? event.header.type = some .mouseWheel) :
    Total (handleMouseScroll bev event) := by
  apply total_bind (commonRequest_total typed known rfl)
  intro request
  cases request with
  | none => exact total_pure _
  | some request =>
      apply total_ite (total_pure _)
      exact total_bind (onDevices_total _) fun _ => total_pure _

theorem handleKeyboard_total (typed : event.WellTyped)
    (known : YAEventType.ofCode? event.header.type = some .keyboard) :
    Total (handleKeyboard bev event) := by
  rcases typed.keyboard known with absent | ⟨request, carried, length⟩
  · simp only [handleKeyboard, absent]
    exact total_pure _
  · simp only [handleKeyboard, carried, length, ne_eq, not_true_eq_false,
      if_false]
    cases keyDirection request.op with
    | none => exact total_pure _
    | some direction =>
        apply total_ite
        · exact total_bind (onDevices_total _) fun _ => total_pure _
        · cases ckeyFromProtocol request.code with
          | none => exact total_pure _
          | some key =>
              exact total_bind (onDevices_total _) fun _ => total_pure _

theorem handleInputGet_total : Total (handleInputGet bev event) := by
  apply total_bind (onDevices_total _)
  intro text
  cases text <;> exact total_pure _

theorem handlePower_total (script command : String) :
    Total (handlePower script command bev event) := by
  apply total_bind (onDevices_total _)
  intro ret
  apply total_ite _ (total_pure _)
  exact total_bind (onDevices_total _) fun _ => total_pure _

theorem handleControl_total (typed : event.WellTyped)
    (known : YAEventType.ofCode? event.header.type = some .control) :
    Total (handleControl bev event) := by
  rcases typed.common known rfl with absent | ⟨request, carried, -⟩
  · simp only [handleControl, absent]
    exact total_pure _
  · simp only [handleControl, carried]
    exact total_ite (handlePower_total _ _ _) <|
      total_ite (handlePower_total _ _ _) <|
      total_ite (handlePower_total _ _ _) (total_pure _)

variable [CFloat F]

theorem handleSessionOption_total (typed : event.WellTyped)
    (known : YAEventType.ofCode? event.header.type = some .sessionOption) :
    Total (handleSessionOption bev event) := by
  rcases typed.sessionOption known with absent | ⟨request, carried⟩
  · simp only [handleSessionOption, absent]
    exact total_pure _
  · simp only [handleSessionOption, carried]
    apply total_bind total_getState
    intro world
    cases yaClientFindByUid world.manager event.header.uid with
    | none => exact total_pure _
    | some client =>
        exact total_bind (writeClient_total _ _) fun _ => total_pure _

private theorem moveFiltered_total (client : YaClient F) (outDx outDy : Int) :
    Total (moveFiltered client outDx outDy) := by
  unfold moveFiltered
  cases client.mouseFilter with
  | none => exact onDevices_total _
  | some filter =>
      exact total_bind (writeClient_total _ _) fun _ => onDevices_total _

private theorem moveSubpixels_total (client : YaClient F) (fdx fdy : F) :
    Total (moveSubpixels client fdx fdy) := by
  unfold moveSubpixels
  cases client.mouseFilter with
  | none => exact total_pure _
  | some filter =>
      exact total_bind (writeClient_total _ _) fun _ => onDevices_total _

theorem emit_total (client : YaClient F)
    (step : World F → YAMouseThrottleState × Option (Int × Int)) :
    Total (do
      let world ← getState
      setThrottle (step world).1
      match (step world).2 with
      | none => return ()
      | some (outDx, outDy) => moveFiltered client outDx outDy) := by
  apply total_bind total_getState
  intro world
  apply total_bind (setThrottle_total _)
  intro _
  cases (step world).2 with
  | none => exact total_pure _
  | some emitted => exact moveFiltered_total _ _ _

private theorem moveThrottled_total (client : YaClient F) (fdx fdy : F) :
    Total (moveThrottled client fdx fdy) :=
  emit_total client fun world =>
    yaMouseThrottleCollect F world.throttle (roundPixels fdx)
      (roundPixels fdy) false world.clock

theorem handleMouseMove_total (typed : event.WellTyped)
    (known : YAEventType.ofCode? event.header.type = some .mouseMove) :
    Total (handleMouseMove bev event) := by
  apply total_bind (commonRequest_total typed known rfl)
  intro request
  cases request with
  | none => exact total_pure _
  | some request =>
      apply total_bind total_getState
      intro world
      cases yaClientFindByUid world.manager event.header.uid with
      | none => exact total_pure _
      | some client =>
          apply total_ite
          · exact total_bind (moveSubpixels_total _ _ _) fun _ => total_pure _
          · exact total_bind (moveThrottled_total _ _ _) fun _ => total_pure _

theorem handleMouseStop_total : Total (handleMouseStop bev event) := by
  apply total_bind total_getState
  intro world
  cases yaClientFindByUid world.manager event.header.uid with
  | none => exact total_pure _
  | some client =>
      apply total_ite
      · exact total_bind (writeClient_total _ _) fun _ => total_pure _
      · apply total_bind
          (emit_total client fun world =>
            yaMouseThrottleFlush world.throttle world.clock)
        intro _
        apply total_bind (writeClient_total _ _)
        intro _
        apply total_bind total_getState
        intro world
        exact total_bind (setThrottle_total _) fun _ => total_pure _

end Total

/-! ## The hazards -/

/-- The handler of the event follows a null pointer when there is no
bufferevent. -/
def YAEvent.FollowsNull (event : YAEvent F) : Prop :=
  match YAEventType.ofCode? event.header.type with
  | some .textInput | some .discover => event.param = none
  | some .authorize =>
      ∃ request, event.param = some (.authorizeRequest request) ∧
        authorize request = true
  | _ => False

private theorem requestClient_live (world : World F) (event : YAEvent F)
    (client : ClientId) (isClient : requestClient world event = some client) :
    (world.manager.deref client).isSome := by
  obtain ⟨entry, found, rfl⟩ := Option.map_eq_some_iff.mp isClient
  have active := (YaClientManager.hasActive_of_findByUid found).1
  exact YaClientManager.deref_of_mem active.1

variable [CFloat F]

/-- A well-typed event without a hazard is handled without a fault. -/
theorem eventHandler_returns {event : YAEvent F} {type : YAEventType}
    (bev : Option BevId) (typed : event.WellTyped)
    (known : YAEventType.ofCode? event.header.type = some type)
    (harmless : ¬ event.FollowsNull) :
    Total (eventHandler type bev event) := by
  simp only [YAEvent.FollowsNull, known] at harmless
  cases type with
  | mouseMove => exact handleMouseMove_total bev typed known
  | mouseClick => exact handleMouseClick_total bev typed known
  | mouseWheel => exact handleMouseScroll_total bev typed known
  | keyboard => exact handleKeyboard_total bev typed known
  | textInput =>
      rcases typed.textInput known with absent | ⟨text, carried⟩
      · exact absurd absent harmless
      · simp only [eventHandler, handleInputText, carried]
        exact total_bind (onDevices_total _) fun _ => total_pure _
  | textGet => exact handleInputGet_total bev
  | discover =>
      rcases typed.discover known with absent | ⟨request, carried⟩
      · exact absurd absent harmless
      · simp only [eventHandler, handleDiscover, carried]
        apply total_ite (total_pure _)
        exact total_bind total_getState fun _ => total_pure _
  | mouseStop => exact handleMouseStop_total bev
  | control => exact handleControl_total bev typed known
  | authorize =>
      rcases typed.authorize known with absent | ⟨request, carried⟩
      · simp only [eventHandler, handleAuthorize, absent]
        exact total_pure _
      · intro world
        cases authorized : authorize request with
        | true => exact absurd ⟨request, carried, authorized⟩ harmless
        | false => exact ⟨_, _, handleAuthorize_refused carried authorized⟩
  | heartbeat => exact total_pure _
  | sessionOption => exact handleSessionOption_total bev typed known

private theorem eventHandler_followsNull {event : YAEvent F} {type : YAEventType}
    (known : YAEventType.ofCode? event.header.type = some type)
    (hazard : event.FollowsNull) (world : World F) :
    eventHandler type none event world = (.error .nullDereference, world) := by
  simp only [YAEvent.FollowsNull, known] at hazard
  cases type with
  | textInput =>
      simp only [eventHandler, handleInputText, hazard]
      rfl
  | discover =>
      simp only [eventHandler, handleDiscover, hazard]
      rfl
  | authorize =>
      obtain ⟨request, carried, authorized⟩ := hazard
      exact handleAuthorize_noBev carried authorized
  | _ => exact hazard.elim

theorem udpReceive_wellTyped {datagram : List UInt8} {event : YAEvent F}
    (received : udpReceive datagram = .ok (some event)) :
    event.WellTyped := by
  unfold udpReceive at received
  simp only at received
  split at received
  · cases received
  split at received
  · cases received
  · split at received
    · cases received
    · rename_i parsed returned
      split at received
      · cases received
      · cases received
        exact yaParseEvent_wellTyped returned

/-! ## The main result -/

/-- The handler runs and follows a null pointer. -/
def NullHazard (world : World F) (event : YAEvent F) : Prop :=
  event.FollowsNull ∧ ¬ Discarded world (requestClient world event) event

/-- Processing the event of a datagram follows no null pointer if and only if
there is no hazard, and then it returns. -/
theorem datagram_followsNoNull_iff {datagram : List UInt8}
    {event : YAEvent F} (world : World F)
    (received : udpReceive datagram = .ok (some event)) :
    ((processServerEvent none event (requestClient world event) world).1 ≠
        .error .nullDereference ↔
      ¬ NullHazard world event) ∧
    (¬ NullHazard world event →
      ∃ response,
        (processServerEvent none event (requestClient world event) world).1 =
          .ok response) := by
  have typed := udpReceive_wellTyped received
  have returns {response : Option (YAEvent F)} {after : World F}
      (outcome :
        processServerEvent none event (requestClient world event) world =
          (.ok response, after))
      (harmless : ¬ NullHazard world event) :
      ((processServerEvent none event (requestClient world event) world).1 ≠
          .error .nullDereference ↔
        ¬ NullHazard world event) ∧
      (¬ NullHazard world event →
        ∃ response,
          (processServerEvent none event (requestClient world event) world).1 =
            .ok response) := by
    rw [outcome]
    exact ⟨⟨fun _ => harmless, fun _ => nofun⟩, fun _ => ⟨response, rfl⟩⟩
  cases known : YAEventType.ofCode? event.header.type with
  | none =>
      refine returns (processServerEvent_unknown known) ?_
      rintro ⟨follows, -⟩
      simp [YAEvent.FollowsNull, known] at follows
  | some type =>
      rcases validateCommandIndex_cases (requestClient_live world event) with
        ⟨discarded, stale⟩ | ⟨accepted, manager, valid⟩
      · exact returns (processServerEvent_discarded known stale)
          fun hazard => hazard.2 discarded
      · by_cases follows : event.FollowsNull
        · have hazard : NullHazard world event := ⟨follows, accepted⟩
          rw [processServerEvent_executed known valid,
            eventHandler_followsNull known follows]
          exact ⟨⟨fun fine => absurd rfl fine, fun none => absurd hazard none⟩,
            fun none => absurd hazard none⟩
        · obtain ⟨response, after, outcome⟩ :=
            eventHandler_returns none typed known follows
              (World.logged { world with manager }
                { bev := none, event, client := requestClient world event,
                  executed := true })
          exact returns
            ((processServerEvent_executed known valid).trans outcome)
            fun hazard => follows hazard.1

/-- A text request without a body, from anyone. -/
def emptyTextDatagram : List UInt8 :=
  [0, 0, 0, 9, 0, 0, 0, 5, 0x94, 1, 5, 1, 1]

/-- The handler of an empty text request follows the null parameters. -/
theorem emptyTextDatagram_followsNull :
    ∃ event : YAEvent Rat,
      udpReceive emptyTextDatagram = .ok (some event) ∧
        (processServerEvent none event (requestClient World.started event)
          World.started).1 = .error .nullDereference :=
  ⟨_, rfl, rfl⟩

/-- The request to stop the mouse. -/
def stopDatagram : List UInt8 :=
  [0, 0, 0, 9, 0, 0, 0, 5, 0x94, 1, 8, 1, 1]

theorem datagram_followsNoNull_stop :
    ∃ event : YAEvent Rat,
      udpReceive stopDatagram = .ok (some event) ∧
        ((processServerEvent none event (requestClient World.started event)
          World.started).1 ≠ .error .nullDereference ↔
            ¬ NullHazard World.started event) := by
  obtain ⟨event, received⟩ :
      ∃ event : YAEvent Rat, udpReceive stopDatagram = .ok (some event) :=
    ⟨_, rfl⟩
  exact ⟨event, received,
    (datagram_followsNoNull_iff World.started received).1⟩

end MouseHero
