import MouseHero.Client.View
import MouseHero.Server.Outcomes

/-!
# What handlers leave alone

Handlers act on the devices, the throttle, and the mouse filter of the client
that the event names.  Only `handle_authorize` can do more: it writes to the
client with the descriptor of the connection, and frees the bufferevent when
there is none.
-/

namespace MouseHero

open FaultM YaClientManager

variable {F : Type} {Answer Next : Type}

/-! ## The relations -/

/-- Up to the reduction the clients stay the same, and so do the bufferevents,
the counters, the calls and what has been sent. -/
structure World.Keeps (reduce : YaClient F → YaClient F)
    (before after : World F) : Prop where
  clients : before.manager.view reduce = after.manager.view reduce
  bevs : before.bevs = after.bevs
  stats : before.stats = after.stats
  calls : before.calls = after.calls
  sent : before.sent = after.sent

/-- A parameter is missing, or of another type than the handler reads. -/
def ParamFault (reason : Fault) : Prop :=
  reason = .nullDereference ∨ reason = .paramType

/-- The computation keeps the reduced clients, and stops only at a
parameter. -/
abbrev Framed (reduce : YaClient F → YaClient F)
    (computation : ServerM F Answer) (world : World F) : Prop :=
  ConfinedAt (World.Keeps reduce) ParamFault computation world

/-- The reduction forgets the mouse filter of the client at an address. -/
def ForgetsFilter (reduce : YaClient F → YaClient F)
    (client : ClientId) : Prop :=
  ∀ entry mouseFilter, entry.addr = client →
    reduce { entry with mouseFilter } = reduce entry

/-- The reduction forgets the mouse filter of the client that the event
names. -/
def ForgetsTarget (reduce : YaClient F → YaClient F) (world : World F)
    (event : YAEvent F) : Prop :=
  ∀ client, yaClientFindByUid world.manager event.header.uid = some client →
    ForgetsFilter reduce client.addr

variable {reduce : YaClient F → YaClient F} {world : World F}

theorem World.keeps_refl (world : World F) : world.Keeps reduce world :=
  ⟨rfl, rfl, rfl, rfl, rfl⟩

theorem World.keeps_trans (first middle last : World F)
    (initial : first.Keeps reduce middle) (later : middle.Keeps reduce last) :
    first.Keeps reduce last :=
  ⟨initial.clients.trans later.clients, initial.bevs.trans later.bevs,
    initial.stats.trans later.stats, initial.calls.trans later.calls,
    initial.sent.trans later.sent⟩

theorem pure_framed (value : Answer) :
    Framed reduce (pure value) world :=
  confinedAt_pure World.keeps_refl value

theorem nullDereference_framed :
    Framed reduce (fault .nullDereference : ServerM F Answer) world :=
  confinedAt_fault World.keeps_refl (Or.inl rfl)

theorem paramType_framed :
    Framed reduce (fault .paramType : ServerM F Answer) world :=
  confinedAt_fault World.keeps_refl (Or.inr rfl)

/-- What follows starts in a state that the first computation has reached. -/
theorem bind_framed {first : ServerM F Answer} {next : Answer → ServerM F Next}
    (firstFramed : Framed reduce first world)
    (nextFramed : ∀ value reached, first world = (.ok value, reached) →
      Framed reduce (next value) reached) :
    Framed reduce (first >>= next) world :=
  confinedAt_bind World.keeps_trans firstFramed fun value reached returned _ =>
    nextFramed value reached returned

theorem onDevices_framed (computation : DeviceM Answer) :
    Framed reduce (onDevices computation) world :=
  confinedAt_within _ _ _ fun _ => ⟨rfl, rfl, rfl, rfl, rfl⟩

theorem dropAnswer_framed (computation : DeviceM Answer) (response : Next) :
    Framed reduce (do let _ ← onDevices computation; return response) world :=
  bind_framed (onDevices_framed computation) fun _ _ _ => pure_framed response

theorem setThrottle_framed (throttle : YAMouseThrottleState) :
    Framed reduce (setThrottle throttle) world :=
  confinedAt_modifyState ⟨rfl, rfl, rfl, rfl, rfl⟩

private theorem writeClient_framed (client : ClientId)
    {change : YaClient F → YaClient F}
    (forgotten : ∀ entry ∈ world.manager.clients, entry.addr = client →
      reduce (change entry) = reduce entry) :
    Framed reduce (writeClient client change) world :=
  confinedAt_modifyState ⟨(view_write forgotten).symm, rfl, rfl, rfl, rfl⟩

theorem writeFilter_framed {client : ClientId}
    (forgets : ForgetsFilter reduce client)
    (change : YaClient F → Option (YaMouseFilter F)) :
    Framed reduce
      (writeClient client fun entry =>
        { entry with mouseFilter := change entry }) world :=
  writeClient_framed client fun entry _ isClient =>
    forgets entry (change entry) isClient

/-- The records of the clients, the bufferevents, the calls and what has been
sent stay the same. -/
structure World.Quiet (before after : World F) : Prop where
  records :
    before.manager.view YaClient.record = after.manager.view YaClient.record
  bevs : before.bevs = after.bevs
  calls : before.calls = after.calls
  sent : before.sent = after.sent

theorem World.quiet_refl (world : World F) : world.Quiet world :=
  ⟨rfl, rfl, rfl, rfl⟩

theorem World.Keeps.quiet {before after : World F}
    (keeps : before.Keeps YaClient.record after) : before.Quiet after :=
  ⟨keeps.clients, keeps.bevs, keeps.calls, keeps.sent⟩

/-- The records of the clients and the calls stay the same. -/
structure World.KeepsRecords (before after : World F) : Prop where
  records :
    before.manager.view YaClient.record = after.manager.view YaClient.record
  calls : before.calls = after.calls

theorem World.Quiet.keepsRecords {before after : World F}
    (quiet : before.Quiet after) : before.KeepsRecords after :=
  ⟨quiet.records, quiet.calls⟩

/-! ## The handlers -/

theorem commonRequest_framed (event : YAEvent F) :
    Framed reduce (commonRequest event) world := by
  unfold commonRequest
  cases event.param with
  | none => exact pure_framed _
  | some param =>
      apply confinedAt_ite (pure_framed _)
      cases param
      case common request => exact pure_framed _
      all_goals exact paramType_framed

theorem commonRequest_returns {event : YAEvent F} {reached : World F}
    {request : Option YACommonEventRequest}
    (returned : commonRequest event world = (.ok request, reached)) :
    reached = world := by
  unfold commonRequest at returned
  cases carried : event.param with
  | none =>
      rw [carried] at returned
      cases returned
      rfl
  | some param =>
      rw [carried] at returned
      by_cases wrong : event.paramLen ≠ 8
      · simp only [if_pos wrong] at returned
        cases returned
        rfl
      · simp only [if_neg wrong] at returned
        cases param <;> cases returned
        rfl

theorem handleMouseClick_framed (bev : Option BevId) (event : YAEvent F) :
    Framed reduce (handleMouseClick bev event) world := by
  apply bind_framed (commonRequest_framed event)
  intro request reached _
  cases request with
  | none => exact pure_framed _
  | some request =>
      simp only
      split
      · exact dropAnswer_framed _ _
      · exact pure_framed _

theorem handleMouseScroll_framed (bev : Option BevId) (event : YAEvent F) :
    Framed reduce (handleMouseScroll bev event) world := by
  apply bind_framed (commonRequest_framed event)
  intro request reached _
  cases request with
  | none => exact pure_framed _
  | some request =>
      exact confinedAt_ite (pure_framed _) (dropAnswer_framed _ _)

theorem handleKeyboard_framed (bev : Option BevId) (event : YAEvent F) :
    Framed reduce (handleKeyboard bev event) world := by
  unfold handleKeyboard
  cases event.param with
  | none => exact pure_framed _
  | some param =>
      apply confinedAt_ite (pure_framed _)
      cases param
      case keyboard request =>
        simp only
        cases keyDirection request.op with
        | none => exact pure_framed _
        | some direction =>
            apply confinedAt_ite (dropAnswer_framed _ _)
            cases ckeyFromProtocol request.code with
            | none => exact pure_framed _
            | some key => exact dropAnswer_framed _ _
      all_goals exact paramType_framed

theorem handleInputText_framed (bev : Option BevId) (event : YAEvent F) :
    Framed reduce (handleInputText bev event) world := by
  unfold handleInputText
  cases event.param with
  | none => exact nullDereference_framed
  | some param =>
      cases param
      case textInput request => exact dropAnswer_framed _ _
      all_goals exact paramType_framed

theorem handleInputGet_framed (bev : Option BevId) (event : YAEvent F) :
    Framed reduce (handleInputGet bev event) world := by
  apply bind_framed (onDevices_framed _)
  intro text reached _
  cases text <;> exact pure_framed _

theorem handlePower_framed (script command : String) (bev : Option BevId)
    (event : YAEvent F) :
    Framed reduce (handlePower script command bev event) world := by
  apply bind_framed (onDevices_framed _)
  intro ret reached _
  exact confinedAt_ite (dropAnswer_framed _ _) (pure_framed _)

theorem handleControl_framed (bev : Option BevId) (event : YAEvent F) :
    Framed reduce (handleControl bev event) world := by
  unfold handleControl
  cases event.param with
  | none => exact pure_framed _
  | some param =>
      cases param
      case common request =>
        exact confinedAt_ite (handlePower_framed _ _ _ _) <|
          confinedAt_ite (handlePower_framed _ _ _ _) <|
          confinedAt_ite (handlePower_framed _ _ _ _) (pure_framed _)
      all_goals exact paramType_framed

theorem handleDiscover_framed (bev : Option BevId) (event : YAEvent F) :
    Framed reduce (handleDiscover bev event) world := by
  unfold handleDiscover
  cases event.param with
  | none => exact nullDereference_framed
  | some param =>
      cases param
      case discoverRequest request =>
        apply confinedAt_ite (pure_framed _)
        exact confinedAt_getState (pure_framed _)
      all_goals exact paramType_framed

private theorem authorizedClient_record (bev : BevId)
    (request : YAAuthorizeEventRequest) (entry : YaClient F) :
    (authorizedClient bev request entry).record = entry.record :=
  rfl

variable [CFloat F]

theorem handleSessionOption_framed (bev : Option BevId) {event : YAEvent F}
    (forgets : ForgetsTarget reduce world event) :
    Framed reduce (handleSessionOption bev event) world := by
  unfold handleSessionOption
  cases event.param with
  | none => exact pure_framed _
  | some param =>
      apply confinedAt_getState
      cases found : yaClientFindByUid world.manager event.header.uid with
      | none => exact pure_framed _
      | some client =>
          cases param
          case sessionOption request =>
            exact bind_framed (writeFilter_framed (forgets client found) _)
              fun _ _ _ => pure_framed _
          all_goals exact paramType_framed

section Client

variable {client : YaClient F} (forgets : ForgetsFilter reduce client.addr)

include forgets

private theorem moveFiltered_framed (outDx outDy : Int) :
    Framed reduce (moveFiltered client outDx outDy) world := by
  unfold moveFiltered
  cases client.mouseFilter with
  | none => exact onDevices_framed _
  | some filter =>
      exact bind_framed (writeFilter_framed forgets _)
        fun _ _ _ => onDevices_framed _

private theorem moveSubpixels_framed (fdx fdy : F) :
    Framed reduce (moveSubpixels client fdx fdy) world := by
  unfold moveSubpixels
  cases client.mouseFilter with
  | none => exact pure_framed _
  | some filter =>
      exact bind_framed (writeFilter_framed forgets _)
        fun _ _ _ => onDevices_framed _

theorem emit_framed
    (step : World F → YAMouseThrottleState × Option (Int × Int)) :
    Framed reduce (do
      let world ← getState
      setThrottle (step world).1
      match (step world).2 with
      | none => return ()
      | some (outDx, outDy) => moveFiltered client outDx outDy) world := by
  apply confinedAt_getState
  apply bind_framed (setThrottle_framed _)
  intro _ reached _
  cases (step world).2 with
  | none => exact pure_framed _
  | some emitted => exact moveFiltered_framed forgets _ _

private theorem moveThrottled_framed (fdx fdy : F) :
    Framed reduce (moveThrottled client fdx fdy) world :=
  emit_framed forgets fun world =>
    yaMouseThrottleCollect F world.throttle (roundPixels fdx)
      (roundPixels fdy) false world.clock

private theorem resetFilter_framed : Framed reduce (resetFilter client) world :=
  writeFilter_framed forgets _

end Client

theorem handleMouseMove_framed (bev : Option BevId) {event : YAEvent F}
    (forgets : ForgetsTarget reduce world event) :
    Framed reduce (handleMouseMove bev event) world := by
  apply bind_framed (commonRequest_framed event)
  intro request reached returned
  cases commonRequest_returns returned
  cases request with
  | none => exact pure_framed _
  | some request =>
      apply confinedAt_getState
      cases found : yaClientFindByUid world.manager event.header.uid with
      | none => exact pure_framed _
      | some client =>
          apply confinedAt_ite
          · exact bind_framed
              (moveSubpixels_framed (forgets client found) _ _)
              fun _ _ _ => pure_framed _
          · exact bind_framed
              (moveThrottled_framed (forgets client found) _ _)
              fun _ _ _ => pure_framed _

theorem handleMouseStop_framed (bev : Option BevId) {event : YAEvent F}
    (forgets : ForgetsTarget reduce world event) :
    Framed reduce (handleMouseStop bev event) world := by
  apply confinedAt_getState
  cases found : yaClientFindByUid world.manager event.header.uid with
  | none => exact pure_framed _
  | some client =>
      have forgetsClient := forgets client found
      apply confinedAt_ite
      · exact bind_framed (resetFilter_framed forgetsClient)
          fun _ _ _ => pure_framed _
      · apply bind_framed
          (emit_framed forgetsClient fun world =>
            yaMouseThrottleFlush world.throttle world.clock)
        intro _ flushed _
        apply bind_framed (resetFilter_framed forgetsClient)
        intro _ rested _
        apply confinedAt_getState
        exact bind_framed (setThrottle_framed _) fun _ _ _ => pure_framed _

theorem eventHandler_framed {type : YAEventType} (other : type ≠ .authorize)
    (bev : Option BevId) {event : YAEvent F}
    (forgets : ForgetsTarget reduce world event) :
    Framed reduce (eventHandler type bev event) world := by
  cases type with
  | authorize => exact absurd rfl other
  | mouseMove => exact handleMouseMove_framed bev forgets
  | mouseClick => exact handleMouseClick_framed bev event
  | mouseWheel => exact handleMouseScroll_framed bev event
  | keyboard => exact handleKeyboard_framed bev event
  | textInput => exact handleInputText_framed bev event
  | textGet => exact handleInputGet_framed bev event
  | discover => exact handleDiscover_framed bev event
  | mouseStop => exact handleMouseStop_framed bev forgets
  | control => exact handleControl_framed bev event
  | heartbeat => exact pure_framed _
  | sessionOption => exact handleSessionOption_framed bev forgets

theorem eventHandler_quiet {type : YAEventType} (other : type ≠ .authorize)
    (bev : Option BevId) (event : YAEvent F) (world : World F) :
    world.Quiet (eventHandler type bev event world).2 :=
  (eventHandler_framed other bev fun _ _ _ _ _ => rfl).1.quiet

/-! ## Authorization -/

/-- An active client has the descriptor of the bufferevent. -/
def World.Bound (world : World F) (bev : Option BevId) : Prop :=
  ∀ address contents, bev = some address →
    world.bevs address = some contents →
      (yaClientFindByFd world.manager contents.fd).isSome

/-- Authorization keeps the records of the clients and the calls, and for a
connection that has a client also the bufferevents. -/
theorem handleAuthorize_keeps (world : World F) (bev : Option BevId)
    (event : YAEvent F) :
    world.KeepsRecords (handleAuthorize bev event world).2 ∧
      (world.Bound bev → world.Quiet (handleAuthorize bev event world).2) := by
  have unchanged : world.KeepsRecords world ∧ (world.Bound bev → world.Quiet world) :=
    ⟨world.quiet_refl.keepsRecords, fun _ => world.quiet_refl⟩
  cases carried : event.param with
  | none =>
      simp only [handleAuthorize, carried]
      exact unchanged
  | some param =>
      cases param
      case authorizeRequest request =>
        cases authorized : authorize request with
        | false =>
            rw [handleAuthorize_refused carried authorized]
            exact unchanged
        | true =>
            cases bev with
            | none =>
                rw [handleAuthorize_noBev carried authorized]
                exact unchanged
            | some address =>
                cases stored : world.bevs address with
                | none =>
                    rw [handleAuthorize_freedBev carried authorized stored]
                    exact unchanged
                | some contents =>
                    cases known :
                        yaClientFindByFd world.manager contents.fd with
                    | none =>
                        rw [handleAuthorize_unbound carried authorized stored
                          known]
                        refine ⟨⟨rfl, rfl⟩, fun bound => ?_⟩
                        have found := bound address contents rfl stored
                        rw [known] at found
                        cases found
                    | some client =>
                        rw [handleAuthorize_granted carried authorized stored
                          known]
                        have records :
                            (world.manager.write client.addr
                                (authorizedClient address request)).view
                              YaClient.record =
                            world.manager.view YaClient.record :=
                          view_write fun entry _ _ =>
                            authorizedClient_record address request entry
                        exact ⟨⟨records.symm, rfl⟩,
                          fun _ => ⟨records.symm, rfl, rfl, rfl⟩⟩
      all_goals
        simp only [handleAuthorize, carried]
        exact unchanged

/-! ## All handlers -/

/-- Whatever its type, an event changes no record when it is handled. -/
theorem eventHandler_keepsRecords (type : YAEventType) (world : World F)
    (bev : Option BevId) (event : YAEvent F) :
    world.KeepsRecords (eventHandler type bev event world).2 := by
  by_cases authorization : type = .authorize
  · rw [authorization]
    exact (handleAuthorize_keeps world bev event).1
  · exact (eventHandler_quiet authorization bev event world).keepsRecords

/-- On a connection that has a client the bufferevents stay, too. -/
theorem eventHandler_quiet_of_bound (type : YAEventType) {world : World F}
    {bev : Option BevId} (event : YAEvent F) (bound : world.Bound bev) :
    world.Quiet (eventHandler type bev event world).2 := by
  by_cases authorization : type = .authorize
  · rw [authorization]
    exact (handleAuthorize_keeps world bev event).2 bound
  · exact eventHandler_quiet authorization bev event world

end MouseHero
