import MouseHero.Server.Datagram

/-!
# What strangers can do

A datagram whose `uid` is not that of an active client is handled all the same.
Only the handlers that look the client up ignore it; the others act.
-/

namespace MouseHero

open FaultM

variable {F : Type}

/-! ## Effects on the machine -/

/-- Nothing but the devices changes, and operations are only added. -/
def World.Operates (before after : World F) : Prop :=
  ∃ devices, after = { before with devices } ∧
    before.devices.Extends devices

/-- Nothing but the devices changes, and an operation is performed. -/
def World.Acted (before after : World F) : Prop :=
  ∃ devices, after = { before with devices } ∧ before.devices.Grows devices

theorem World.operates_refl (world : World F) : world.Operates world :=
  ⟨world.devices, rfl, world.devices.extends_refl⟩

theorem World.acted_operates (first middle last : World F)
    (initial : first.Acted middle) (later : middle.Operates last) :
    first.Acted last := by
  obtain ⟨devices, rfl, grows⟩ := initial
  obtain ⟨devices', rfl, longer⟩ := later
  exact ⟨devices', rfl, Devices.grows_extends _ _ _ grows longer⟩

theorem World.operates_trans (first middle last : World F)
    (initial : first.Operates middle) (later : middle.Operates last) :
    first.Operates last := by
  obtain ⟨devices, rfl, longer⟩ := initial
  obtain ⟨devices', rfl, longest⟩ := later
  exact ⟨devices', rfl, Devices.extends_trans _ _ _ longer longest⟩

section Rules

variable {Answer Next : Type}

theorem onDevices_acted {computation : DeviceM Answer} {world : World F}
    (grows : world.devices.Grows (computation world.devices).2) :
    world.Acted (onDevices computation world).2 := by
  obtain ⟨answer, -, returned⟩ := onDevices_apply computation world
  rw [returned]
  exact ⟨_, rfl, grows⟩

private theorem onDevices_operates {computation : DeviceM Answer}
    (adds : Respects Devices.Extends computation) :
    Respects World.Operates (onDevices computation : ServerM F Answer) :=
  respects_within Devices.Extends (fun _ _ longer => ⟨_, rfl, longer⟩) adds

theorem pure_operates (value : Answer) :
    Respects World.Operates (pure value : ServerM F Answer) :=
  respects_pure World.operates_refl value

theorem bind_acted {first : ServerM F Answer} {next : Answer → ServerM F Next}
    {world : World F} (acted : world.Acted (first world).2)
    (nextOperates : ∀ value, Respects World.Operates (next value)) :
    world.Acted ((first >>= next) world).2 :=
  world.acted_operates _ _ acted
    (respects_rest World.Operates World.operates_refl first nextOperates world)

/-- The answer of the devices is dropped and nothing is returned. -/
theorem dropAnswer_acted {computation : DeviceM Answer} {world : World F}
    (response : Next)
    (grows : world.devices.Grows (computation world.devices).2) :
    world.Acted
      ((do let _ ← onDevices computation; return response : ServerM F Next)
        world).2 :=
  bind_acted (onDevices_acted grows) fun _ => pure_operates _

theorem dropAnswer_silent {computation : DeviceM Answer} {world : World F}
    (response : Next)
    (silent : (computation world.devices).2 = world.devices) :
    ((do let _ ← onDevices computation; return response : ServerM F Next)
      world).2 = world := by
  rw [onDevices_bind_const, silent]
  rfl

end Rules

/-! ## Handlers that act -/

section Handlers

variable {world : World F} {event : YAEvent F}

private theorem clickMouse_grows (button : CButton) (direction : CDirection)
    (double : Bool) :
    Respects Devices.Grows (clickMouse button direction double) := by
  apply respects_ite
  · apply bind_grows (inputMouseButton_grows _ _)
    intro err
    exact respects_ite (inputMouseButton_extends _ _) (pure_extends _)
  · exact inputMouseButton_grows _ _

private theorem copySelection_grows : Respects Devices.Grows copySelection := by
  apply bind_grows (inputKeyAction_grows _ _)
  intro held
  apply respects_ite (pure_extends _)
  apply bind_extends (operate_extends _ _)
  intro selected
  apply respects_ite
  · exact bind_extends (inputKeyAction_extends _ _) fun _ => pure_extends _
  apply bind_extends (operate_extends _ _)
  intro copied
  apply respects_ite
  · exact bind_extends (inputKeyAction_extends _ _) fun _ => pure_extends _
  apply bind_extends (inputKeyAction_extends _ _)
  intro released
  apply respects_ite (pure_extends _)
  apply bind_extends (operate_extends _ _)
  intro deselected
  exact respects_ite (pure_extends _) (operate_extends _ _)

theorem handleInputGet_acted (bev : Option BevId) :
    world.Acted (handleInputGet bev event world).2 := by
  apply bind_acted (onDevices_acted (copySelection_grows _))
  intro text
  cases text <;> exact pure_operates _

theorem handlePower_acted (script command : String) (bev : Option BevId) :
    world.Acted (handlePower script command bev event world).2 := by
  apply bind_acted (onDevices_acted (operate_grows _ _ _))
  intro ret
  apply respects_ite _ (pure_operates _)
  exact respects_bind World.operates_trans
    (onDevices_operates (operate_extends _ _)) fun _ => pure_operates _

end Handlers

/-! ## Events that act -/

/-- A keyboard request types something: a character that the layout has or that
can be pasted, or a known key. -/
def YAKeyboardEventRequest.Types (devices : Devices)
    (request : YAKeyboardEventRequest) : Prop :=
  (keyDirection request.op).isSome ∧
    if isChar request.code then
      (mapCharToEvdevLinux devices.platform request.code).isOk ∨
        devices.clipboardConfig.enabled
    else (ckeyFromProtocol request.code).isSome

/-- Handling the event operates the machine, whoever has sent it. -/
def YAEvent.Acts (devices : Devices) (event : YAEvent F) : Prop :=
  match YAEventType.ofCode? event.header.type, event.param with
  | some .mouseClick, some (.common request) =>
      (clickButton request.lparam).isSome ∧
        (clickDirection request.rparam).isSome
  | some .mouseWheel, some (.common request) =>
      0 < request.lparam.toInt ∧
        (mapScrollDirToBackend request.rparam.toInt).isSome
  | some .keyboard, some (.keyboard request) => request.Types devices
  | some .textInput, some (.textInput request) =>
      cString (request.text.getD []) ≠ [] ∧ devices.clipboardConfig.enabled
  | some .textGet, _ => True
  | some .control, some (.common request) =>
      request.lparam = CONTROL_OP_SHUTDOWN ∨
        request.lparam = CONTROL_OP_RESTART ∨
        request.lparam = CONTROL_OP_SLEEP
  | _, _ => False

section Strangers

variable {world : World F} {event : YAEvent F}

/-- The handler acts if the event does, and otherwise does nothing at all. -/
def ActsExactly (world : World F) (event : YAEvent F) (after : World F) :
    Prop :=
  (event.Acts world.devices → world.Acted after) ∧
    (¬ event.Acts world.devices → after = world)

theorem handleMouseClick_acts (bev : Option BevId)
    (typed : event.WellTyped)
    (known : YAEventType.ofCode? event.header.type = some .mouseClick) :
    ActsExactly world event (handleMouseClick bev event world).2 := by
  rcases typed.common known rfl with absent | ⟨request, carried, length⟩
  · rw [handleMouseClick, bind_of_ok (commonRequest_of_none absent)]
    simp [ActsExactly, YAEvent.Acts, known, absent]
  · rw [handleMouseClick, bind_of_ok (commonRequest_of_some carried length)]
    simp only [ActsExactly, YAEvent.Acts, known, carried]
    cases isButton : clickButton request.lparam with
    | none => simp
    | some button =>
        cases isDirection : clickDirection request.rparam with
        | none => simp
        | some direction =>
            have acted :=
              dropAnswer_acted (none : Option (YAEvent F))
                (clickMouse_grows button direction (request.rparam = 3)
                  world.devices)
            simpa using acted

theorem handleMouseScroll_acts (bev : Option BevId)
    (typed : event.WellTyped)
    (known : YAEventType.ofCode? event.header.type = some .mouseWheel) :
    ActsExactly world event (handleMouseScroll bev event world).2 := by
  rcases typed.common known rfl with absent | ⟨request, carried, length⟩
  · rw [handleMouseScroll, bind_of_ok (commonRequest_of_none absent)]
    simp [ActsExactly, YAEvent.Acts, known, absent]
  · rw [handleMouseScroll, bind_of_ok (commonRequest_of_some carried length)]
    simp only [ActsExactly, YAEvent.Acts, known, carried]
    by_cases positive : 0 < request.lparam.toInt
    · rw [if_neg (by omega)]
      have steps : 0 < min request.lparam.toInt 1000 := by omega
      cases isDirection : mapScrollDirToBackend request.rparam.toInt with
      | none =>
          rw [inputMouseScroll_refused _ isDirection]
          have silent :=
            dropAnswer_silent (none : Option (YAEvent F))
              (congrArg Prod.snd
                (pure_apply YAError.invalidInput world.devices))
          simpa using silent
      | some direction =>
          have acted :=
            dropAnswer_acted (none : Option (YAEvent F))
              (inputMouseScroll_grows steps isDirection world.devices)
          simpa [positive] using acted
    · rw [if_pos (by omega)]
      simp [positive]

private theorem toInt_lt_of_isChar {code : Int32} (character : isChar code = true) :
    code.toInt < 0xE000 := by
  simp only [isChar, Bool.or_eq_true, Bool.and_eq_true, decide_eq_true_eq]
    at character
  omega

theorem handleKeyboard_acts (bev : Option BevId)
    (typed : event.WellTyped)
    (known : YAEventType.ofCode? event.header.type = some .keyboard) :
    ActsExactly world event (handleKeyboard bev event world).2 := by
  rcases typed.keyboard known with absent | ⟨request, carried, length⟩
  · simp [handleKeyboard, ActsExactly, YAEvent.Acts, known, absent]
  · simp only [handleKeyboard, ActsExactly, YAEvent.Acts, known, carried,
      length, ne_eq, not_true_eq_false, if_false,
      YAKeyboardEventRequest.Types]
    cases isDirection : keyDirection request.op with
    | none => simp
    | some direction =>
        by_cases character : isChar request.code
        · simp only [character, if_true, Option.isSome_some, true_and]
          constructor
          · intro possible
            have small := toInt_lt_of_isChar character
            exact dropAnswer_acted _
              (inputCharLinuxUnified_grows _ _ (by omega) possible)
          · intro impossible
            rw [not_or] at impossible
            exact dropAnswer_silent _
              (inputCharLinuxUnified_silent _ _ (by simpa using impossible.1)
                (by simpa using impossible.2))
        · simp only [character, Option.isSome_some, true_and]
          cases isKey : ckeyFromProtocol request.code with
          | none => simp
          | some key =>
              have acted :=
                dropAnswer_acted (none : Option (YAEvent F))
                  (inputFunctionKeyLinux_grows key request.mods direction
                    world.devices)
              exact ⟨fun _ => acted, fun never => absurd rfl never⟩

theorem handleInputText_acts (bev : Option BevId)
    (typed : event.WellTyped)
    (known : YAEventType.ofCode? event.header.type = some .textInput) :
    ActsExactly world event (handleInputText bev event world).2 := by
  rcases typed.textInput known with absent | ⟨text, carried⟩
  · simp [handleInputText, ActsExactly, YAEvent.Acts, known, absent]
  · simp only [handleInputText, ActsExactly, YAEvent.Acts, known, carried,
      Option.getD_some]
    constructor
    · intro pastes
      exact dropAnswer_acted _ (clipboardPasteText_grows pastes.1 pastes.2)
    · intro refused
      refine dropAnswer_silent _ (clipboardPasteText_silent ?_)
      by_cases empty : cString text = []
      · exact Or.inl fun bytes same => by cases same; exact empty
      · exact Or.inr (by simpa [empty] using refused)

theorem handleControl_acts (bev : Option BevId)
    (typed : event.WellTyped)
    (known : YAEventType.ofCode? event.header.type = some .control) :
    ActsExactly world event (handleControl bev event world).2 := by
  rcases typed.common known rfl with absent | ⟨request, carried, -⟩
  · simp [handleControl, ActsExactly, YAEvent.Acts, known, absent]
  · simp only [handleControl, ActsExactly, YAEvent.Acts, known, carried]
    split
    · exact ⟨fun _ => handlePower_acted _ _ _, fun none => by simp_all⟩
    split
    · exact ⟨fun _ => handlePower_acted _ _ _, fun none => by simp_all⟩
    split
    · exact ⟨fun _ => handlePower_acted _ _ _, fun none => by simp_all⟩
    · exact ⟨fun acts => by simp_all, fun _ => rfl⟩

/-- No active client has the `uid`. -/
def World.Stranger (world : World F) (uid : UInt32) : Prop :=
  ∀ client, world.manager.HasActive client → client.uid ≠ uid

theorem World.Stranger.notFound {uid : UInt32}
    (stranger : world.Stranger uid) :
    yaClientFindByUid world.manager uid = none := by
  cases found : yaClientFindByUid world.manager uid with
  | none => rfl
  | some client =>
      have active := YaClientManager.hasActive_of_findByUid found
      exact absurd active.2 (stranger client active.1)

theorem handleDiscover_unchanged (bev : Option BevId)
    (typed : event.WellTyped)
    (known : YAEventType.ofCode? event.header.type = some .discover) :
    (handleDiscover bev event world).2 = world := by
  rcases typed.discover known with absent | ⟨request, carried⟩
  · simp only [handleDiscover, absent]
    rfl
  · simp only [handleDiscover, carried]
    split <;> rfl

variable [CFloat F]

/-- The three handlers that look the client up ignore strangers. -/
theorem handleMouseMove_stranger (bev : Option BevId)
    (typed : event.WellTyped)
    (known : YAEventType.ofCode? event.header.type = some .mouseMove)
    (stranger : world.Stranger event.header.uid) :
    handleMouseMove bev event world = (.ok none, world) := by
  rcases typed.common known rfl with absent | ⟨request, carried, length⟩
  · exact bind_of_ok (commonRequest_of_none absent)
  · rw [handleMouseMove, bind_of_ok (commonRequest_of_some carried length)]
    simp only
    rw [bind_of_ok (getState_apply world), stranger.notFound]
    rfl

theorem handleMouseStop_stranger (bev : Option BevId)
    (stranger : world.Stranger event.header.uid) :
    handleMouseStop bev event world = (.ok none, world) := by
  rw [handleMouseStop, bind_of_ok (getState_apply world), stranger.notFound]
  rfl

theorem handleSessionOption_stranger (bev : Option BevId)
    (stranger : world.Stranger event.header.uid) :
    handleSessionOption bev event world = (.ok none, world) := by
  cases carried : event.param with
  | none =>
      simp only [handleSessionOption, carried]
      rfl
  | some param =>
      simp only [handleSessionOption, carried]
      rw [bind_of_ok (getState_apply world), stranger.notFound]
      rfl

theorem handleAuthorize_unchanged (typed : event.WellTyped)
    (known : YAEventType.ofCode? event.header.type = some .authorize) :
    (handleAuthorize none event world).2 = world := by
  rcases typed.authorize known with absent | ⟨request, carried⟩
  · simp only [handleAuthorize, absent]
    rfl
  · cases authorized : authorize request with
    | true => rw [handleAuthorize_noBev carried authorized]
    | false => rw [handleAuthorize_refused carried authorized]

private theorem eventHandler_stranger {type : YAEventType}
    (typed : event.WellTyped)
    (known : YAEventType.ofCode? event.header.type = some type)
    (stranger : world.Stranger event.header.uid) :
    ActsExactly world event (eventHandler type none event world).2 := by
  have harmless (never : ¬ event.Acts world.devices)
      (ignored : (eventHandler type none event world).2 = world) :
      ActsExactly world event (eventHandler type none event world).2 :=
    ⟨fun acts => absurd acts never, fun _ => ignored⟩
  cases type with
  | mouseClick => exact handleMouseClick_acts none typed known
  | mouseWheel => exact handleMouseScroll_acts none typed known
  | keyboard => exact handleKeyboard_acts none typed known
  | textInput => exact handleInputText_acts none typed known
  | control => exact handleControl_acts none typed known
  | textGet =>
      refine ⟨fun _ => handleInputGet_acted none, fun never => ?_⟩
      simp [YAEvent.Acts, known] at never
  | mouseMove =>
      exact harmless (by simp [YAEvent.Acts, known])
        (congrArg Prod.snd
          (handleMouseMove_stranger none typed known stranger))
  | mouseStop =>
      exact harmless (by simp [YAEvent.Acts, known])
        (congrArg Prod.snd (handleMouseStop_stranger none stranger))
  | sessionOption =>
      exact harmless (by simp [YAEvent.Acts, known])
        (congrArg Prod.snd (handleSessionOption_stranger none stranger))
  | heartbeat => exact harmless (by simp [YAEvent.Acts, known]) rfl
  | discover =>
      exact harmless (by simp [YAEvent.Acts, known])
        (handleDiscover_unchanged none typed known)
  | authorize =>
      exact harmless (by simp [YAEvent.Acts, known])
        (handleAuthorize_unchanged typed known)

end Strangers

/-! ## The main result -/

variable [CFloat F]

/-- Whether or not a response can be sent, nothing else changes. -/
theorem sendResponse_keeps (response : Option (YAEvent F)) (world : World F) :
    (sendResponse response world).2.devices = world.devices ∧
      (sendResponse response world).2.manager = world.manager := by
  cases response with
  | none => exact ⟨rfl, rfl⟩
  | some response =>
      simp only [sendResponse]
      cases yaSerializeEvent response with
      | error reason => exact ⟨rfl, rfl⟩
      | ok serialized =>
          cases out : serialized.out with
          | none => simp [out]
          | some rsp => simp [out]

/-- Processing a datagram causes no input or power effect and changes no client
record. -/
def NoEffect (datagram : List UInt8) (world : World F) : Prop :=
  (udpReadcb datagram world).2.devices.trace = world.devices.trace ∧
    (udpReadcb datagram world).2.manager = world.manager

private theorem udpReadcb_machine {datagram : List UInt8} {event : YAEvent F}
    (world : World F) (received : udpReceive datagram = .ok (some event)) :
    (udpReadcb datagram world).2.devices =
        (processServerEvent none event (requestClient world event)
          world).2.devices ∧
      (udpReadcb datagram world).2.manager =
        (processServerEvent none event (requestClient world event)
          world).2.manager := by
  have kept :=
    respects_rest
      (fun before after : World F =>
        after.devices = before.devices ∧ after.manager = before.manager)
      (fun _ => ⟨rfl, rfl⟩)
      (processServerEvent none event (requestClient world event))
      sendResponse_keeps world
  rw [udpReadcb, received]
  exact kept

/-- A stranger's datagram has no effect if and only if its event does not
act. -/
theorem stranger_noEffect_iff {datagram : List UInt8} {event : YAEvent F}
    {world : World F} (received : udpReceive datagram = .ok (some event))
    (stranger : world.Stranger event.header.uid) :
    NoEffect datagram world ↔ ¬ event.Acts world.devices := by
  obtain ⟨devices, manager⟩ := udpReadcb_machine world received
  rw [NoEffect, devices, manager]
  have nobody : requestClient world event = none := by
    rw [requestClient, stranger.notFound]
    rfl
  rw [nobody]
  cases known : YAEventType.ofCode? event.header.type with
  | none =>
      rw [processServerEvent_unknown known]
      simp [World.logged, YAEvent.Acts, known]
  | some type =>
      let call : ServerCall F :=
        { bev := none, event, client := none, executed := true }
      have outcome :
          processServerEvent none event none world =
            eventHandler type none event (world.logged call) :=
        processServerEvent_executed known rfl
      rw [outcome]
      have loggedStranger : (world.logged call).Stranger event.header.uid :=
        stranger
      obtain ⟨acts, ignores⟩ :=
        eventHandler_stranger (udpReceive_wellTyped received) known
          loggedStranger
      constructor
      · intro ⟨silent, _⟩ acting
        obtain ⟨devices, after, grows⟩ := acts acting
        rw [after] at silent
        exact grows.trace_ne silent
      · intro never
        rw [ignores never]
        exact ⟨rfl, rfl⟩

theorem World.started_stranger (uid : UInt32) :
    World.started.Stranger uid := by
  intro client ⟨member, _⟩
  rw [World.started_clients] at member
  cases member

/-- The request to shut down, from anyone. -/
def shutdownDatagram : List UInt8 :=
  [0, 0, 0, 12, 0, 0, 0, 5, 0x94, 1, 9, 1, 1, 0x92, 1, 0]

/-- Without any client, the datagram runs the power script. -/
theorem shutdownDatagram_acts :
    ∃ event : YAEvent Rat,
      udpReceive shutdownDatagram = .ok (some event) ∧
        World.started.Stranger event.header.uid ∧
        (udpReadcb shutdownDatagram World.started).2.devices.trace =
          [.runPowerScript "poweroff"] ∧
        ¬ NoEffect shutdownDatagram World.started := by
  have trace :
      (udpReadcb shutdownDatagram World.started).2.devices.trace =
        [.runPowerScript "poweroff"] := by
    rfl
  refine ⟨_, rfl, World.started_stranger _, trace, ?_⟩
  rintro ⟨silent, -⟩
  rw [trace] at silent
  cases silent

/-- A datagram that only asks to stop the mouse. -/
theorem stranger_noEffect_stop :
    ∃ event : YAEvent Rat,
      udpReceive stopDatagram = .ok (some event) ∧
        (NoEffect stopDatagram World.started ↔
          ¬ event.Acts World.started.devices) := by
  obtain ⟨event, received⟩ :
      ∃ event : YAEvent Rat, udpReceive stopDatagram = .ok (some event) :=
    ⟨_, rfl⟩
  exact ⟨event, received,
    stranger_noEffect_iff received (World.started_stranger _)⟩

end MouseHero
