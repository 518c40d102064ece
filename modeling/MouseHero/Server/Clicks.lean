import MouseHero.Input.Releases
import MouseHero.Library.Runs
import MouseHero.Server.Outcomes

/-!
# Clicks

Requests that press a button or a key and release it again, handled with a
uinput device that can refuse any write.
-/

namespace MouseHero

open FaultM

variable {F : Type}

/-! ## Requests -/

/-- The parameters of a click. -/
inductive ClickRequest where
  | mouse (request : YACommonEventRequest)
  | keyboard (request : YAKeyboardEventRequest)
  deriving DecidableEq, Repr

/-- A click that is delivered to its handler. -/
structure ClickDelivery where
  bev : Option BevId
  header : YAEventHeader
  request : ClickRequest
  deriving DecidableEq, Repr

/-- Click or double click of a button, click of a key. -/
def ClickRequest.isClick : ClickRequest → Bool
  | mouse request => request.rparam = 2 || request.rparam = 3
  | keyboard request => request.op = 2

/-- The handler with its event. -/
def ClickDelivery.handle (delivery : ClickDelivery) :
    ServerM F (Option (YAEvent F)) :=
  match delivery.request with
  | .mouse request =>
      handleMouseClick delivery.bev {
        header := delivery.header
        param := some (.common request)
        paramLen := 8 }
  | .keyboard request =>
      handleKeyboard delivery.bev {
        header := delivery.header
        param := some (.keyboard request)
        paramLen := 12 }

/-- What a click does to the devices. -/
def ClickRequest.act : ClickRequest → DeviceM Unit
  | mouse request =>
      match clickButton request.lparam with
      | some button => do
          let _ ← clickMouse button .click (request.rparam = 3)
      | none => return ()
  | keyboard request =>
      if isChar request.code then do
        let _ ← keyboardChar request.code request.mods .click
      else
        match ckeyFromProtocol request.code with
        | some key => do
            let _ ← keyboardFunctionKey key request.mods .click
        | none => return ()

private theorem discard_snd {Answer : Type} (computation : DeviceM Answer)
    (devices : Devices) :
    ((computation >>= fun _ => (pure () : DeviceM Unit)) devices).2 =
      (computation devices).2 := by
  rw [bind_apply]
  cases computation devices with
  | mk result reached => cases result <;> rfl

/-- The handler of a click returns, and the click is all it does. -/
theorem ClickDelivery.handle_apply {delivery : ClickDelivery}
    (isClick : delivery.request.isClick = true) (world : World F) :
    delivery.handle world =
      (.ok none, { world with
        devices := (delivery.request.act world.devices).2 }) := by
  obtain ⟨bev, header, request⟩ := delivery
  cases request with
  | mouse request =>
      have direction : clickDirection request.rparam = some .click := by
        rcases Bool.or_eq_true_iff.mp isClick with single | double
        · rw [of_decide_eq_true single]
          rfl
        · rw [of_decide_eq_true double]
          rfl
      simp only [handle, handleMouseClick, commonRequest, ne_eq,
        not_true_eq_false, if_false, ClickRequest.act, bind_pure_apply,
        direction]
      cases clickButton request.lparam with
      | none => rfl
      | some button =>
          simp only [discard_snd]
          exact onDevices_bind_const _ _ world
  | keyboard request =>
      have direction : keyDirection request.op = some .click := by
        rw [of_decide_eq_true isClick]
        rfl
      simp only [handle, handleKeyboard, ne_eq, not_true_eq_false, if_false,
        ClickRequest.act, direction]
      split
      · simp only [discard_snd]
        exact onDevices_bind_const _ _ world
      · cases ckeyFromProtocol request.code with
        | none => rfl
        | some key =>
            simp only [discard_snd]
            exact onDevices_bind_const _ _ world

/-! ## Runs -/

/-- What a list has in front of an older one. -/
def newest {Item : Type} (before after : List Item) : List Item :=
  after.take (after.length - before.length)

theorem newest_append {Item : Type} (items before : List Item) :
    newest before (items ++ before) = items := by
  rw [newest, List.length_append, Nat.add_sub_cancel, List.take_left]

/-- The writes between two states of the devices. -/
def newAttempts (fails : Nat → Bool) (before after : Devices) : List Attempt :=
  newest (Uinput.afterCalls fails before.trace).attempts
    (Uinput.afterCalls fails after.trace).attempts

/-- The device refuses no write, of those between two states, that the
handlers do not answer with a release. -/
def DeviceSpares (fails : Nat → Bool) (before after : Devices) : Prop :=
  Spared (newAttempts fails before after) ∧
    Uinput.PasteSpared fails before.trace (newest before.trace after.trace)

/-- One delivery. -/
def ClickDelivery.step (world : World F) (delivery : ClickDelivery) :
    Option (World F) :=
  if delivery.request.isClick then some (delivery.handle world).2 else none

/-- The device spares the delivery. -/
def ClickDelivery.Spared (fails : Nat → Bool) (world : World F)
    (delivery : ClickDelivery) : Prop :=
  DeviceSpares fails world.devices (delivery.handle world).2.devices

section Runs

variable {fails : Nat → Bool} {base : Platform}

private theorem triple_clickAct (before : List DeviceCall) (request : ClickRequest) :
    Triple (Uinput.During fails base before [] false) request.act
      fun _ => Uinput.During fails base before [] false := by
  cases request with
  | mouse request =>
      rw [ClickRequest.act]
      cases clickButton request.lparam with
      | none => exact triple_pure fun _ during => during
      | some button =>
          refine triple_bind ?_ fun _ => triple_pure fun _ during => during
          refine triple_ite (fun _ => ?_)
            fun _ => Uinput.triple_inputMouseButton_click button
          refine triple_bind (Uinput.triple_inputMouseButton_click button)
            fun err => ?_
          exact triple_ite (fun _ => Uinput.triple_inputMouseButton_click button)
            fun _ => triple_pure fun _ during => during
  | keyboard request =>
      refine triple_ite (fun _ => ?_) fun _ => ?_
      · exact triple_bind (Uinput.triple_keyboardChar _ _)
          fun _ => triple_pure fun _ during => during
      · cases ckeyFromProtocol request.code with
        | none => exact triple_pure fun _ during => during
        | some key =>
            exact triple_bind (Uinput.triple_keyboardFunctionKey _ _)
              fun _ => triple_pure fun _ during => during

private theorem during_start {devices : Devices}
    (isPlatform : devices.platform = Uinput.platform fails base) :
    Uinput.During fails base devices.trace [] false devices := by
  refine ⟨isPlatform, [], rfl, ?_, [], rfl, fun _ _ code pressed => ?_⟩
  · rintro ⟨⟩
  · cases pressed

theorem act_during {devices : Devices} (request : ClickRequest)
    (isPlatform : devices.platform = Uinput.platform fails base) :
    Uinput.During fails base devices.trace [] false (request.act devices).2 := by
  cases outcome : request.act devices with
  | mk result reached =>
      cases result with
      | error impossible => exact nomatch impossible
      | ok value =>
          exact triple_clickAct devices.trace request _ _ _
            (during_start isPlatform) outcome

private theorem released_of_during {before after : Devices}
    (during : Uinput.During fails base before.trace [] false after)
    (spares : DeviceSpares fails before after) :
    Released (newAttempts fails before after) := by
  obtain ⟨-, calls, isTrace, -, new, isNew, kept⟩ := during
  have sameCalls : newest before.trace after.trace = calls := by
    rw [isTrace, newest_append]
  have sameAttempts : newAttempts fails before after = new := by
    rw [newAttempts, isNew, newest_append]
  rw [DeviceSpares, sameCalls, sameAttempts] at spares
  rw [sameAttempts, ← releasedBut_nil]
  exact kept spares.2 spares.1

theorem ClickDelivery.platform_of_run {deliveries : List ClickDelivery}
    {allowed : World F → ClickDelivery → Prop} {first last : World F}
    (onUinput : first.devices.platform = Uinput.platform fails base)
    (run : Run ClickDelivery.step allowed first deliveries last) :
    last.devices.platform = Uinput.platform fails base := by
  refine run.preserves
    (fun world => world.devices.platform = Uinput.platform fails base) ?_ onUinput
  intro before after delivery _ steps isPlatform
  rw [ClickDelivery.step] at steps
  split at steps
  · rename_i isClick
    cases steps
    rw [delivery.handle_apply isClick]
    exact (act_during delivery.request isPlatform).1
  · cases steps

/-- In a run of clicks that the device spares, every code that a request
presses is released in the same request. -/
theorem ClickDelivery.released_of_spared {deliveries : List ClickDelivery}
    {first last after : World F} {delivery : ClickDelivery}
    (onUinput : first.devices.platform = Uinput.platform fails base)
    (run : Run ClickDelivery.step (ClickDelivery.Spared fails) first deliveries
      last)
    (spared : ClickDelivery.Spared fails last delivery)
    (steps : ClickDelivery.step last delivery = some after) :
    Released (newAttempts fails last.devices after.devices) := by
  have isPlatform := ClickDelivery.platform_of_run onUinput run
  rw [ClickDelivery.step] at steps
  split at steps
  · rename_i isClick
    cases steps
    rw [ClickDelivery.Spared] at spared
    rw [delivery.handle_apply isClick] at spared ⊢
    exact released_of_during (act_during delivery.request isPlatform) spared
  · cases steps

end Runs

/-! ## A refused synchronisation -/

/-- A server that has just started, with a uinput device. -/
def World.onUinput (fails : Nat → Bool) : World Rat :=
  { World.started with
    devices := { World.started.devices with
      platform := Uinput.platform fails World.started.devices.platform } }

/-- A click of the left button. -/
def leftClick : ClickDelivery where
  bev := none
  header := { type := 2, direction := 1, index := 1, uid := 1 }
  request := .mouse { lparam := 0, rparam := 2 }

theorem ClickDelivery.released_leftClick :
    Released (newAttempts (fun _ => false) (World.onUinput fun _ => false).devices
      (leftClick.handle (World.onUinput fun _ => false)).2.devices) := by
  have onUinput : (World.onUinput fun _ => false).devices.platform =
      Uinput.platform (fun _ => false) World.started.devices.platform := rfl
  have attempts : newAttempts (fun _ => false)
        (World.onUinput fun _ => false).devices
        (leftClick.handle (World.onUinput fun _ => false)).2.devices =
      [{ event := .syn, written := true },
        { event := .key 272 false, written := true },
        { event := .syn, written := true },
        { event := .key 272 true, written := true }] := by
    decide
  have spared : ClickDelivery.Spared (fun _ => false)
      (World.onUinput fun _ => false) leftClick := by
    constructor
    · rw [attempts]
      simp [MouseHero.Spared]
    · refine ⟨fun isKey => ?_, trivial⟩
      cases isKey
  exact ClickDelivery.released_of_spared onUinput (.nil _) spared rfl

/-- The write behind the key-down fails, and the button stays down. -/
theorem leftClick_stuck :
    newAttempts (fun write => write = 1)
        (World.onUinput fun write => write = 1).devices
        (leftClick.handle (World.onUinput fun write => write = 1)).2.devices =
      [{ event := .syn, written := false },
        { event := .key 272 true, written := true }] ∧
    ¬ Released (newAttempts (fun write => write = 1)
        (World.onUinput fun write => write = 1).devices
        (leftClick.handle (World.onUinput fun write => write = 1)).2.devices) := by
  have attempts : newAttempts (fun write => write = 1)
        (World.onUinput fun write => write = 1).devices
        (leftClick.handle (World.onUinput fun write => write = 1)).2.devices =
      [{ event := .syn, written := false },
        { event := .key 272 true, written := true }] := by
    decide
  refine ⟨attempts, fun released => ?_⟩
  rw [attempts] at released
  have isUp := released 272 (by simp [Pressed])
  simp [latestKey] at isUp

end MouseHero
