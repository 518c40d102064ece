import Mathlib.Order.CompletePartialOrder
import MouseHero.Input.HeldKeys
import MouseHero.Server.Clicks

/-!
# Keys that the user holds

What the requests of `handle_keyboard` do to the keys that earlier requests
have pressed.  Nothing keeps account of these keys: the modifiers of a request
are pressed and released around its main key, whether they are held or not.
-/

namespace MouseHero

open FaultM

variable {F : Type}

/-! ## Requests -/

/-- What the handler asks of the keyboard. -/
def YAKeyboardEventRequest.call (request : YAKeyboardEventRequest) :
    Option KeyboardCall :=
  match keyDirection request.op with
  | none => none
  | some direction =>
      if isChar request.code then
        some (.char request.code request.mods direction)
      else
        (ckeyFromProtocol request.code).map fun key =>
          .functionKey key request.mods direction

/-- The code of the main key, if there is one. -/
def YAKeyboardEventRequest.mainCode (platform : Platform)
    (request : YAKeyboardEventRequest) : Option UInt16 :=
  request.call.bind (KeyboardCall.mainCode platform)

/-- The codes of the modifiers that are pressed around the main key. -/
def YAKeyboardEventRequest.pressedCodes (platform : Platform)
    (request : YAKeyboardEventRequest) : Set UInt16 :=
  {code | ∃ call, request.call = some call ∧
    (call.mainCode platform).isSome = true ∧ code ∈ call.neededCodes platform}

/-- A request that is delivered to the handler. -/
structure KeyboardDelivery where
  bev : Option BevId
  header : YAEventHeader
  request : YAKeyboardEventRequest
  deriving DecidableEq, Repr

namespace KeyboardDelivery

def handle (delivery : KeyboardDelivery) : ServerM F (Option (YAEvent F)) :=
  handleKeyboard delivery.bev {
    header := delivery.header
    param := some (.keyboard delivery.request)
    paramLen := 12 }

/-- The world behind the handler. -/
def after (world : World F) (delivery : KeyboardDelivery) : World F :=
  (delivery.handle world).2

/-- One delivery. -/
def step (world : World F) (delivery : KeyboardDelivery) : Option (World F) :=
  some (delivery.after world)

end KeyboardDelivery

/-- The codes of the keys that are down on the uinput device of a server. -/
def World.heldKeys (fails : Nat → Bool) (world : World F) : Set UInt16 :=
  (Uinput.afterCalls fails world.devices.trace).heldKeys

/-- The operations between two states are operations on keys that succeed. -/
def World.AllSucceed (fails : Nat → Bool) (before after : World F) : Prop :=
  Uinput.Succeeded fails before.devices.trace
    (newest before.devices.trace after.devices.trace)

/-- All operations of the request succeed, none of the modifiers that it
presses is held, and a key that it presses is none of these modifiers. -/
def KeyboardDelivery.Apart (fails : Nat → Bool) (world : World F)
    (delivery : KeyboardDelivery) : Prop :=
  world.AllSucceed fails (delivery.after world) ∧
    Disjoint (world.heldKeys fails)
      (delivery.request.pressedCodes world.devices.platform) ∧
    (delivery.request.op = 0 →
      ∀ code, delivery.request.mainCode world.devices.platform = some code →
        code ∉ delivery.request.pressedCodes world.devices.platform)

/-- The operation of the last request whose main key has the code. -/
def lastExplicit (platform : Platform) (code : UInt16) :
    List KeyboardDelivery → Option Int32
  | [] => none
  | delivery :: later =>
      (lastExplicit platform code later).or
        (if delivery.request.mainCode platform = some code then
          some delivery.request.op
        else none)

/-! ## One request -/

section Requests

variable {fails : Nat → Bool} {base : Platform}

theorem KeyboardDelivery.handle_apply (delivery : KeyboardDelivery)
    (world : World F) :
    delivery.handle world =
      (.ok none, { world with
        devices :=
          match delivery.request.call with
          | none => world.devices
          | some call => (call.perform world.devices).2 }) := by
  obtain ⟨bev, header, request⟩ := delivery
  simp only [handle, handleKeyboard, ne_eq, not_true_eq_false, if_false,
    YAKeyboardEventRequest.call]
  cases keyDirection request.op with
  | none => rfl
  | some direction =>
      by_cases isCharacter : isChar request.code = true
      · simp only [if_pos isCharacter]
        exact onDevices_bind_const _ _ world
      · simp only [if_neg isCharacter]
        cases ckeyFromProtocol request.code with
        | none => rfl
        | some key => exact onDevices_bind_const _ _ world

theorem heldKeys_perform_call {devices : Devices} (call : KeyboardCall)
    (onUinput : devices.platform = Uinput.platform fails base)
    (succeeded : Uinput.Succeeded fails devices.trace
      (newest devices.trace (call.perform devices).2.trace)) :
    (call.perform devices).2.platform = devices.platform ∧
      (Uinput.afterCalls fails (call.perform devices).2.trace).heldKeys =
        call.effect devices.platform
          (Uinput.afterCalls fails devices.trace).heldKeys := by
  have begins : Uinput.HeldDuring fails base devices.trace
      (Uinput.afterCalls fails devices.trace).heldKeys devices :=
    ⟨[], rfl, fun _ => ⟨onUinput, rfl⟩⟩
  cases outcome : call.perform devices with
  | mk result reached =>
      cases result with
      | error impossible => exact nomatch impossible
      | ok value =>
          obtain ⟨calls, isTrace, kept⟩ :=
            Uinput.triple_holds_perform call devices devices reached value
              ⟨rfl, begins⟩ outcome
          rw [outcome] at succeeded
          simp only [isTrace, newest_append] at succeeded
          rw [onUinput] at kept ⊢
          exact kept succeeded

variable {world : World F} {delivery : KeyboardDelivery}

private theorem call_direction {request : YAKeyboardEventRequest} {call : KeyboardCall}
    (calls : request.call = some call) :
    keyDirection request.op = some call.direction := by
  rw [YAKeyboardEventRequest.call] at calls
  cases known : keyDirection request.op with
  | none =>
      rw [known] at calls
      cases calls
  | some direction =>
      rw [known] at calls
      simp only at calls
      split at calls
      · cases calls
        rfl
      · obtain ⟨key, _, rfl⟩ := Option.map_eq_some_iff.mp calls
        rfl

private theorem platform_after
    (onUinput : world.devices.platform = Uinput.platform fails base)
    (succeeded : world.AllSucceed fails (delivery.after world)) :
    (delivery.after world).devices.platform = world.devices.platform := by
  rw [World.AllSucceed] at succeeded
  simp only [KeyboardDelivery.after, delivery.handle_apply] at succeeded ⊢
  cases calls : delivery.request.call with
  | none => rfl
  | some call =>
      rw [calls] at succeeded
      exact (heldKeys_perform_call call onUinput succeeded).1

theorem heldKeys_after_none
    (onUinput : world.devices.platform = Uinput.platform fails base)
    (succeeded : world.AllSucceed fails (delivery.after world))
    (none : delivery.request.mainCode world.devices.platform = none) :
    (delivery.after world).heldKeys fails = world.heldKeys fails := by
  rw [YAKeyboardEventRequest.mainCode] at none
  rw [World.AllSucceed] at succeeded
  rw [World.heldKeys]
  simp only [KeyboardDelivery.after, delivery.handle_apply] at succeeded ⊢
  cases calls : delivery.request.call with
  | none => rfl
  | some call =>
      rw [calls] at none succeeded
      rw [(heldKeys_perform_call call onUinput succeeded).2, KeyboardCall.effect]
      change call.mainCode world.devices.platform = _ at none
      rw [none]
      rfl

/-- A request with a main key applies it between its modifiers. -/
theorem heldKeys_after_some {code : UInt16}
    (onUinput : world.devices.platform = Uinput.platform fails base)
    (succeeded : world.AllSucceed fails (delivery.after world))
    (known : delivery.request.mainCode world.devices.platform = some code) :
    ∃ direction, keyDirection delivery.request.op = some direction ∧
      (delivery.after world).heldKeys fails =
        direction.applied code (world.heldKeys fails ∪
            delivery.request.pressedCodes world.devices.platform) \
          delivery.request.pressedCodes world.devices.platform := by
  obtain ⟨call, calls, isMain⟩ := Option.bind_eq_some_iff.mp known
  have pressed : delivery.request.pressedCodes world.devices.platform =
      call.neededCodes world.devices.platform := by
    ext other
    simp [YAKeyboardEventRequest.pressedCodes, calls, isMain]
  refine ⟨call.direction, call_direction calls, ?_⟩
  rw [World.AllSucceed] at succeeded
  rw [World.heldKeys, pressed]
  simp only [KeyboardDelivery.after, delivery.handle_apply, calls] at succeeded ⊢
  rw [(heldKeys_perform_call call onUinput succeeded).2, KeyboardCall.effect, isMain]
  rfl

private theorem pressedCodes_eq_empty {request : YAKeyboardEventRequest}
    {platform : Platform} (none : request.mainCode platform = none) :
    request.pressedCodes platform = ∅ := by
  apply Set.eq_empty_of_forall_notMem
  intro code pressed
  obtain ⟨call, calls, isMain, _⟩ := pressed
  rw [YAKeyboardEventRequest.mainCode, calls] at none
  change call.mainCode platform = _ at none
  rw [none] at isMain
  cases isMain

/-- A click takes the modifiers that it presses away from the held keys. -/
theorem heldKeys_click
    (onUinput : world.devices.platform = Uinput.platform fails base)
    (isClick : delivery.request.op = 2)
    (unheld : ∀ code,
      delivery.request.mainCode world.devices.platform = some code →
      code ∉ world.heldKeys fails)
    (succeeded : world.AllSucceed fails (delivery.after world)) :
    (delivery.after world).heldKeys fails =
      world.heldKeys fails \
        delivery.request.pressedCodes world.devices.platform := by
  cases known : delivery.request.mainCode world.devices.platform with
  | none =>
      rw [heldKeys_after_none onUinput succeeded known,
        pressedCodes_eq_empty known, Set.sdiff_empty]
  | some code =>
      obtain ⟨direction, isDirection, applied⟩ :=
        heldKeys_after_some onUinput succeeded known
      rw [isClick] at isDirection
      obtain rfl := Option.some.inj isDirection
      have apart := unheld code known
      rw [applied]
      ext other
      simp only [CDirection.applied, Set.mem_sdiff, Set.mem_union, Set.mem_singleton_iff]
      grind

private theorem keyDirection_press_iff {op : Int32} :
    keyDirection op = some .press ↔ op = 0 := by
  unfold keyDirection
  split
  · rename_i isPress
    exact iff_of_true rfl isPress
  · rename_i other
    refine iff_of_false (fun isPress => ?_) other
    split at isPress
    · cases isPress
    · split at isPress <;> cases isPress

/-- A request apart from the held keys does what its main key says. -/
theorem heldKeys_apart
    (onUinput : world.devices.platform = Uinput.platform fails base)
    (apart : delivery.Apart fails world) (code : UInt16) :
    code ∈ (delivery.after world).heldKeys fails ↔
      if delivery.request.mainCode world.devices.platform = some code then
        delivery.request.op = 0
      else code ∈ world.heldKeys fails := by
  obtain ⟨succeeded, disjoint, unpressed⟩ := apart
  have outside (other : UInt16) (held : other ∈ world.heldKeys fails) :
      other ∉ delivery.request.pressedCodes world.devices.platform :=
    Set.disjoint_left.mp disjoint held
  cases known : delivery.request.mainCode world.devices.platform with
  | none =>
      rw [if_neg (by simp), heldKeys_after_none onUinput succeeded known]
  | some main =>
      obtain ⟨direction, isDirection, applied⟩ :=
        heldKeys_after_some onUinput succeeded known
      rw [applied, ← keyDirection_press_iff, isDirection]
      rw [← keyDirection_press_iff, isDirection] at unpressed
      cases direction with
      | press =>
          have apartMain := unpressed rfl main known
          simp only [CDirection.applied, Set.mem_sdiff, Set.mem_insert_iff,
            Set.mem_union]
          grind
      | release | click =>
          simp only [CDirection.applied, Set.mem_sdiff, Set.mem_singleton_iff,
            Set.mem_union]
          grind

end Requests

/-! ## Runs -/

section Runs

variable {fails : Nat → Bool} {base : Platform}

/-- In a run of requests apart from the held keys, a key is held if its last
operation is a press. -/
theorem heldKeys_run {first last : World F} {deliveries : List KeyboardDelivery}
    (onUinput : first.devices.platform = Uinput.platform fails base)
    (run : Run KeyboardDelivery.step
      (fun world delivery => delivery.Apart fails world) first deliveries last)
    (code : UInt16) :
    code ∈ last.heldKeys fails ↔
      match lastExplicit first.devices.platform code deliveries with
      | some op => op = 0
      | none => code ∈ first.heldKeys fails := by
  induction run with
  | nil world => exact Iff.rfl
  | @cons first middle last delivery deliveries apart steps _ inductionHypothesis =>
      cases steps
      have same := platform_after onUinput apart.1
      have behind := inductionHypothesis (same.trans onUinput)
      rw [same] at behind
      rw [behind, lastExplicit, heldKeys_apart onUinput apart]
      cases lastExplicit first.devices.platform code deliveries with
      | some op => rfl
      | none =>
          rw [Option.none_or]
          by_cases isMain :
              delivery.request.mainCode first.devices.platform = some code
          · simp only [if_pos isMain]
          · simp only [if_neg isMain]

end Runs

/-- A click whose main key is not held takes the keys of the modifiers that it
presses from the held keys, so that these stay the same if and only if none of
them was held.  In a run of requests apart from the held keys, the keys are held
whose last operation is a press. -/
theorem handleKeyboard_heldKeys (fails : Nat → Bool) (base : Platform) :
    (∀ (world : World F) (delivery : KeyboardDelivery),
      world.devices.platform = Uinput.platform fails base →
      delivery.request.op = 2 →
      (∀ code, delivery.request.mainCode world.devices.platform = some code →
        code ∉ world.heldKeys fails) →
      world.AllSucceed fails (delivery.after world) →
      (delivery.after world).heldKeys fails =
          world.heldKeys fails \
            delivery.request.pressedCodes world.devices.platform ∧
        ((delivery.after world).heldKeys fails = world.heldKeys fails ↔
          Disjoint (world.heldKeys fails)
            (delivery.request.pressedCodes world.devices.platform))) ∧
      ∀ (first last : World F) (deliveries : List KeyboardDelivery),
        first.devices.platform = Uinput.platform fails base →
        first.heldKeys fails = ∅ →
        Run KeyboardDelivery.step
          (fun world delivery => delivery.Apart fails world) first deliveries last →
        last.heldKeys fails =
          {code | lastExplicit first.devices.platform code deliveries = some 0} := by
  constructor
  · intro world delivery onUinput isClick unheld succeeded
    have taken := heldKeys_click onUinput isClick unheld succeeded
    refine ⟨taken, ?_⟩
    rw [taken]
    exact sdiff_eq_left
  · intro first last deliveries onUinput noneHeld run
    ext code
    rw [heldKeys_run onUinput run code, noneHeld]
    change _ ↔ lastExplicit first.devices.platform code deliveries = some 0
    cases lastExplicit first.devices.platform code deliveries with
    | none => simp
    | some op => simp

/-! ## A held Shift -/

/-- A press of Shift. -/
def shiftPress : KeyboardDelivery where
  bev := none
  header := { type := 4, direction := 1, index := 1, uid := 1 }
  request := { op := 0, code := 0xE200, mods := 0 }

/-- A click of F1 with modifiers. -/
def f1Click (mods : UInt32) : KeyboardDelivery where
  bev := none
  header := { type := 4, direction := 1, index := 2, uid := 1 }
  request := { op := 2, code := 0xE300, mods := mods }

/-- A server on which Shift is held. -/
def World.shiftHeld : World Rat :=
  shiftPress.after (World.onUinput fun _ => false)

private theorem shiftPress_succeeds :
    (World.onUinput fun _ => false).AllSucceed (fun _ => false)
      World.shiftHeld := by
  have calls : newest (World.onUinput fun _ => false).devices.trace
      World.shiftHeld.devices.trace = [.keyAction .shift .press] := by
    decide
  rw [World.AllSucceed, calls]
  exact ⟨⟨by decide, by decide⟩, trivial⟩

private theorem f1Click_succeeds :
    World.shiftHeld.AllSucceed (fun _ => false)
      ((f1Click 0).after World.shiftHeld) := by
  have calls : newest World.shiftHeld.devices.trace
      ((f1Click 0).after World.shiftHeld).devices.trace =
        [.keyAction (.f 0) .click] := by
    decide
  rw [World.AllSucceed, calls]
  exact ⟨⟨by decide, by decide⟩, trivial⟩

/-- A click with Shift releases the Shift that is held. -/
theorem f1Click_releasesShift :
    42 ∈ World.shiftHeld.heldKeys (fun _ => false) ∧
      (f1Click CHORD_MOD_SHIFT).request.mainCode
        World.shiftHeld.devices.platform = some 59 ∧
      59 ∉ World.shiftHeld.heldKeys (fun _ => false) ∧
      World.shiftHeld.AllSucceed (fun _ => false)
        ((f1Click CHORD_MOD_SHIFT).after World.shiftHeld) ∧
      42 ∉ ((f1Click CHORD_MOD_SHIFT).after World.shiftHeld).heldKeys
        (fun _ => false) := by
  have calls : newest World.shiftHeld.devices.trace
      ((f1Click CHORD_MOD_SHIFT).after World.shiftHeld).devices.trace =
        [.keyAction .shift .release, .keyAction (.f 0) .click,
          .keyAction .shift .press] := by
    decide
  refine ⟨?_, rfl, ?_, ?_, ?_⟩
  · change Uinput.isDown 42 _ = true
    decide
  · change ¬ Uinput.isDown 59 _ = true
    decide
  · rw [World.AllSucceed, calls]
    exact ⟨⟨by decide, by decide⟩, ⟨by decide, by decide⟩, ⟨by decide, by decide⟩,
      trivial⟩
  · change ¬ Uinput.isDown 42 _ = true
    decide

theorem onUinput_heldKeys :
    (World.onUinput fun _ => false).heldKeys (fun _ => false) = ∅ :=
  Set.eq_empty_of_forall_notMem fun _ held => Bool.false_ne_true held

private theorem shiftPress_pressedCodes :
    shiftPress.request.pressedCodes
      (World.onUinput fun _ => false).devices.platform = ∅ := by
  apply Set.eq_empty_of_forall_notMem
  intro code pressed
  obtain ⟨call, calls, _, modifier, needs, _⟩ := pressed
  have isShift : shiftPress.request.call = some (.functionKey .shift 0 .press) := by
    decide
  obtain rfl := Option.some.inj (isShift.symm.trans calls)
  cases modifier with
  | altGr => exact needs
  | shift | ctrl | metaKey | alt => exact absurd rfl needs

private theorem shiftPress_apart :
    shiftPress.Apart (fun _ => false) (World.onUinput fun _ => false) := by
  refine ⟨shiftPress_succeeds, ?_, ?_⟩
  · rw [onUinput_heldKeys]
    exact Set.empty_disjoint _
  · rw [shiftPress_pressedCodes]
    exact fun _ code _ => Set.notMem_empty code

theorem handleKeyboard_heldKeys_shift :
    ((f1Click 0).after World.shiftHeld).heldKeys (fun _ => false) =
        World.shiftHeld.heldKeys (fun _ => false) \
          (f1Click 0).request.pressedCodes World.shiftHeld.devices.platform ∧
      World.shiftHeld.heldKeys (fun _ => false) =
        {code | lastExplicit (World.onUinput fun _ => false).devices.platform code
          [shiftPress] = some 0} := by
  have unheld : ∀ code,
      (f1Click 0).request.mainCode World.shiftHeld.devices.platform = some code →
      code ∉ World.shiftHeld.heldKeys fun _ => false := by
    intro code isMain
    have isF1 : (f1Click 0).request.mainCode World.shiftHeld.devices.platform =
        some 59 := rfl
    obtain rfl := Option.some.inj (isF1.symm.trans isMain)
    change ¬ Uinput.isDown 59 _ = true
    decide
  have run : Run KeyboardDelivery.step
      (fun world delivery => delivery.Apart (fun _ => false) world)
      (World.onUinput fun _ => false) [shiftPress] World.shiftHeld :=
    .single shiftPress_apart rfl
  exact ⟨((handleKeyboard_heldKeys (fun _ => false)
      World.started.devices.platform).1 World.shiftHeld (f1Click 0) rfl rfl unheld
      f1Click_succeeds).1,
    (handleKeyboard_heldKeys (fun _ => false) World.started.devices.platform).2
      _ _ _ rfl onUinput_heldKeys run⟩

end MouseHero
