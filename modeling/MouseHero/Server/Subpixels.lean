import MouseHero.Input.FilterLimits
import MouseHero.Server.Throttling
import Mathlib.Data.Rat.Floor

/-!
# Fractions of pixels

The motion of a client with protocol version 3, in exact arithmetic.  A move
puts out whole pixels and carries the rest over to the next one, and a stop
drops what is carried over.
-/

namespace MouseHero

open FaultM CFloat ErrorDiffusion YaClientManager

/-! ## Truncation -/

/-- Truncation towards zero. -/
def truncate (value : Rat) : Int :=
  if 0 < value then ⌊value⌋ else ⌈value⌉

theorem abs_truncate_le (value : Rat) : |(truncate value : Rat)| ≤ |value| :=
  abs_towardsZero_le value

theorem abs_sub_truncate_lt (value : Rat) : |value - truncate value| < 1 :=
  abs_sub_towardsZero_lt value

theorem quantize_exact (value : Rat) :
    quantize value = (truncate value, value - truncate value) :=
  quantize_of_exact CFloat.exact_exact value

/-! ## What is put out -/

/-- The movement that an operation makes. -/
def DeviceCall.movement? : DeviceCall → Option (Int × Int)
  | .mouseMove dx dy => some (dx, dy)
  | _ => none

/-- The movements among the operations that have been added to the trace, the
latest first. -/
def movementsSince (before after : Devices) : List (Int × Int) :=
  (after.trace.take (after.trace.length - before.trace.length)).filterMap
    DeviceCall.movement?

section Devices

theorem movementsSince_self (devices : Devices) :
    movementsSince devices devices = [] := by
  rw [movementsSince, Nat.sub_self]
  rfl

private theorem movementsSince_cons (devices : Devices) (dx dy : Int) :
    movementsSince devices
        { devices with trace := .mouseMove dx dy :: devices.trace } =
      [(dx, dy)] := by
  rw [movementsSince, List.length_cons, Nat.add_sub_cancel_left]
  rfl

theorem movementsSince_moveSteps (dx dy : Int) (devices : Devices) :
    movementsSince devices (moveSteps [{ dx, dy }] devices).2 =
      if dx = 0 ∧ dy = 0 then [] else [(dx, dy)] := by
  by_cases zero : dx = 0 ∧ dy = 0
  · have unmoved : (moveSteps [{ dx, dy }] devices).2 = devices := by
      rw [moveSteps, if_pos zero]
      rfl
    rw [unmoved, movementsSince_self, if_pos zero]
  · have moved : (moveSteps [{ dx, dy }] devices).2 =
        { devices with trace := .mouseMove dx dy :: devices.trace } := by
      rw [moveSteps, if_neg zero]
      rfl
    rw [moved, movementsSince_cons, if_neg zero]

end Devices

namespace MotionEvent

/-- The movements that the event puts out. -/
def emitted (event : MotionEvent Rat) (world : World Rat) : List (Int × Int) :=
  movementsSince world.devices (event.handle world).devices

/-- What the event carries, in hundredths of pixels. -/
def hundredths (event : MotionEvent Rat) : Int × Int :=
  match event.motion with
  | .move request => (request.lparam.toInt, request.rparam.toInt)
  | .stop => 0

/-- The input that the event is on an axis. -/
def axisInput (axis : Int × Int →+ Int) (event : MotionEvent Rat) : Input Rat :=
  match event.motion with
  | .move _ => .amount ((axis event.hundredths : Rat) / 100)
  | .stop => .reset

end MotionEvent

/-! ## One event -/

/-- The `uid` is that of an active client of protocol version 3 or higher, whose
filter carries these fractions of pixels. -/
def World.Carries (world : World Rat) (uid : UInt32)
    (residue : Rat × Rat) : Prop :=
  ∃ client filter,
    yaClientFindByUid world.manager uid = some client ∧
      (world.manager.clients.map YaClient.addr).Nodup ∧
      3 ≤ client.protocolVersion ∧
      client.mouseFilter = some filter ∧
      (filter.fracX, filter.fracY) = residue

section Event

variable {event : MotionEvent Rat} {world : World Rat} {client : YaClient Rat}
variable {filter : YaMouseFilter Rat}

theorem MotionEvent.handle_found
    (found : yaClientFindByUid world.manager event.uid = some client)
    (once : (world.manager.clients.map YaClient.addr).Nodup) :
    yaClientFindByUid (event.handle world).manager event.uid =
        some { client with
          mouseFilter := filterAfter (event.arrives world) event.event client
            event.type } ∧
      ((event.handle world).manager.clients.map YaClient.addr).Nodup :=
  @eventHandler_found _ _ (event.arrives world) _ event.type_ne_authorize event.bev
    _ _ found once

private theorem moveSubpixels_devices (world : World Rat)
    (filtered : client.mouseFilter = some filter) (fdx fdy : Rat) :
    ∃ reached,
      moveSubpixels client fdx fdy world = (.ok (), reached) ∧
        reached.devices =
          (moveSteps [{
            dx := truncate (filter.fracX + fdx)
            dy := truncate (filter.fracY + fdy) }] world.devices).2 := by
  have stepX : (quantize (addf filter.fracX fdx)).1 = truncate _ :=
    congrArg Prod.fst (quantize_exact (filter.fracX + fdx))
  have stepY : (quantize (addf filter.fracY fdy)).1 = truncate _ :=
    congrArg Prod.fst (quantize_exact (filter.fracY + fdy))
  obtain ⟨answer, -, moved⟩ := onDevices_apply
    (moveSteps [{
      dx := (quantize (addf filter.fracX fdx)).1
      dy := (quantize (addf filter.fracY fdy)).1 }])
    { world with
      manager := world.manager.write client.addr fun entry =>
        { entry with
          mouseFilter := some { filter with
            fracX := (quantize (addf filter.fracX fdx)).2
            fracY := (quantize (addf filter.fracY fdy)).2 } } }
  simp only [moveSubpixels, filtered]
  refine ⟨_, (bind_of_ok (modifyState_apply _ world)).trans moved, ?_⟩
  rw [stepX, stepY]

theorem handleMouseMove_devices {request : YACommonEventRequest}
    (found : yaClientFindByUid world.manager event.event.header.uid =
      some client)
    (smooth : 3 ≤ client.protocolVersion)
    (carried : event.event.param = some (.common request))
    (length : event.event.paramLen = 8)
    (filtered : client.mouseFilter = some filter) (bev : Option BevId) :
    (handleMouseMove bev event.event world).2.devices =
      (moveSteps [{
        dx := truncate (filter.fracX + request.lparam.toInt / 100)
        dy := truncate (filter.fracY + request.rparam.toInt / 100) }]
          world.devices).2 := by
  obtain ⟨reached, moved, devices⟩ := moveSubpixels_devices world filtered
    (pixels request.lparam) (pixels request.rparam)
  have handled :
      (do
        moveSubpixels client (pixels request.lparam) (pixels request.rparam)
        return (none : Option (YAEvent Rat))) world = (.ok none, reached) :=
    bind_of_ok moved
  rw [handleMouseMove, bind_of_ok (commonRequest_of_some carried length)]
  simp only
  rw [bind_of_ok (getState_apply world), found]
  simp only [if_pos smooth]
  exact (congrArg (fun result => result.2.devices) handled).trans devices

theorem handleMouseStop_devices
    (found : yaClientFindByUid world.manager event.event.header.uid =
      some client)
    (smooth : 3 ≤ client.protocolVersion) (bev : Option BevId) :
    (handleMouseStop bev event.event world).2.devices = world.devices := by
  rw [handleMouseStop, bind_of_ok (getState_apply world), found]
  simp only [if_pos smooth]
  rfl

theorem MotionEvent.filterAfter_subpixels (smooth : 3 ≤ client.protocolVersion)
    (filtered : client.mouseFilter = some filter) :
    ∃ changed,
      filterAfter (event.arrives world) event.event client event.type =
          some changed ∧
        changed.fracX = carry truncate filter.fracX (event.axisInput (.fst _ _)) ∧
        changed.fracY = carry truncate filter.fracY (event.axisInput (.snd _ _)) := by
  cases motion : event.motion with
  | move request =>
      obtain ⟨carried, length⟩ := event.carries request motion
      have fractionX : (quantize (addf filter.fracX (pixels request.lparam))).2 =
          _ :=
        congrArg Prod.snd (quantize_exact _)
      have fractionY : (quantize (addf filter.fracY (pixels request.rparam))).2 =
          _ :=
        congrArg Prod.snd (quantize_exact _)
      refine ⟨keepFractions request filter, ?_, ?_, ?_⟩
      · simp only [MotionEvent.type, motion, filterAfter, filterAfterMove,
          carried, length, filtered, if_pos smooth]
        rfl
      · simp only [MotionEvent.axisInput, MotionEvent.hundredths, motion]
        exact fractionX
      · simp only [MotionEvent.axisInput, MotionEvent.hundredths, motion]
        exact fractionY
  | stop =>
      refine ⟨yaMouseFilterResetState filter, ?_, ?_, ?_⟩
      · simp only [MotionEvent.type, motion, filterAfter, filtered]
        rfl
      · simp only [MotionEvent.axisInput, motion]
        rfl
      · simp only [MotionEvent.axisInput, motion]
        rfl

theorem MotionEvent.handle_carries {residue : Rat × Rat}
    (carries : world.Carries event.uid residue) :
    (event.handle world).Carries event.uid
      (carry truncate residue.1 (event.axisInput (.fst _ _)),
        carry truncate residue.2 (event.axisInput (.snd _ _))) := by
  obtain ⟨client, filter, found, once, smooth, filtered, rfl⟩ := carries
  obtain ⟨foundAfter, onceAfter⟩ := handle_found found once
  obtain ⟨changed, isChanged, fracX, fracY⟩ :=
    @filterAfter_subpixels event world _ _ smooth filtered
  exact ⟨_, changed, foundAfter, onceAfter, smooth, isChanged,
    Prod.ext fracX fracY⟩

/-- An event puts out the whole pixels, unless there are none. -/
theorem MotionEvent.emitted_eq {residue : Rat × Rat}
    (carries : world.Carries event.uid residue) :
    event.emitted world =
      let dx := step truncate residue.1 (event.axisInput (.fst _ _))
      let dy := step truncate residue.2 (event.axisInput (.snd _ _))
      if dx = 0 ∧ dy = 0 then [] else [(dx, dy)] := by
  obtain ⟨client, filter, found, once, smooth, filtered, rfl⟩ := carries
  have isFound : yaClientFindByUid (event.arrives world).manager
      event.event.header.uid = some client := found
  cases motion : event.motion with
  | move request =>
      obtain ⟨carried, length⟩ := event.carries request motion
      have devices := handleMouseMove_devices isFound smooth carried length
        filtered event.bev
      simp only [MotionEvent.emitted, MotionEvent.handle, MotionEvent.type,
        MotionEvent.axisInput, MotionEvent.hundredths, motion, eventHandler]
      rw [devices]
      exact movementsSince_moveSteps _ _ world.devices
  | stop =>
      have devices := handleMouseStop_devices isFound smooth event.bev
      simp only [MotionEvent.emitted, MotionEvent.handle, MotionEvent.type,
        MotionEvent.axisInput, motion, eventHandler]
      rw [devices]
      exact movementsSince_self world.devices

end Event

/-! ## Runs -/

/-- The movements that the events put out, of which the latest is the first. -/
def emittedMoves (start : World Rat) :
    List (MotionEvent Rat) → List (Int × Int)
  | [] => []
  | event :: earlier =>
      event.emitted (start.afterMotion earlier) ++ emittedMoves start earlier

/-- The movements since the latest stop. -/
def emittedSinceStop (start : World Rat) :
    List (MotionEvent Rat) → List (Int × Int)
  | [] => []
  | event :: earlier =>
      match event.motion with
      | .move _ =>
          event.emitted (start.afterMotion earlier) ++
            emittedSinceStop start earlier
      | .stop => []

/-- What the events carry, in hundredths of pixels. -/
def received (history : List (MotionEvent Rat)) : Int × Int :=
  (history.map MotionEvent.hundredths).sum

/-- What the events since the latest stop carry. -/
def receivedSinceStop : List (MotionEvent Rat) → Int × Int
  | [] => 0
  | event :: earlier =>
      match event.motion with
      | .move _ => event.hundredths + receivedSinceStop earlier
      | .stop => 0

def stops (history : List (MotionEvent Rat)) : Nat :=
  history.countP fun event => event.type = .mouseStop

/-- The motion on an axis does not drift.  Between two stops, what is put out
and what is carried over are what has been received; over all events, less than
a pixel is lost at each stop. -/
structure NoDrift (axis : Int × Int →+ Int) (start : World Rat)
    (history : List (MotionEvent Rat)) (residue : Rat) : Prop where
  small : |residue| < 1
  balance :
    100 * (axis (emittedSinceStop start history).sum : Rat) + 100 * residue =
      axis (receivedSinceStop history)
  drift :
    |(axis (emittedMoves start history).sum : Rat) -
        axis (received history) / 100| <
      stops history + 1
  fits :
    ∀ movement ∈ emittedMoves start history,
      -2 ^ 31 ≤ axis movement ∧ axis movement < 2 ^ 31

/-- The inputs that the events are on an axis. -/
def axisInputs (axis : Int × Int →+ Int) (history : List (MotionEvent Rat)) :
    List (Input Rat) :=
  history.map (MotionEvent.axisInput axis)

section Sums

variable (axis : Int × Int →+ Int) (history : List (MotionEvent Rat))

theorem requested_axisInputs :
    requested (axisInputs axis history) = (axis (received history) : Rat) / 100 := by
  induction history with
  | nil => simp [axisInputs, requested, received]
  | cons event earlier inductionHypothesis =>
      rw [axisInputs] at *
      rw [received, List.map_cons, List.map_cons, List.sum_cons, map_add,
        Int.cast_add, add_div]
      cases motion : event.motion with
      | move request =>
          simp only [MotionEvent.axisInput, motion, requested]
          rw [inductionHypothesis, received, add_comm]
      | stop =>
          simp only [MotionEvent.axisInput, motion, requested,
            MotionEvent.hundredths]
          rw [inductionHypothesis, received]
          simp

theorem requestedSince_axisInputs :
    requestedSince (axisInputs axis history) =
      (axis (receivedSinceStop history) : Rat) / 100 := by
  induction history with
  | nil => simp [axisInputs, requestedSince, receivedSinceStop]
  | cons event earlier inductionHypothesis =>
      rw [axisInputs] at *
      rw [List.map_cons]
      cases motion : event.motion with
      | move request =>
          simp only [MotionEvent.axisInput, motion, requestedSince,
            receivedSinceStop]
          rw [inductionHypothesis, map_add, Int.cast_add, add_div, add_comm]
      | stop =>
          simp [MotionEvent.axisInput, motion, requestedSince,
            receivedSinceStop]

theorem resets_axisInputs :
    resets (axisInputs axis history) = stops history := by
  induction history with
  | nil => rfl
  | cons event earlier inductionHypothesis =>
      rw [axisInputs] at *
      rw [stops, List.map_cons, List.countP_cons]
      cases motion : event.motion with
      | move request =>
          simp only [MotionEvent.axisInput, motion, resets, MotionEvent.type]
          exact inductionHypothesis
      | stop =>
          simp only [MotionEvent.axisInput, motion, resets, MotionEvent.type]
          rw [inductionHypothesis]
          rfl

end Sums

section Run

variable {start : World Rat} {uid : UInt32}
variable (carries : start.Carries uid 0)

/-- What is carried over on an axis after the events. -/
def carriedOver (axis : Int × Int →+ Int) (history : List (MotionEvent Rat)) :
    Rat :=
  residue truncate (axisInputs axis history)

include carries

theorem afterMotion_carries {history : List (MotionEvent Rat)}
    (sent : ∀ event ∈ history, event.uid = uid) :
    (start.afterMotion history).Carries uid
      (carriedOver (.fst _ _) history, carriedOver (.snd _ _) history) := by
  induction history with
  | nil => exact carries
  | cons event earlier inductionHypothesis =>
      obtain ⟨rfl, sentEarlier⟩ := List.forall_mem_cons.mp sent
      exact MotionEvent.handle_carries (inductionHypothesis sentEarlier)

theorem emitted_afterMotion {event : MotionEvent Rat}
    {earlier : List (MotionEvent Rat)}
    (sent : ∀ other ∈ event :: earlier, other.uid = uid) :
    event.emitted (start.afterMotion earlier) =
      let dx := step truncate (carriedOver (.fst _ _) earlier)
        (event.axisInput (.fst _ _))
      let dy := step truncate (carriedOver (.snd _ _) earlier)
        (event.axisInput (.snd _ _))
      if dx = 0 ∧ dy = 0 then [] else [(dx, dy)] := by
  obtain ⟨rfl, sentEarlier⟩ := List.forall_mem_cons.mp sent
  exact MotionEvent.emitted_eq (afterMotion_carries carries sentEarlier)

theorem sum_emitted_afterMotion {event : MotionEvent Rat}
    {earlier : List (MotionEvent Rat)}
    (sent : ∀ other ∈ event :: earlier, other.uid = uid) :
    (event.emitted (start.afterMotion earlier)).sum =
      (step truncate (carriedOver (.fst _ _) earlier)
          (event.axisInput (.fst _ _)),
        step truncate (carriedOver (.snd _ _) earlier)
          (event.axisInput (.snd _ _))) := by
  rw [emitted_afterMotion carries sent]
  dsimp only
  split
  · rename_i zero
    rw [zero.1, zero.2]
    rfl
  · exact List.sum_singleton

private theorem sum_emittedMoves {history : List (MotionEvent Rat)}
    (sent : ∀ event ∈ history, event.uid = uid) :
    (emittedMoves start history).sum =
      (emitted truncate (axisInputs (.fst _ _) history),
        emitted truncate (axisInputs (.snd _ _) history)) := by
  induction history with
  | nil => rfl
  | cons event earlier inductionHypothesis =>
      have sentEarlier := (List.forall_mem_cons.mp sent).2
      rw [emittedMoves, List.sum_append, sum_emitted_afterMotion carries sent,
        inductionHypothesis sentEarlier, add_comm]
      rfl

private theorem sum_emittedSinceStop {history : List (MotionEvent Rat)}
    (sent : ∀ event ∈ history, event.uid = uid) :
    (emittedSinceStop start history).sum =
      (emittedSince truncate (axisInputs (.fst _ _) history),
        emittedSince truncate (axisInputs (.snd _ _) history)) := by
  induction history with
  | nil => rfl
  | cons event earlier inductionHypothesis =>
      have sentEarlier := (List.forall_mem_cons.mp sent).2
      have latest := sum_emitted_afterMotion carries sent
      rw [emittedSinceStop, axisInputs, axisInputs, List.map_cons,
        List.map_cons]
      cases motion : event.motion with
      | move request =>
          simp only [MotionEvent.axisInput, motion] at latest ⊢
          rw [List.sum_append, latest, inductionHypothesis sentEarlier,
            add_comm]
          rfl
      | stop =>
          simp only [MotionEvent.axisInput, motion]
          rfl

private theorem movement_eq_step {history : List (MotionEvent Rat)}
    (sent : ∀ event ∈ history, event.uid = uid) {movement : Int × Int}
    (member : movement ∈ emittedMoves start history) :
    ∃ (event : MotionEvent Rat) (earlier : List (MotionEvent Rat)),
      movement =
        (step truncate (carriedOver (.fst _ _) earlier)
            (event.axisInput (.fst _ _)),
          step truncate (carriedOver (.snd _ _) earlier)
            (event.axisInput (.snd _ _))) := by
  induction history with
  | nil => cases member
  | cons event earlier inductionHypothesis =>
      rcases List.mem_append.mp member with latest | before
      · rw [emitted_afterMotion carries sent] at latest
        dsimp only at latest
        split at latest
        · cases latest
        · exact ⟨event, earlier, List.mem_singleton.mp latest⟩
      · exact inductionHypothesis (List.forall_mem_cons.mp sent).2 before

end Run

private theorem abs_hundredths_le (event : MotionEvent Rat) :
    |event.hundredths.1| ≤ 2 ^ 31 ∧ |event.hundredths.2| ≤ 2 ^ 31 := by
  have bound (value : Int32) : |value.toInt| ≤ 2 ^ 31 := by
    have lower := value.le_toInt
    have upper := value.toInt_lt
    rw [abs_le]
    omega
  cases motion : event.motion with
  | move request =>
      simp only [MotionEvent.hundredths, motion]
      exact ⟨bound request.lparam, bound request.rparam⟩
  | stop =>
      simp only [MotionEvent.hundredths, motion]
      decide

private theorem step_fits {axis : Int × Int →+ Int} {event : MotionEvent Rat}
    (bound : |axis event.hundredths| ≤ 2 ^ 31)
    (earlier : List (MotionEvent Rat)) :
    -2 ^ 31 ≤ step truncate (carriedOver axis earlier) (event.axisInput axis) ∧
      step truncate (carriedOver axis earlier) (event.axisInput axis) <
        2 ^ 31 := by
  cases motion : event.motion with
  | move request =>
      have below := abs_step_lt abs_sub_truncate_lt abs_truncate_le
        (axisInputs axis earlier) ((axis event.hundredths : Rat) / 100)
      have exactBound : |(axis event.hundredths : Rat)| ≤ 2 ^ 31 := by
        exact_mod_cast bound
      simp only [MotionEvent.axisInput, motion, carriedOver]
      generalize step truncate _ _ = units at below ⊢
      rw [abs_div] at below
      have small : |(units : Rat)| < 2 ^ 31 := by
        norm_num at below ⊢
        linarith
      have smallInt : |units| < 2 ^ 31 := by exact_mod_cast small
      obtain ⟨lower, upper⟩ := abs_lt.mp smallInt
      exact ⟨lower.le, upper⟩
  | stop =>
      simp only [MotionEvent.axisInput, motion, step]
      decide

private theorem noDrift_of_sums {axis : Int × Int →+ Int} {start : World Rat}
    {history : List (MotionEvent Rat)}
    (total : axis (emittedMoves start history).sum =
      emitted truncate (axisInputs axis history))
    (since : axis (emittedSinceStop start history).sum =
      emittedSince truncate (axisInputs axis history))
    (fits : ∀ movement ∈ emittedMoves start history,
      -2 ^ 31 ≤ axis movement ∧ axis movement < 2 ^ 31) :
    NoDrift axis start history (carriedOver axis history) where
  small := abs_residue_lt abs_sub_truncate_lt _
  balance := by
    have exactly := emittedSince_add_residue truncate (axisInputs axis history)
    rw [requestedSince_axisInputs, ← since] at exactly
    rw [carriedOver]
    linarith
  drift := by
    have near := abs_emitted_sub_requested_lt abs_sub_truncate_lt
      (axisInputs axis history)
    rwa [requested_axisInputs, resets_axisInputs, ← total] at near
  fits := fits

/-- The motion of a client of protocol version 3 does not drift. -/
theorem subpixels_noDrift {start : World Rat} {uid : UInt32}
    (carries : start.Carries uid 0) {history : List (MotionEvent Rat)}
    (sent : ∀ event ∈ history, event.uid = uid) :
    ∃ residue,
      (start.afterMotion history).Carries uid residue ∧
        NoDrift (.fst _ _) start history residue.1 ∧
        NoDrift (.snd _ _) start history residue.2 := by
  have total := sum_emittedMoves carries sent
  have since := sum_emittedSinceStop carries sent
  refine ⟨_, afterMotion_carries carries sent, ?_, ?_⟩
  · apply noDrift_of_sums (congrArg Prod.fst total) (congrArg Prod.fst since)
    intro movement member
    obtain ⟨event, earlier, rfl⟩ := movement_eq_step carries sent member
    exact @step_fits (.fst _ _) event (abs_hundredths_le event).1 earlier
  · apply noDrift_of_sums (congrArg Prod.snd total) (congrArg Prod.snd since)
    intro movement member
    obtain ⟨event, earlier, rfl⟩ := movement_eq_step carries sent member
    exact @step_fits (.snd _ _) event (abs_hundredths_le event).2 earlier

/-! ## A client of version 3 -/

def smoothAuthorize : YAEvent Rat :=
  { legacyAuthorize with
    param := some (.authorizeRequest { type := CLIENT_IOS, version := 3 }) }

/-- The first client authorizes itself again, with version 3. -/
def World.smooth : World Rat :=
  (handleAuthorize (some 16) smoothAuthorize World.legacyPair).2

/-- A pixel and a half to the right, two pixels and a quarter to the left, and
a stop. -/
def smoothHistory : List (MotionEvent Rat) :=
  [legacyStop 1 { sec := 0, nsec := 2 },
    legacyMove 1 (-225) { sec := 0, nsec := 1 },
    legacyMove 1 150 { sec := 0, nsec := 0 }]

private theorem smooth_carries : World.smooth.Carries 1 0 :=
  ⟨_, _, rfl, by decide +kernel, by decide, rfl, rfl⟩

example : emittedMoves World.smooth smoothHistory = [(-1, 0), (1, 0)] := by
  decide +kernel

theorem smooth_noDrift :
    ∃ residue,
      (World.smooth.afterMotion smoothHistory).Carries 1 residue ∧
        NoDrift (.fst _ _) World.smooth smoothHistory residue.1 ∧
        NoDrift (.snd _ _) World.smooth smoothHistory residue.2 :=
  subpixels_noDrift smooth_carries (by decide)

end MouseHero
