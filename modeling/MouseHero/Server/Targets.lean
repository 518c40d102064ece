import MouseHero.Server.FrameConditions

/-!
# The client that an event names

Three handlers look for a client by the `uid` in the header of the event and
change its mouse filter, whoever has sent the event.
-/

namespace MouseHero

open FaultM CFloat YaClientManager

variable {F : Type} [CFloat F]

/-! ## The filter afterwards -/

/-- The scale that `handle_session_option` sets. -/
def acceptedScale (request : YASessionOptionEventRequest F) : F :=
  if le request.pointerScale (constantf 0) then constantf 1
  else request.pointerScale

/-- A displacement in pixels, from hundredths. -/
def pixels (hundredths : Int32) : F :=
  div (ofInt hundredths.toInt) (constant 100)

/-- What a filter keeps of a displacement in fractions of pixels. -/
def keepFractions (request : YACommonEventRequest) (filter : YaMouseFilter F) :
    YaMouseFilter F :=
  { filter with
    fracX := (quantize (addf filter.fracX (pixels request.lparam))).2
    fracY := (quantize (addf filter.fracY (pixels request.rparam))).2 }

/-- The throttle after a displacement, and what it lets out. -/
def throttled (world : World F) (request : YACommonEventRequest) :
    YAMouseThrottleState × Option (Int × Int) :=
  yaMouseThrottleCollect F world.throttle
    (roundPixels (pixels request.lparam : F))
    (roundPixels (pixels request.rparam : F)) false world.clock

/-- What a displacement that has left the throttle makes of the filter. -/
def filterAfterOutput (client : YaClient F) :
    Option (Int × Int) → Option (YaMouseFilter F)
  | none => client.mouseFilter
  | some (outDx, outDy) =>
      client.mouseFilter.map fun filter =>
        (yaMouseFilterProcess filter outDx outDy).1

/-- The filter of the client that a move names. -/
def filterAfterMove (world : World F) (event : YAEvent F)
    (client : YaClient F) : Option (YaMouseFilter F) :=
  match event.param with
  | some (.common request) =>
      if event.paramLen ≠ 8 then client.mouseFilter
      else if 3 ≤ client.protocolVersion then
        client.mouseFilter.map (keepFractions request)
      else filterAfterOutput client (throttled world request).2
  | _ => client.mouseFilter

/-- The filter of the client that an event names, after its handler. -/
def filterAfter (world : World F) (event : YAEvent F) (client : YaClient F) :
    YAEventType → Option (YaMouseFilter F)
  | .sessionOption =>
      match event.param with
      | some (.sessionOption request) =>
          client.mouseFilter.map fun filter =>
            yaMouseFilterSetPointerScale filter (acceptedScale request)
      | _ => client.mouseFilter
  | .mouseMove => filterAfterMove world event client
  | .mouseStop => client.mouseFilter.map yaMouseFilterResetState
  | _ => client.mouseFilter

/-! ## The handlers -/

/-- The computation returns, and leaves the client with this filter. -/
def LeavesFilter {Answer : Type} (computation : ServerM F Answer)
    (world : World F) (client : YaClient F)
    (mouseFilter : Option (YaMouseFilter F)) : Prop :=
  ∃ value reached,
    computation world = (.ok value, reached) ∧
      reached.manager.deref client.addr = some { client with mouseFilter }

section Handlers

variable {Answer : Type} {world : World F} {client : YaClient F}
variable {event : YAEvent F} {mouseFilter : Option (YaMouseFilter F)}

omit [CFloat F] in
theorem LeavesFilter.bind {Next : Type} {first : ServerM F Answer}
    {next : Answer → ServerM F Next} {final : Option (YaMouseFilter F)}
    (leaves : LeavesFilter first world client mouseFilter)
    (later : ∀ value reached,
      reached.manager.deref client.addr = some { client with mouseFilter } →
        LeavesFilter (next value) reached client final) :
    LeavesFilter (first >>= next) world client final := by
  obtain ⟨value, reached, returned, stored⟩ := leaves
  obtain ⟨answer, last, returnedLast, storedLast⟩ := later value reached stored
  exact ⟨answer, last, (bind_of_ok returned).trans returnedLast, storedLast⟩

omit [CFloat F] in
theorem pure_leaves (value : Answer)
    (stored : world.manager.deref client.addr =
      some { client with mouseFilter }) :
    LeavesFilter (pure value) world client mouseFilter :=
  ⟨value, world, rfl, stored⟩

omit [CFloat F] in
theorem onDevices_leaves (computation : DeviceM Answer)
    (stored : world.manager.deref client.addr =
      some { client with mouseFilter }) :
    LeavesFilter (onDevices computation) world client mouseFilter := by
  obtain ⟨answer, -, returned⟩ := onDevices_apply computation world
  exact ⟨answer, _, returned, stored⟩

omit [CFloat F] in
theorem setThrottle_leaves (throttle : YAMouseThrottleState)
    (stored : world.manager.deref client.addr =
      some { client with mouseFilter }) :
    LeavesFilter (setThrottle throttle) world client mouseFilter :=
  ⟨_, _, modifyState_apply _ _, stored⟩

omit [CFloat F] in
theorem writeFilter_leaves
    (stored : world.manager.deref client.addr =
      some { client with mouseFilter })
    (change : YaClient F → Option (YaMouseFilter F)) :
    LeavesFilter
      (writeClient client.addr fun entry =>
        { entry with mouseFilter := change entry })
      world client (change { client with mouseFilter }) := by
  have written := @deref_write F world.manager client.addr
    (fun entry => { entry with mouseFilter := change entry }) fun _ => rfl
  rw [stored] at written
  exact ⟨_, _, modifyState_apply _ _, written⟩

private theorem moveFiltered_leaves
    (stored : world.manager.deref client.addr = some client)
    (outDx outDy : Int) :
    LeavesFilter (moveFiltered client outDx outDy) world client
      (filterAfterOutput client (some (outDx, outDy))) := by
  cases carried : client.mouseFilter with
  | none =>
      simp only [moveFiltered, filterAfterOutput, carried, Option.map_none]
      apply onDevices_leaves
      rw [stored, ← carried]
  | some filter =>
      simp only [moveFiltered, filterAfterOutput, carried, Option.map_some]
      exact (writeFilter_leaves stored _).bind fun _ reached written =>
        onDevices_leaves _ written

private theorem moveSubpixels_leaves
    (stored : world.manager.deref client.addr = some client)
    (request : YACommonEventRequest) :
    LeavesFilter
      (moveSubpixels client (pixels request.lparam) (pixels request.rparam))
      world client (client.mouseFilter.map (keepFractions request)) := by
  unfold moveSubpixels
  cases carried : client.mouseFilter with
  | none =>
      apply pure_leaves
      rw [stored, Option.map_none, ← carried]
  | some filter =>
      exact (writeFilter_leaves stored _).bind fun _ reached written =>
        onDevices_leaves _ written

/-- A throttle operation, and the movement that it lets out. -/
theorem emit_leaves
    (stored : world.manager.deref client.addr = some client)
    (step : World F → YAMouseThrottleState × Option (Int × Int)) :
    LeavesFilter
      (do
        let world ← getState
        setThrottle (step world).1
        match (step world).2 with
        | none => return ()
        | some (outDx, outDy) => moveFiltered client outDx outDy)
      world client (filterAfterOutput client (step world).2) := by
  rw [LeavesFilter, bind_of_ok (getState_apply world)]
  apply (setThrottle_leaves _ stored).bind
  intro _ reached kept
  cases (step world).2 with
  | none => exact pure_leaves _ kept
  | some output => exact moveFiltered_leaves kept _ _

private theorem moveClient_leaves
    (stored : world.manager.deref client.addr = some client)
    (request : YACommonEventRequest) :
    LeavesFilter
      (if 3 ≤ client.protocolVersion then do
        moveSubpixels client (pixels request.lparam) (pixels request.rparam)
        return (none : Option (YAEvent F))
      else do
        moveThrottled client (pixels request.lparam) (pixels request.rparam)
        return none)
      world client
      (if 3 ≤ client.protocolVersion then
        client.mouseFilter.map (keepFractions request)
      else filterAfterOutput client (throttled world request).2) := by
  split
  · exact (moveSubpixels_leaves stored request).bind
      fun _ reached kept => pure_leaves none kept
  · have emitted := emit_leaves stored fun world => throttled world request
    exact emitted.bind fun _ reached kept => pure_leaves none kept

/-- A filter is reset whatever has been processed before. -/
theorem filterAfterOutput_reset (client : YaClient F)
    (output : Option (Int × Int)) :
    (filterAfterOutput client output).map yaMouseFilterResetState =
      client.mouseFilter.map yaMouseFilterResetState := by
  cases output with
  | none => rfl
  | some output =>
      simp only [filterAfterOutput, Option.map_map, Function.comp_def,
        yaMouseFilterProcess_reset]

variable (stored : world.manager.deref client.addr = some client)

include stored

omit [CFloat F] in
theorem deref_of_framed {computation : ServerM F Answer}
    (framed : Framed id computation world) :
    (computation world).2.manager.deref client.addr = some client := by
  have same := deref_of_view_eq framed.1.clients (fun _ => rfl) client.addr
  simp only [stored, Option.map_id_fun, id] at same
  exact same.symm

omit [CFloat F] stored in
theorem LeavesFilter.deref {computation : ServerM F Answer}
    (leaves : LeavesFilter computation world client mouseFilter) :
    (computation world).2.manager.deref client.addr =
      some { client with mouseFilter } := by
  obtain ⟨value, reached, returned, kept⟩ := leaves
  rw [returned]
  exact kept

variable (found :
  yaClientFindByUid world.manager event.header.uid = some client)

include found

theorem handleSessionOption_filter (bev : Option BevId) :
    (handleSessionOption bev event world).2.manager.deref client.addr =
      some { client with
        mouseFilter := filterAfter world event client .sessionOption } := by
  cases carried : event.param with
  | none =>
      simp only [handleSessionOption, filterAfter, carried]
      exact stored
  | some param =>
      cases param
      case sessionOption request =>
        have written := (writeFilter_leaves stored fun entry =>
            entry.mouseFilter.map fun filter =>
              yaMouseFilterSetPointerScale filter (acceptedScale request)).bind
          fun _ reached kept => pure_leaves (none : Option (YAEvent F)) kept
        simp only [handleSessionOption, filterAfter, carried]
        rw [bind_of_ok (getState_apply world), found]
        exact written.deref
      all_goals
        simp only [handleSessionOption, filterAfter, carried]
        rw [bind_of_ok (getState_apply world), found]
        exact stored

theorem handleMouseMove_filter (bev : Option BevId) :
    (handleMouseMove bev event world).2.manager.deref client.addr =
      some { client with
        mouseFilter := filterAfter world event client .mouseMove } := by
  cases carried : event.param with
  | none =>
      simp only [handleMouseMove, commonRequest, filterAfter, filterAfterMove,
        carried]
      exact stored
  | some param =>
      by_cases wrong : event.paramLen ≠ 8
      · simp only [handleMouseMove, commonRequest, filterAfter,
          filterAfterMove, carried, if_pos wrong]
        cases param <;> exact stored
      · cases param
        case common request =>
          simp only [handleMouseMove, commonRequest, filterAfter,
            filterAfterMove, carried, if_neg wrong]
          rw [bind_pure_apply]
          simp only
          rw [bind_of_ok (getState_apply world), found]
          exact (moveClient_leaves stored request).deref
        all_goals
          simp only [handleMouseMove, commonRequest, filterAfter,
            filterAfterMove, carried, if_neg wrong]
          exact stored

theorem handleMouseStop_filter (bev : Option BevId) :
    (handleMouseStop bev event world).2.manager.deref client.addr =
      some { client with
        mouseFilter := filterAfter world event client .mouseStop } := by
  rw [handleMouseStop, bind_of_ok (getState_apply world), found]
  simp only [filterAfter]
  split
  · exact ((writeFilter_leaves stored _).bind fun _ reached kept =>
      pure_leaves none kept).deref
  · have flushed := emit_leaves stored fun world =>
      yaMouseThrottleFlush world.throttle world.clock
    rw [← filterAfterOutput_reset client
      (yaMouseThrottleFlush world.throttle world.clock).2]
    refine LeavesFilter.deref (flushed.bind fun _ emptied kept => ?_)
    refine (writeFilter_leaves kept _).bind fun _ rested atRest => ?_
    rw [LeavesFilter, bind_of_ok (getState_apply rested)]
    exact (setThrottle_leaves _ atRest).bind fun _ last kept =>
      pure_leaves none kept

/-- What a handler does to the client that the event names. -/
theorem eventHandler_filter {type : YAEventType} (other : type ≠ .authorize)
    (bev : Option BevId) :
    (eventHandler type bev event world).2.manager.deref client.addr =
      some { client with
        mouseFilter := filterAfter world event client type } := by
  cases type with
  | authorize => exact absurd rfl other
  | mouseMove => exact handleMouseMove_filter stored found bev
  | mouseStop => exact handleMouseStop_filter stored found bev
  | sessionOption => exact handleSessionOption_filter stored found bev
  | mouseClick => exact deref_of_framed stored (handleMouseClick_framed bev event)
  | mouseWheel => exact deref_of_framed stored (handleMouseScroll_framed bev event)
  | keyboard => exact deref_of_framed stored (handleKeyboard_framed bev event)
  | textInput => exact deref_of_framed stored (handleInputText_framed bev event)
  | textGet => exact deref_of_framed stored (handleInputGet_framed bev event)
  | discover => exact deref_of_framed stored (handleDiscover_framed bev event)
  | control => exact deref_of_framed stored (handleControl_framed bev event)
  | heartbeat => exact stored

end Handlers

/-! ## Events that change the filter -/

/-- Averages and residues are zero. -/
def YaMouseFilter.AtRest (filter : YaMouseFilter F) : Prop :=
  filter.vex = constantf 0 ∧ filter.vey = constantf 0 ∧
    filter.fracX = constantf 0 ∧ filter.fracY = constantf 0

/-- The event is not without effect on the mouse filter of the client. -/
inductive Disturbs (world : World F) (event : YAEvent F)
    (client : YaClient F) : YAEventType → Prop
  | scale (request : YASessionOptionEventRequest F)
      (filter : YaMouseFilter F) :
      event.param = some (.sessionOption request) →
      client.mouseFilter = some filter →
      filter.pointerScale ≠
        fmax (constantf (1 / 10)) (acceptedScale request) →
      Disturbs world event client .sessionOption
  | stop (filter : YaMouseFilter F) :
      client.mouseFilter = some filter →
      ¬ filter.AtRest →
      Disturbs world event client .mouseStop
  | fractions (request : YACommonEventRequest) (filter : YaMouseFilter F) :
      event.param = some (.common request) →
      event.paramLen = 8 →
      3 ≤ client.protocolVersion →
      client.mouseFilter = some filter →
      (filter.fracX ≠ (quantize (addf filter.fracX (pixels request.lparam))).2 ∨
        filter.fracY ≠
          (quantize (addf filter.fracY (pixels request.rparam))).2) →
      Disturbs world event client .mouseMove
  | output (request : YACommonEventRequest) (filter : YaMouseFilter F)
      (outDx outDy : Int) :
      event.param = some (.common request) →
      event.paramLen = 8 →
      ¬ 3 ≤ client.protocolVersion →
      client.mouseFilter = some filter →
      (throttled world request).2 = some (outDx, outDy) →
      filter ≠ (yaMouseFilterProcess filter outDx outDy).1 →
      Disturbs world event client .mouseMove

theorem resetState_eq_self_iff (filter : YaMouseFilter F) :
    yaMouseFilterResetState filter = filter ↔ filter.AtRest := by
  cases filter
  simp [yaMouseFilterResetState, YaMouseFilter.AtRest, eq_comm]

omit [CFloat F] in
theorem map_eq_self_iff {mouseFilter : Option (YaMouseFilter F)}
    {change : YaMouseFilter F → YaMouseFilter F} :
    mouseFilter.map change = mouseFilter ↔
      ∀ filter, mouseFilter = some filter → change filter = filter := by
  cases mouseFilter with
  | none => simp
  | some filter => simp

section Effects

variable (world : World F) (event : YAEvent F) (client : YaClient F)

private theorem filterAfter_sessionOption_iff :
    filterAfter world event client .sessionOption = client.mouseFilter ↔
      ¬ Disturbs world event client .sessionOption := by
  constructor
  · rintro same ⟨request, filter, carried, isFilter, different⟩
    simp only [filterAfter, carried, map_eq_self_iff] at same
    have scale := congrArg YaMouseFilter.pointerScale (same filter isFilter)
    exact different scale.symm
  · intro quiet
    simp only [filterAfter]
    split
    · rename_i request carried
      refine map_eq_self_iff.mpr fun filter isFilter => ?_
      have current : filter.pointerScale =
          fmax (constantf (1 / 10)) (acceptedScale request) := by
        by_contra different
        exact quiet (.scale request filter carried isFilter different)
      rw [yaMouseFilterSetPointerScale, ← current]
    · rfl

private theorem filterAfter_mouseStop_iff :
    filterAfter world event client .mouseStop = client.mouseFilter ↔
      ¬ Disturbs world event client .mouseStop := by
  simp only [filterAfter, map_eq_self_iff, resetState_eq_self_iff]
  constructor
  · rintro same ⟨⟩
    rename_i filter isFilter moving
    exact moving (same filter isFilter)
  · intro quiet filter isFilter
    by_contra moving
    exact quiet (.stop filter isFilter moving)

private theorem filterAfter_mouseMove_iff :
    filterAfter world event client .mouseMove = client.mouseFilter ↔
      ¬ Disturbs world event client .mouseMove := by
  constructor
  · intro same disturbs
    cases disturbs with
    | fractions request filter carried length version isFilter different =>
        simp only [filterAfter, filterAfterMove, carried, length, ne_eq,
          not_true_eq_false, if_false, version, if_true, map_eq_self_iff]
          at same
        have kept := same filter isFilter
        rcases different with differentX | differentY
        · exact differentX (congrArg YaMouseFilter.fracX kept).symm
        · exact differentY (congrArg YaMouseFilter.fracY kept).symm
    | output request filter outDx outDy carried length version isFilter emits
        different =>
        simp only [filterAfter, filterAfterMove, carried, length, ne_eq,
          not_true_eq_false, if_false, version, emits, filterAfterOutput,
          map_eq_self_iff] at same
        exact different (same filter isFilter).symm
  · intro quiet
    simp only [filterAfter]
    unfold filterAfterMove
    split
    · rename_i request carried
      split
      · rfl
      rename_i length
      have isLength : event.paramLen = 8 := not_not.mp length
      split
      · rename_i version
        refine map_eq_self_iff.mpr fun filter isFilter => ?_
        have kept :
            filter.fracX =
                (quantize (addf filter.fracX (pixels request.lparam))).2 ∧
              filter.fracY =
                (quantize (addf filter.fracY (pixels request.rparam))).2 := by
          by_contra different
          exact quiet (.fractions request filter carried isLength version
            isFilter (not_and_or.mp different))
        rw [keepFractions, ← kept.1, ← kept.2]
      · rename_i version
        cases emits : (throttled world request).2 with
        | none => rfl
        | some output =>
            refine map_eq_self_iff.mpr fun filter isFilter => ?_
            by_contra different
            exact quiet (.output request filter output.1 output.2 carried
              isLength version isFilter emits (Ne.symm different))
    · rfl

/-- The filter is another one if and only if the event is not without effect on
it. -/
theorem filterAfter_eq_iff (type : YAEventType) :
    filterAfter world event client type = client.mouseFilter ↔
      ¬ Disturbs world event client type := by
  cases type with
  | sessionOption => exact filterAfter_sessionOption_iff world event client
  | mouseStop => exact filterAfter_mouseStop_iff world event client
  | mouseMove => exact filterAfter_mouseMove_iff world event client
  | _ => exact iff_of_true rfl nofun

end Effects

end MouseHero
