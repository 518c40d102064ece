import MouseHero.Input.FilterRange
import MouseHero.Library.Runs
import MouseHero.Server.Throttling

/-!
# The sensitivity that a client chooses

SESSION_OPTION sets the scale of the mouse filter, and only from below is there
a limit.  The displacements that leave the throttle decide whether the filter
converts values to `int` that fit.
-/

namespace MouseHero

open CFloat YaClientManager

/-! ## Events -/

section Events

variable {F : Type} [CFloat F]

/-- An event that reaches the mouse filter of a client. -/
inductive PointerEvent (F : Type) where
  | option (bev : Option BevId) (event : YAEvent F)
      (request : YASessionOptionEventRequest F)
      (carries : event.param = some (.sessionOption request))
  | motion (event : MotionEvent F)

/-- The mouse filter of the client that a `uid` names. -/
def World.filterOf (world : World F) (uid : UInt32) : Option (YaMouseFilter F) :=
  (yaClientFindByUid world.manager uid).bind YaClient.mouseFilter

namespace PointerEvent

def uid : PointerEvent F → UInt32
  | .option _ event _ _ => event.header.uid
  | .motion event => event.uid

/-- The world afterwards. -/
def handle (event : PointerEvent F) (world : World F) : World F :=
  match event with
  | .option bev event _ _ => (eventHandler .sessionOption bev event world).2
  | .motion event => event.handle world

def step (world : World F) (event : PointerEvent F) : Option (World F) :=
  some (event.handle world)

/-- The displacement for which the handler calls `ya_mouse_filter_process`, if it
does. -/
def output (event : PointerEvent F) (world : World F) : Option (Int × Int) :=
  match event with
  | .option .. => none
  | .motion event => event.output world

/-- What the event makes of the filter. -/
def next (event : PointerEvent F) (world : World F) (filter : YaMouseFilter F) :
    YaMouseFilter F :=
  match event with
  | .option _ _ request _ => yaMouseFilterSetPointerScale filter (acceptedScale request)
  | .motion event =>
      match event.motion with
      | .move _ =>
          match event.output world with
          | none => filter
          | some (outDx, outDy) => (yaMouseFilterProcess filter outDx outDy).1
      | .stop => yaMouseFilterResetState filter

end PointerEvent

variable {world : World F} {event : PointerEvent F} {client : YaClient F}
variable {filter : YaMouseFilter F}

theorem MotionEvent.filterAfter_legacy {event : MotionEvent F}
    (legacy : ¬ 3 ≤ client.protocolVersion)
    (filtered : client.mouseFilter = some filter) :
    filterAfter (event.arrives world) event.event client event.type =
      some ((PointerEvent.motion event).next world filter) := by
  cases motion : event.motion with
  | move request =>
      obtain ⟨carried, length⟩ := event.carries request motion
      simp only [MotionEvent.type, PointerEvent.next, MotionEvent.output, motion,
        filterAfter, filterAfterMove, carried, length, if_neg legacy, ne_eq,
        not_true_eq_false, if_false]
      cases (throttled (event.arrives world) request).2 with
      | none => exact filtered
      | some output => rw [filterAfterOutput, filtered, Option.map_some]
  | stop =>
      simp only [MotionEvent.type, PointerEvent.next, motion, filterAfter, filtered,
        Option.map_some]

theorem PointerEvent.handle_found
    (found : yaClientFindByUid world.manager event.uid = some client)
    (once : (world.manager.clients.map YaClient.addr).Nodup)
    (legacy : ¬ 3 ≤ client.protocolVersion)
    (filtered : client.mouseFilter = some filter) :
    yaClientFindByUid (event.handle world).manager event.uid =
        some { client with mouseFilter := some (event.next world filter) } ∧
      ((event.handle world).manager.clients.map YaClient.addr).Nodup := by
  cases event with
  | option bev event request carries =>
      have other : YAEventType.sessionOption ≠ .authorize := nofun
      have after := eventHandler_found other bev found once
      simp only [filterAfter, carries, filtered, Option.map_some] at after
      exact after
  | motion event =>
      have after := @eventHandler_found _ _ (event.arrives world) _
        event.type_ne_authorize event.bev _ _ found once
      rw [event.filterAfter_legacy legacy filtered] at after
      exact after

end Events

/-! ## Runs -/

section Runs

variable {K : Type} [Field K] [LinearOrder K] [IsStrictOrderedRing K] [FloorRing K]
variable [arithmetic : CFloat K]

/-- The `uid` is that of an active client of a protocol before version 3, with a
regular filter. -/
structure World.Regular (world : World K) (uid : UInt32) : Prop where
  serves : world.ServesLegacy uid
  once : (world.manager.clients.map YaClient.addr).Nodup
  filtered : ∃ filter, world.filterOf uid = some filter ∧ filter.Regular

/-- The event is one of the client, and with the highest gain the displacement that
it hands to the filter fits into `int`. -/
def Moderate (uid : UInt32) (world : World K) (event : PointerEvent K) : Prop :=
  event.uid = uid ∧
    ∀ filter ∈ world.filterOf uid, ∀ output ∈ event.output world,
      FitsTripled filter.pointerScale output.1 output.2

instance (uid : UInt32) (world : World K) (event : PointerEvent K) :
    Decidable (Moderate uid world event) :=
  inferInstanceAs (Decidable (_ ∧ _))

variable (isExact : CFloat.ExactWithin arithmetic)
variable {uid : UInt32} {start world last : World K} {event : PointerEvent K}
variable {events : List (PointerEvent K)} {filter : YaMouseFilter K}

include isExact

theorem PointerEvent.next_regular (regular : filter.Regular)
    (fits : ∀ output ∈ event.output world,
      FitsTripled filter.pointerScale output.1 output.2) :
    (event.next world filter).Regular := by
  cases event with
  | option bev event request carries => exact regular.setPointerScale isExact _
  | motion event =>
      change ∀ output ∈ event.output world, _ at fits
      rw [PointerEvent.next]
      cases event.motion with
      | move request =>
          cases emits : event.output world with
          | none => exact regular
          | some output => exact regular.process isExact (fits output emits)
      | stop => exact regular.resetState isExact

theorem World.Regular.handle (regular : world.Regular uid)
    (moderate : Moderate uid world event) : (event.handle world).Regular uid := by
  obtain ⟨rfl, fits⟩ := moderate
  obtain ⟨⟨client, found, legacy⟩, once, filter, isFilter, isRegular⟩ := regular
  have filtered : client.mouseFilter = some filter := by
    rwa [World.filterOf, found, Option.bind_some] at isFilter
  obtain ⟨foundAfter, onceAfter⟩ :=
    PointerEvent.handle_found found once legacy filtered
  refine ⟨⟨_, foundAfter, legacy⟩, onceAfter, event.next world filter, ?_, ?_⟩
  · rw [World.filterOf, foundAfter, Option.bind_some]
  · exact PointerEvent.next_regular isExact isRegular (fits filter isFilter)

/-- In a run of events whose displacements fit even with the highest gain, the
filter stays regular, and a call converts only values that fit and carries less than
a pixel over.  No wider condition on scale and displacement is enough for every
velocity. -/
theorem sensitivity_quantises (begins : start.Regular uid)
    (run : Run PointerEvent.step (Moderate uid) start events last) :
    last.Regular uid ∧
      (∀ event, Moderate uid last event →
        ∀ filter, last.filterOf uid = some filter →
          ∀ outDx outDy, event.output last = some (outDx, outDy) →
            (∀ value ∈ conversions filter outDx outDy, FitsInt value) ∧
              (yaMouseFilterProcess filter outDx outDy).1.Subpixel) ∧
      ∀ (scale : K) (outDx outDy : Int), 0 ≤ scale →
        ((∀ filter : YaMouseFilter K, filter.algorithmsEnabled = true →
            filter.pointerScale = scale → filter.Subpixel →
            ∀ value ∈ conversions filter outDx outDy, FitsInt value) ↔
          FitsTripled scale outDx outDy) := by
  have regular : last.Regular uid := by
    refine run.preserves (World.Regular · uid) ?_ begins
    rintro before after event moderate ⟨rfl⟩ isRegular
    exact isRegular.handle isExact moderate
  refine ⟨regular, fun event moderate filter isFilter outDx outDy emits => ?_,
    fun scale outDx outDy scaled => conversions_fit_iff isExact scaled⟩
  obtain ⟨other, isOther, isRegular⟩ := regular.filtered
  obtain rfl := Option.some.inj (isOther.symm.trans isFilter)
  have fits := moderate.2 other isFilter (outDx, outDy) emits
  exact ⟨conversions_fit isExact isRegular.scaled isRegular.subpixel fits,
    (isRegular.process isExact fits).subpixel⟩

end Runs

/-! ## The scale of a client -/

/-- The first client of two chooses a sensitivity. -/
def sensitivity (pointerScale : Rat) : PointerEvent Rat :=
  .option none
    { header := {
        type := YAEventType.sessionOption.code, direction := REQUEST, index := 1,
        uid := 1 }
      param := some (.sessionOption { pointerScale })
      paramLen := 4 }
    { pointerScale } rfl

/-- The first client moves by three pixels. -/
def threePixels : PointerEvent Rat :=
  .motion (legacyMove 1 300 { sec := 0, nsec := 0 })

theorem legacyPair_regular : World.legacyPair.Regular 1 := by
  refine ⟨?_, by decide +kernel, _, rfl, regular_create CFloat.exactWithin_exact⟩
  obtain ⟨client, found, version⟩ := legacyPair_version 1 (Or.inl rfl)
  exact ⟨client, found, by rw [version]; decide⟩

theorem sensitivity_quantises_double :
    ((sensitivity 2).handle World.legacyPair).Regular 1 ∧
      ∀ value ∈ conversions
          (yaMouseFilterSetPointerScale (yaMouseFilterCreate : YaMouseFilter Rat) 2)
          3 0,
        FitsInt value := by
  have run : Run PointerEvent.step (Moderate 1) World.legacyPair [sensitivity 2]
      ((sensitivity 2).handle World.legacyPair) :=
    .single (by decide +kernel) rfl
  obtain ⟨regular, quantises, -⟩ :=
    sensitivity_quantises CFloat.exactWithin_exact legacyPair_regular run
  exact ⟨regular, (quantises threePixels (by decide +kernel) _ rfl 3 0
    (by decide +kernel)).1⟩

/-- With a scale of a thousand million, three pixels are more than `int` holds. -/
theorem hugeScale_overflows :
    World.legacyPair.Regular 1 ∧ (sensitivity 1000000000).uid = 1 ∧
      threePixels.uid = 1 ∧
      ∃ filter,
        ((sensitivity 1000000000).handle World.legacyPair).filterOf 1 = some filter ∧
          threePixels.output ((sensitivity 1000000000).handle World.legacyPair) =
            some (3, 0) ∧
          conversions filter 3 0 = [3000000000] ∧ ¬ FitsInt (3000000000 : Rat) :=
  ⟨legacyPair_regular, rfl, rfl, _, rfl, by decide +kernel, by decide +kernel,
    by decide +kernel⟩

end MouseHero
