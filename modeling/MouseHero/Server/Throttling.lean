import MouseHero.Library.SharedAccumulator
import MouseHero.Server.Session
import MouseHero.Server.Targets

/-!
# The motion of several clients

Each client has a mouse filter of its own, but the throttle in front of the
filters is one for the whole server.  What it has accumulated is handed to the
filter of the client whose event lets it out.
-/

namespace MouseHero

open FaultM CFloat YaClientManager

variable {F : Type} [CFloat F]

/-! ## The handlers -/

/-- Hand what the throttle has let out to the filter of a client. -/
def handOver (client : YaClient F) : Option (Int × Int) → ServerM F Unit
  | none => return ()
  | some (outDx, outDy) => moveFiltered client outDx outDy

section Handlers

variable {world : World F} {client : YaClient F} {event : YAEvent F}
variable (found : yaClientFindByUid world.manager event.header.uid = some client)
variable (legacy : ¬ 3 ≤ client.protocolVersion)

include found legacy

/-- A move goes into the throttle, and what comes out to the client. -/
theorem handleMouseMove_legacy {request : YACommonEventRequest}
    (carried : event.param = some (.common request))
    (length : event.paramLen = 8) (bev : Option BevId) :
    handleMouseMove bev event world =
      (do
        setThrottle (throttled world request).1
        handOver client (throttled world request).2
        return (none : Option (YAEvent F))) world := by
  rw [handleMouseMove, bind_of_ok (commonRequest_of_some carried length)]
  simp only
  rw [bind_of_ok (getState_apply world), found]
  simp only [if_neg legacy]
  rfl

/-- A stop lets out to the client whatever is in the throttle. -/
theorem handleMouseStop_legacy (bev : Option BevId) :
    handleMouseStop bev event world =
      (do
        let flushed := yaMouseThrottleFlush world.throttle world.clock
        setThrottle flushed.1
        handOver client flushed.2
        resetFilter client
        let world ← getState
        setThrottle (yaMouseThrottleReset world.throttle)
        return (none : Option (YAEvent F))) world := by
  rw [handleMouseStop, bind_of_ok (getState_apply world), found]
  simp only [if_neg legacy]
  rfl

end Handlers

/-! ## Motion events -/

inductive Motion
  | move (request : YACommonEventRequest)
  | stop

/-- An event for one of the two handlers, and what the clock reads when it is
handled. -/
structure MotionEvent (F : Type) where
  bev : Option BevId
  event : YAEvent F
  time : Timespec
  motion : Motion
  carries :
    ∀ request, motion = .move request →
      event.param = some (.common request) ∧ event.paramLen = 8

namespace MotionEvent

def uid (event : MotionEvent F) : UInt32 :=
  event.event.header.uid

def type (event : MotionEvent F) : YAEventType :=
  match event.motion with
  | .move _ => .mouseMove
  | .stop => .mouseStop

/-- The displacement, rounded to whole pixels. -/
def displacement (event : MotionEvent F) : Int × Int :=
  match event.motion with
  | .move request =>
      (roundPixels (pixels request.lparam : F),
        roundPixels (pixels request.rparam : F))
  | .stop => 0

/-- The world in which the event is handled. -/
def arrives (event : MotionEvent F) (world : World F) : World F :=
  { world with clock := event.time }

/-- The world afterwards. -/
def handle (event : MotionEvent F) (world : World F) : World F :=
  (eventHandler event.type event.bev event.event (event.arrives world)).2

/-- What the throttle lets out, and the handler hands over. -/
def output (event : MotionEvent F) (world : World F) : Option (Int × Int) :=
  match event.motion with
  | .move request => (throttled (event.arrives world) request).2
  | .stop => (yaMouseThrottleFlush world.throttle event.time).2

/-- The event empties the throttle: it stops the motion, or the interval has
passed. -/
def empties (event : MotionEvent F) (world : World F) : Bool :=
  match event.motion with
  | .move _ => (world.throttle.adding event.displacement).due F event.time
  | .stop => true

end MotionEvent

/-- A client without its mouse filter. -/
def YaClient.unfiltered (client : YaClient F) : YaClient F :=
  { client with mouseFilter := none }

/-- The `uid` is that of an active client of a protocol before version 3. -/
def World.ServesLegacy (world : World F) (uid : UInt32) : Prop :=
  ∃ client,
    yaClientFindByUid world.manager uid = some client ∧
      ¬ 3 ≤ client.protocolVersion

omit [CFloat F] in
theorem World.ServesLegacy.of_view {before after : World F} {uid : UInt32}
    (serves : before.ServesLegacy uid)
    (same : before.manager.view YaClient.unfiltered =
      after.manager.view YaClient.unfiltered) : after.ServesLegacy uid := by
  obtain ⟨client, found, legacy⟩ := serves
  have hidden := findByUid_of_view_eq same (fun _ => rfl) (fun _ => rfl) uid
  rw [found] at hidden
  obtain ⟨entry, foundAfter, sameEntry⟩ :=
    Option.map_eq_some_iff.mp hidden.symm
  have version := congrArg YaClient.protocolVersion sameEntry
  refine ⟨entry, foundAfter, ?_⟩
  rwa [show entry.protocolVersion = client.protocolVersion from version]

section Handle

variable {event : MotionEvent F} {world : World F}

/-- No other handler than that of AUTHORIZE changes anything of the clients but
their filters. -/
theorem eventHandler_clients {type : YAEventType} (other : type ≠ .authorize)
    (bev : Option BevId) (event : YAEvent F) :
    world.manager.view YaClient.unfiltered =
      (eventHandler type bev event world).2.manager.view YaClient.unfiltered := by
  have forgets : ForgetsTarget YaClient.unfiltered world event :=
    fun _ _ _ _ _ => rfl
  exact (eventHandler_framed other bev forgets).1.clients

omit [CFloat F] in
theorem MotionEvent.type_ne_authorize : event.type ≠ .authorize := by
  unfold MotionEvent.type
  split <;> nofun

/-- Motion changes nothing of the clients but their filters. -/
theorem MotionEvent.handle_clients :
    world.manager.view YaClient.unfiltered =
      (event.handle world).manager.view YaClient.unfiltered :=
  @eventHandler_clients _ _ (event.arrives world) _ event.type_ne_authorize
    event.bev event.event

theorem eventHandler_found {type : YAEventType} (other : type ≠ .authorize)
    (bev : Option BevId) {event : YAEvent F} {client : YaClient F}
    (found : yaClientFindByUid world.manager event.header.uid = some client)
    (once : (world.manager.clients.map YaClient.addr).Nodup) :
    yaClientFindByUid (eventHandler type bev event world).2.manager
        event.header.uid =
        some { client with mouseFilter := filterAfter world event client type } ∧
      ((eventHandler type bev event world).2.manager.clients.map
        YaClient.addr).Nodup := by
  have same := @eventHandler_clients _ _ world _ other bev event
  have onceAfter : ((eventHandler type bev event world).2.manager.clients.map
      YaClient.addr).Nodup :=
    addresses_of_view_eq same (fun _ => rfl) ▸ once
  have stored : world.manager.deref client.addr = some client :=
    deref_eq_of_mem once (hasActive_of_findByUid found).1.1
  have hidden :=
    findByUid_of_view_eq same (fun _ => rfl) (fun _ => rfl) event.header.uid
  rw [found] at hidden
  obtain ⟨entry, foundAfter, sameEntry⟩ :=
    Option.map_eq_some_iff.mp hidden.symm
  have address : entry.unfiltered.addr = client.unfiltered.addr :=
    congrArg YaClient.addr sameEntry
  have isEntry := deref_eq_of_mem onceAfter (hasActive_of_findByUid foundAfter).1.1
  have isStored := eventHandler_filter stored found other bev
  change entry.addr = client.addr at address
  rw [address, isStored] at isEntry
  exact ⟨foundAfter.trans isEntry.symm, onceAfter⟩

omit [CFloat F] in
theorem setThrottle_apply (throttle : YAMouseThrottleState) (world : World F) :
    setThrottle throttle world = (.ok (), { world with throttle }) :=
  modifyState_apply _ world

private theorem resetFilter_apply (client : YaClient F) (world : World F) :
    ∃ manager,
      resetFilter client world = (.ok (), { world with manager }) := by
  rw [resetFilter, writeClient, modifyState_apply]
  exact ⟨_, rfl⟩

private theorem moveFiltered_throttle (client : YaClient F) (outDx outDy : Int)
    (world : World F) :
    ∃ reached,
      moveFiltered client outDx outDy world = (.ok (), reached) ∧
        reached.throttle = world.throttle := by
  unfold moveFiltered
  cases client.mouseFilter with
  | none =>
      obtain ⟨_, _, moved⟩ := onDevices_apply
        (moveSteps [{ dx := outDx, dy := outDy }]) world
      exact ⟨_, moved, rfl⟩
  | some filter =>
      obtain ⟨_, _, moved⟩ := onDevices_apply
        (moveSteps (yaMouseFilterProcess filter outDx outDy).2)
        { world with
          manager := world.manager.write client.addr fun entry =>
            { entry with
              mouseFilter := some (yaMouseFilterProcess filter outDx outDy).1 } }
      exact ⟨_, (bind_of_ok (modifyState_apply _ world)).trans moved, rfl⟩

private theorem handOver_throttle (client : YaClient F) (output : Option (Int × Int))
    (world : World F) :
    ∃ reached,
      handOver client output world = (.ok (), reached) ∧
        reached.throttle = world.throttle := by
  cases output with
  | none => exact ⟨world, rfl, rfl⟩
  | some output => exact moveFiltered_throttle client _ _ world

theorem MotionEvent.handle_throttle (serves : world.ServesLegacy event.uid) :
    (event.handle world).throttle =
      match event.motion with
      | .move request => (throttled (event.arrives world) request).1
      | .stop =>
          yaMouseThrottleReset
            (yaMouseThrottleFlush world.throttle event.time).1 := by
  obtain ⟨client, found, legacy⟩ := serves
  cases motion : event.motion with
  | move request =>
      obtain ⟨carried, length⟩ := event.carries request motion
      have isClient :
          yaClientFindByUid (event.arrives world).manager
            event.event.header.uid = some client := found
      have moves := handleMouseMove_legacy isClient legacy carried length
        event.bev
      obtain ⟨reached, handed, kept⟩ := handOver_throttle client
        (throttled (event.arrives world) request).2
        { event.arrives world with
          throttle := (throttled (event.arrives world) request).1 }
      rw [bind_of_ok (setThrottle_apply _ _), bind_of_ok handed] at moves
      simp only [MotionEvent.handle, MotionEvent.type, motion, eventHandler]
      rw [moves]
      exact kept
  | stop =>
      have isClient :
          yaClientFindByUid (event.arrives world).manager
            event.event.header.uid = some client := found
      have stops := handleMouseStop_legacy isClient legacy event.bev
      simp only at stops
      obtain ⟨reached, handed, kept⟩ := handOver_throttle client
        (yaMouseThrottleFlush (event.arrives world).throttle event.time).2
        { event.arrives world with
          throttle := (yaMouseThrottleFlush (event.arrives world).throttle
            event.time).1 }
      obtain ⟨manager, reset⟩ := resetFilter_apply client reached
      have clock : (event.arrives world).clock = event.time := rfl
      rw [clock] at stops
      rw [bind_of_ok (setThrottle_apply _ _), bind_of_ok handed,
        bind_of_ok reset, bind_of_ok (getState_apply _)] at stops
      simp only [MotionEvent.handle, MotionEvent.type, motion, eventHandler]
      rw [stops]
      exact congrArg yaMouseThrottleReset kept

/-- An event that empties the throttle lets out what has accumulated. -/
theorem MotionEvent.output_of_empties (empties : event.empties world = true) :
    (event.output world).getD 0 =
      world.throttle.accumulated + event.displacement := by
  cases motion : event.motion with
  | move request =>
      simp only [MotionEvent.empties, motion] at empties
      have collected := (yaMouseThrottleCollect_due empties).2
      simp only [MotionEvent.displacement, motion] at collected
      simp only [MotionEvent.output, MotionEvent.displacement, motion]
      exact collected
  | stop =>
      simp only [MotionEvent.output, MotionEvent.displacement, motion, add_zero]
      exact yaMouseThrottleFlush_output world.throttle event.time

theorem MotionEvent.accumulated_of_empties
    (serves : world.ServesLegacy event.uid)
    (empties : event.empties world = true) :
    (event.handle world).throttle.accumulated = 0 := by
  rw [MotionEvent.handle_throttle serves]
  cases motion : event.motion with
  | move request =>
      simp only [MotionEvent.empties, motion] at empties
      have collected := (yaMouseThrottleCollect_due empties).1
      simp only [MotionEvent.displacement, motion] at collected
      exact collected
  | stop => rfl

theorem MotionEvent.accumulates_of_not_empties
    (serves : world.ServesLegacy event.uid)
    (keeps : ¬ event.empties world = true) :
    (event.handle world).throttle.accumulated =
        world.throttle.accumulated + event.displacement ∧
      event.output world = none := by
  rw [MotionEvent.handle_throttle serves]
  cases motion : event.motion with
  | move request =>
      simp only [MotionEvent.empties, motion] at keeps
      have collected := yaMouseThrottleCollect_early keeps
      simp only [MotionEvent.displacement, motion] at collected
      simp only [MotionEvent.output, MotionEvent.displacement, motion]
      exact ⟨congrArg (fun result => result.1.accumulated) collected,
        congrArg Prod.snd collected⟩
  | stop => exact absurd (by simp only [MotionEvent.empties, motion]) keeps

end Handle

/-! ## Runs -/

/-- The world after the events, of which the latest is the first. -/
def World.afterMotion (start : World F) : List (MotionEvent F) → World F
  | [] => start
  | event :: earlier => event.handle (start.afterMotion earlier)

/-- What has been handed to the filter of a client. -/
def handedTo (uid : UInt32) (start : World F) :
    List (MotionEvent F) → Int × Int
  | [] => 0
  | event :: earlier =>
      handedTo uid start earlier +
        if event.uid = uid then
          (event.output (start.afterMotion earlier)).getD 0
        else 0

/-- The displacements that a client has sent. -/
def moved (uid : UInt32) : List (MotionEvent F) → Int × Int
  | [] => 0
  | event :: earlier =>
      moved uid earlier + if event.uid = uid then event.displacement else 0

/-- The throttle as an accumulator that the clients share. -/
def operations (start : World F) :
    List (MotionEvent F) → List (SharedAccumulator.Operation UInt32 (Int × Int))
  | [] => []
  | event :: earlier =>
      { owner := event.uid
        amount := event.displacement
        drains := event.empties (start.afterMotion earlier) } ::
      operations start earlier

/-- Only what a client has sent itself is in the throttle when its event empties
the throttle. -/
def Unmixed (start : World F) (history : List (MotionEvent F)) : Prop :=
  SharedAccumulator.Unmixed (operations start history)

/-- The throttle is empty at first, and the events are those of clients with a
protocol before version 3. -/
structure LegacyRun (start : World F) (history : List (MotionEvent F)) :
    Prop where
  empty : start.throttle.accumulated = 0
  serves : ∀ event ∈ history, start.ServesLegacy event.uid

omit [CFloat F] in
theorem LegacyRun.of_suffix {start : World F}
    {rest history : List (MotionEvent F)} (run : LegacyRun start history)
    (suffix : rest <:+ history) : LegacyRun start rest :=
  ⟨run.empty, fun event member => run.serves event (suffix.subset member)⟩

omit [CFloat F] in
theorem LegacyRun.earlier {start : World F} {event : MotionEvent F}
    {earlier : List (MotionEvent F)} (run : LegacyRun start (event :: earlier)) :
    LegacyRun start earlier :=
  run.of_suffix (List.suffix_cons event earlier)

theorem World.ServesLegacy.afterMotion {start : World F} {uid : UInt32}
    (serves : start.ServesLegacy uid) (history : List (MotionEvent F)) :
    (start.afterMotion history).ServesLegacy uid := by
  induction history with
  | nil => exact serves
  | cons event earlier inductionHypothesis =>
      exact inductionHypothesis.of_view MotionEvent.handle_clients

theorem operations_owners (start : World F) (history : List (MotionEvent F)) :
    (operations start history).map SharedAccumulator.Operation.owner =
      history.map MotionEvent.uid := by
  induction history with
  | nil => rfl
  | cons event earlier inductionHypothesis =>
      rw [operations, List.map_cons, List.map_cons, inductionHypothesis]

/-- The suffixes of the operations are those of suffixes of the events. -/
theorem suffix_operations_iff {start : World F}
    {history : List (MotionEvent F)}
    {rest : List (SharedAccumulator.Operation UInt32 (Int × Int))} :
    rest <:+ operations start history ↔
      ∃ events, events <:+ history ∧ operations start events = rest := by
  induction history with
  | nil =>
      simp only [operations, List.suffix_nil, exists_eq_left, eq_comm]
  | cons event earlier inductionHypothesis =>
      rw [operations, List.suffix_cons_iff, inductionHypothesis]
      simp only [List.suffix_cons_iff, or_and_right, exists_or, exists_eq_left,
        operations, eq_comm]

section Run

variable {start : World F} {history : List (MotionEvent F)}

theorem LegacyRun.accumulated (run : LegacyRun start history) :
    (start.afterMotion history).throttle.accumulated =
      SharedAccumulator.contents (operations start history) := by
  induction history with
  | nil => exact run.empty
  | cons event earlier inductionHypothesis =>
      have before := inductionHypothesis run.earlier
      have serves :=
        (run.serves event List.mem_cons_self).afterMotion earlier
      by_cases empties : event.empties (start.afterMotion earlier) = true
      · rw [operations, SharedAccumulator.contents_of_drains empties]
        exact MotionEvent.accumulated_of_empties serves empties
      · rw [operations, SharedAccumulator.contents_of_not_drains empties,
          ← before]
        exact (MotionEvent.accumulates_of_not_empties serves empties).1

theorem LegacyRun.handedTo_eq (run : LegacyRun start history) (uid : UInt32) :
    handedTo uid start history =
      SharedAccumulator.handed uid (operations start history) := by
  induction history with
  | nil => rfl
  | cons event earlier inductionHypothesis =>
      have before := inductionHypothesis run.earlier
      have holds := run.earlier.accumulated
      have serves :=
        (run.serves event List.mem_cons_self).afterMotion earlier
      rw [handedTo, operations, SharedAccumulator.handed, before]
      by_cases empties : event.empties (start.afterMotion earlier) = true
      · rw [MotionEvent.output_of_empties empties, holds]
        simp only [empties, true_and]
      · rw [(MotionEvent.accumulates_of_not_empties serves empties).2]
        simp only [empties, Bool.false_eq_true, false_and, if_false,
          Option.getD_none, ite_self]

theorem moved_eq (start : World F) (history : List (MotionEvent F))
    (uid : UInt32) :
    moved uid history =
      SharedAccumulator.deposited uid (operations start history) := by
  induction history with
  | nil => rfl
  | cons event earlier inductionHypothesis =>
      rw [moved, operations, SharedAccumulator.deposited, inductionHypothesis]

/-- Over all clients no motion is lost, and none is handed over twice. -/
theorem LegacyRun.sum_handedTo (run : LegacyRun start history)
    {uids : Finset UInt32} (senders : ∀ event ∈ history, event.uid ∈ uids) :
    ∑ uid ∈ uids, handedTo uid start history +
        (start.afterMotion history).throttle.accumulated =
      ∑ uid ∈ uids, moved uid history := by
  have owned : SharedAccumulator.OwnedBy uids (operations start history) := by
    intro operation member
    have sent := List.mem_map_of_mem
      (f := SharedAccumulator.Operation.owner) member
    rw [operations_owners] at sent
    obtain ⟨event, isEvent, same⟩ := List.mem_map.mp sent
    exact same ▸ senders event isEvent
  simp only [run.handedTo_eq, moved_eq start history, run.accumulated]
  exact SharedAccumulator.sum_handed owned

/-- Nothing is mixed exactly if at every point each client has been handed what
it has moved, except for what it has in the throttle. -/
theorem LegacyRun.unmixed_iff (run : LegacyRun start history) :
    Unmixed start history ↔
      ∀ rest, rest <:+ history → ∀ uid,
        handedTo uid start rest +
            SharedAccumulator.pending uid (operations start rest) =
          moved uid rest := by
  have balance {rest : List (MotionEvent F)} (suffix : rest <:+ history)
      (uid : UInt32) :
      handedTo uid start rest =
          SharedAccumulator.handed uid (operations start rest) ∧
        moved uid rest =
          SharedAccumulator.deposited uid (operations start rest) :=
    ⟨(run.of_suffix suffix).handedTo_eq uid, moved_eq start rest uid⟩
  rw [Unmixed, SharedAccumulator.unmixed_iff]
  constructor
  · intro balances rest suffix uid
    rw [(balance suffix uid).1, (balance suffix uid).2]
    exact balances _ (suffix_operations_iff.mpr ⟨rest, suffix, rfl⟩) uid
  · intro balances rest suffix uid
    obtain ⟨events, isSuffix, rfl⟩ := suffix_operations_iff.mp suffix
    rw [← (balance isSuffix uid).1, ← (balance isSuffix uid).2]
    exact balances events isSuffix uid

/-- If nothing is mixed, each client has been handed at each of its stops what
it has moved. -/
theorem LegacyRun.handedTo_stop (run : LegacyRun start history)
    (unmixed : Unmixed start history) {stop : MotionEvent F}
    {earlier : List (MotionEvent F)} (reached : stop :: earlier <:+ history)
    (stops : stop.motion = .stop) :
    handedTo stop.uid start (stop :: earlier) =
      moved stop.uid (stop :: earlier) := by
  have balance := run.unmixed_iff.mp unmixed _ reached stop.uid
  have empties : stop.empties (start.afterMotion earlier) = true := by
    simp only [MotionEvent.empties, stops]
  rwa [operations, SharedAccumulator.pending_of_drains _ empties, add_zero]
    at balance

end Run

/-! ## Two clients -/

/-- A clock does not go back. -/
def Timespec.NotAfter (first second : Timespec) : Prop :=
  first.sec < second.sec ∨ first.sec = second.sec ∧ first.nsec ≤ second.nsec

instance (first second : Timespec) : Decidable (first.NotAfter second) :=
  inferInstanceAs (Decidable (_ ∨ _))

def legacyAuthorize : YAEvent Rat where
  header := {
    type := YAEventType.authorize.code, direction := REQUEST, index := 0,
    uid := 0 }
  param := some (.authorizeRequest { type := CLIENT_IOS, version := 2 })
  paramLen := 8

/-- The server after a client has connected and has been authorized. -/
def World.joined (world : World Rat) (fd : Int) (bev : BevId)
    (memory : ClientId) : World Rat :=
  let connected := acceptCb fd (some bev)
    { memory := some memory, mouseFilter := some yaMouseFilterCreate, time := 0 }
    world
  (handleAuthorize (some bev) legacyAuthorize connected.2).2

/-- Two clients with the `uid`s 1 and 2. -/
def World.legacyPair : World Rat :=
  (World.started.joined 5 16 8).joined 6 32 24

def legacyMove (uid : UInt32) (lparam : Int32) (time : Timespec) :
    MotionEvent Rat where
  bev := none
  event := {
    header := {
      type := YAEventType.mouseMove.code, direction := REQUEST, index := 1,
      uid }
    param := some (.common { lparam, rparam := 0 })
    paramLen := 8 }
  time := time
  motion := .move { lparam, rparam := 0 }
  carries := by
    rintro request ⟨⟩
    exact ⟨rfl, rfl⟩

def legacyStop (uid : UInt32) (time : Timespec) : MotionEvent Rat where
  bev := none
  event := {
    header := {
      type := YAEventType.mouseStop.code, direction := REQUEST, index := 1,
      uid }
    param := none
    paramLen := 0 }
  time := time
  motion := .stop
  carries := nofun

theorem legacyPair_version (uid : UInt32) (known : uid = 1 ∨ uid = 2) :
    ∃ client,
      yaClientFindByUid World.legacyPair.manager uid = some client ∧
        client.protocolVersion = 2 := by
  rcases known with rfl | rfl
  · exact ⟨_, rfl, rfl⟩
  · exact ⟨_, rfl, rfl⟩

theorem legacyPair_run {history : List (MotionEvent Rat)}
    (known : history.all fun event => event.uid = 1 ∨ event.uid = 2) :
    LegacyRun World.legacyPair history := by
  refine ⟨rfl, fun event member => ?_⟩
  obtain ⟨client, found, version⟩ :=
    legacyPair_version event.uid
      (of_decide_eq_true (List.all_eq_true.mp known event member))
  refine ⟨client, found, ?_⟩
  rw [version]
  decide

end MouseHero
