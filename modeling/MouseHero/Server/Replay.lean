import MouseHero.Library.HighWaterMark
import MouseHero.Server.FrameConditions

/-!
# Protection against replay and reordering

The command index of a client is a high-water mark: over any sequence of
deliveries, on whatever channel, the checked commands that are executed are
those it admits.
-/

namespace MouseHero

open FaultM YaClientManager HighWaterMark

variable {F : Type}

/-! ## Deliveries -/

/-- A request that `process_server_event` is called with for a client. -/
structure Delivery (F : Type) where
  bev : Option BevId
  event : YAEvent F
  request : event.header.direction = REQUEST

/-- Time passes between two deliveries: anything but the command index of the
client may change. -/
structure World.Waits (client : ClientId) (before after : World F) : Prop where
  index :
    (before.manager.deref client).map YaClient.commandIndex =
      (after.manager.deref client).map YaClient.commandIndex
  calls : before.calls = after.calls

/-- The event has a handler and its index is checked. -/
def YAEvent.isChecked (event : YAEvent F) : Bool :=
  (YAEventType.ofCode? event.header.type).isSome &&
    needCommandIndexCheck event.header.type

/-- The checked events that were executed in a sequence of calls. -/
def executedCommands (calls : List (ServerCall F)) : List (YAEvent F) :=
  ((calls.filter fun call => call.executed).map ServerCall.event).filter
    YAEvent.isChecked

theorem executedCommands_cons (call : ServerCall F)
    (calls : List (ServerCall F)) :
    executedCommands (call :: calls) =
      if call.executed ∧ call.event.isChecked then
        call.event :: executedCommands calls
      else executedCommands calls := by
  cases executed : call.executed <;>
    cases checked : call.event.isChecked <;>
    simp [executedCommands, executed, checked]

/-- The checked events among the deliveries. -/
def checkedCommands (deliveries : List (Delivery F)) : List (YAEvent F) :=
  (deliveries.map Delivery.event).filter YAEvent.isChecked

/-- The index of an event. -/
def YAEvent.index (event : YAEvent F) : Nat :=
  event.header.index.toNat

/-- The command index of a client, read as an unsigned integer. -/
def YaClient.mark (client : YaClient F) : Nat :=
  client.commandIndex.toUInt32.toNat

/-! ## One delivery -/

section Step

variable {world : World F} {client : ClientId} {event : YAEvent F}

/-- The mark of the client is the one given. -/
def World.HasMark (world : World F) (client : ClientId) (mark : Nat) :
    Prop :=
  (world.manager.deref client).map YaClient.mark = some mark

private theorem hasMark_iff {mark : Nat} :
    world.HasMark client mark ↔
      ((world.manager.deref client).map YaClient.commandIndex).map
        (fun index => index.toUInt32.toNat) = some mark := by
  rw [Option.map_map]
  rfl

private theorem hasMark_of_records {before after : World F} {mark : Nat}
    (same :
      before.manager.view YaClient.record = after.manager.view YaClient.record)
    (marked : before.HasMark client mark) : after.HasMark client mark := by
  have sameEntry := deref_of_view_eq same (fun _ => rfl) client
  have through (table : YaClientManager F) :
      (table.deref client).map YaClient.mark =
        ((table.deref client).map YaClient.record).map YaClient.mark := by
    rw [Option.map_map]
    rfl
  rw [World.HasMark, through, ← sameEntry, ← through]
  exact marked

private theorem hasMark_logged {call : ServerCall F} {mark : Nat}
    (marked : world.HasMark client mark) :
    (world.logged call).HasMark client mark :=
  marked

/-- What a delivery does: the call is recorded, the mark moves to the index of
an admitted command, and a discarded event changes no client. -/
structure World.Delivered (world : World F) (client : ClientId)
    (mark : Nat) (event : YAEvent F) (executed : Bool)
    (after : World F) : Prop where
  calls : ∃ bev,
    after.calls =
      { bev, event, client := some client, executed } :: world.calls
  marked :
    after.HasMark client
      (if event.isChecked ∧ executed then event.index else mark)
  unchanged : executed = false → after.manager = world.manager

variable [CFloat F]

/-- Every request is delivered, and a checked one is executed if its index is
above the mark. -/
theorem processServerEvent_delivered {mark : Nat}
    (bev : Option BevId) (marked : world.HasMark client mark)
    (request : event.header.direction = REQUEST) :
    ∃ executed,
      (event.isChecked = true → (executed = true ↔ mark < event.index)) ∧
        world.Delivered client mark event executed
          (processServerEvent bev event (some client) world).2 := by
  obtain ⟨entry, stored, rfl⟩ := Option.map_eq_some_iff.mp marked
  cases known : YAEventType.ofCode? event.header.type with
  | none =>
      have unchecked : event.isChecked = false := by
        simp [YAEvent.isChecked, known]
      rw [processServerEvent_unknown known]
      refine ⟨false, by simp [unchecked], ⟨_, rfl⟩, ?_, fun _ => rfl⟩
      simpa [unchecked] using hasMark_logged marked
  | some type =>
      by_cases checks : needCommandIndexCheck event.header.type
      · have checked : event.isChecked = true := by
          simp [YAEvent.isChecked, known, checks]
        by_cases stale : event.header.index ≤ entry.commandIndex.toUInt32
        · rw [processServerEvent_discarded known
            (validateCommandIndex_stale ⟨request, checks⟩ stored stale)]
          refine ⟨false, fun _ => ?_, ⟨_, rfl⟩, ?_, fun _ => rfl⟩
          · simpa [YAEvent.index, YaClient.mark,
              UInt32.le_iff_toNat_le] using stale
          · simpa using hasMark_logged marked
        · rw [processServerEvent_executed known
            (validateCommandIndex_fresh ⟨request, checks⟩ stored stale)]
          have keeps :=
            eventHandler_keepsRecords type
              (World.logged { world with
                manager := world.manager.write client
                  (YaClient.withCommandIndex event.header.index) }
                { bev, event, client := some client, executed := true })
              bev event
          refine ⟨true, fun _ => ?_, ⟨bev, keeps.calls.symm⟩, ?_,
            fun absurd => Bool.noConfusion absurd⟩
          · simpa [YAEvent.index, YaClient.mark,
              UInt32.le_iff_toNat_le] using stale
          · apply hasMark_of_records keeps.records
            simp only [World.HasMark, World.logged]
            rw [deref_write client (YaClient.withCommandIndex _) fun _ => rfl,
              stored]
            simp [checked, YaClient.withCommandIndex, YaClient.mark,
              YAEvent.index]
      · have unchecked : event.isChecked = false := by
          simp [YAEvent.isChecked, checks]
        rw [processServerEvent_executed known
          (validateCommandIndex_exempt fun both => checks both.2)]
        have keeps :=
          eventHandler_keepsRecords type
            (world.logged
              { bev, event, client := some client, executed := true })
            bev event
        refine ⟨true, by simp [unchecked], ⟨bev, keeps.calls.symm⟩, ?_,
          fun absurd => Bool.noConfusion absurd⟩
        apply hasMark_of_records keeps.records
        simpa [unchecked] using hasMark_logged marked

end Step

/-! ## Runs -/

variable [CFloat F]

/-- The deliveries of requests of one client, one after the other.  A fault
ends the program, but the run need not know that. -/
inductive DeliveryRun (client : ClientId) :
    World F → List (Delivery F) → World F → Prop
  | finish (world : World F) : DeliveryRun client world [] world
  | deliver {before world final : World F} (delivery : Delivery F)
      {later : List (Delivery F)} :
      World.Waits client before world →
      DeliveryRun client
        (processServerEvent delivery.bev delivery.event (some client) world).2
        later final →
      DeliveryRun client before (delivery :: later) final

/-- The commands that a run of deliveries executes are those that the mark
admits. -/
theorem DeliveryRun.executed {client : ClientId} {first final : World F}
    {deliveries : List (Delivery F)} {mark : Nat}
    (run : DeliveryRun client first deliveries final)
    (marked : first.HasMark client mark) :
    ∃ calls,
      final.calls = calls.reverse ++ first.calls ∧
        calls.map ServerCall.event = deliveries.map Delivery.event ∧
        executedCommands calls =
          admitted YAEvent.index mark
            (checkedCommands deliveries) := by
  induction run generalizing mark with
  | finish world => exact ⟨[], rfl, rfl, rfl⟩
  | deliver delivery waits run inductionHypothesis =>
      rename_i before world final later
      have markedWorld : world.HasMark client mark := by
        rw [hasMark_iff] at marked ⊢
        rwa [← waits.index]
      obtain ⟨executed, decision, delivered⟩ :=
        processServerEvent_delivered delivery.bev markedWorld delivery.request
      obtain ⟨bev, recorded⟩ := delivered.calls
      obtain ⟨calls, grown, events, commands⟩ :=
        inductionHypothesis delivered.marked
      refine ⟨⟨bev, delivery.event, some client, executed⟩ :: calls,
        ?_, ?_, ?_⟩
      · rw [grown, recorded, waits.calls]
        simp
      · simp [events]
      · rw [executedCommands_cons, commands, checkedCommands, checkedCommands,
          List.map_cons, List.filter_cons]
        cases checked : delivery.event.isChecked with
        | false => simp
        | true =>
            have admits := decision checked
            cases executed with
            | false =>
                have below : ¬ mark < delivery.event.index := by
                  simpa using admits
                simp [admitted, below]
            | true =>
                have above : mark < delivery.event.index := by
                  simpa using admits
                simp [admitted, above]

/-- Over any sequence of deliveries the executed commands have strictly
increasing indices above the command index of the client, none is executed
twice, and commands that arrive in order are all executed.  A discarded event
changes no client. -/
theorem deliveryRun_replayProtection {client : ClientId}
    {first final : World F} {deliveries : List (Delivery F)}
    {entry : YaClient F}
    (run : DeliveryRun client first deliveries final)
    (stored : first.manager.deref client = some entry) :
    (∃ calls,
      final.calls = calls.reverse ++ first.calls ∧
        calls.map ServerCall.event = deliveries.map Delivery.event ∧
        (entry.mark :: (executedCommands calls).map YAEvent.index).Pairwise
          (· < ·) ∧
        ((executedCommands calls).map YAEvent.index).Nodup ∧
        ((entry.mark :: (checkedCommands deliveries).map YAEvent.index).Pairwise
            (· < ·) →
          executedCommands calls = checkedCommands deliveries)) ∧
      ∀ (world : World F) (delivery : Delivery F) (call : ServerCall F),
        (world.manager.deref client).isSome →
        (processServerEvent delivery.bev delivery.event (some client)
            world).2.calls = call :: world.calls →
        call.executed = false →
        (processServerEvent delivery.bev delivery.event (some client)
            world).2.manager = world.manager := by
  have marked : first.HasMark client entry.mark := by
    rw [World.HasMark, stored]
    rfl
  obtain ⟨calls, recorded, events, commands⟩ := run.executed marked
  constructor
  · refine ⟨calls, recorded, events, ?_, ?_, ?_⟩
    · rw [commands]
      exact admitted_increasing _ _ _
    · rw [commands]
      exact admitted_nodup _ _ _
    · intro increasing
      rw [commands]
      exact admitted_of_increasing _ increasing
  · intro world delivery call live recorded discarded
    obtain ⟨entry, stored⟩ := Option.isSome_iff_exists.mp live
    have marked : world.HasMark client entry.mark := by
      rw [World.HasMark, stored]
      rfl
    obtain ⟨executed, -, delivered⟩ :=
      processServerEvent_delivered delivery.bev marked delivery.request
    obtain ⟨bev, logged⟩ := delivered.calls
    rw [logged] at recorded
    cases recorded
    exact delivered.unchanged discarded

/-- The request to stop the mouse, with an index. -/
def stopDelivery (index : UInt32) : Delivery Rat where
  bev := none
  event :=
    { header := { type := 0x8, direction := REQUEST, index, uid := 1 }
      param := none
      paramLen := 0 }
  request := rfl

/-- A duplicated command. -/
theorem deliveryRun_replayProtection_duplicate :
    ∃ final : World Rat, ∃ calls,
      final.calls = calls.reverse ∧
        calls.map ServerCall.event =
          [(stopDelivery 7).event, (stopDelivery 7).event] ∧
        ((executedCommands calls).map YAEvent.index).Nodup := by
  have run :
      DeliveryRun 8 World.connected [stopDelivery 7, stopDelivery 7] _ :=
    .deliver _ ⟨rfl, rfl⟩ (.deliver _ ⟨rfl, rfl⟩ (.finish _))
  obtain ⟨⟨calls, recorded, events, -, nodup, -⟩, -⟩ :=
    deliveryRun_replayProtection run World.connected_deref
  exact ⟨_, calls, by simpa [World.connected, World.started] using recorded,
    events, nodup⟩

end MouseHero
