import MouseHero.Server.Connections
import MouseHero.Server.Stream

/-!
# The callback of a connection

What a call of `conn_readcb` does for an active client: to the buffer of the
connection and to the events that are handed over, even where it stops.
-/

namespace MouseHero

open FaultM YaClientManager

variable {F : Type} {Answer Next : Type}

/-! ## What a callback keeps -/

/-- The identities of the clients, what is left to read on the connection and
the calls stay the same. -/
structure World.Steady (bev : BevId) (before after : World F) : Prop where
  identities :
    before.manager.view YaClient.identity =
      after.manager.view YaClient.identity
  buffer :
    (before.bevs bev).map (fun contents => (contents.fd, contents.input)) =
      (after.bevs bev).map fun contents => (contents.fd, contents.input)
  calls : before.calls = after.calls

variable {bev : BevId}

theorem World.steady_refl (world : World F) : world.Steady bev world :=
  ⟨rfl, rfl, rfl⟩

theorem World.steady_trans (first middle last : World F)
    (initial : first.Steady bev middle) (later : middle.Steady bev last) :
    first.Steady bev last :=
  ⟨initial.identities.trans later.identities,
    initial.buffer.trans later.buffer, initial.calls.trans later.calls⟩

theorem World.Quiet.steady {before after : World F}
    (quiet : before.Quiet after) : before.Steady bev after :=
  ⟨identity_of_record quiet.records, by rw [quiet.bevs], quiet.calls⟩

theorem pure_steady (value : Answer) :
    Respects (World.Steady bev) (pure value : ServerM F Answer) :=
  respects_pure World.steady_refl value

theorem bind_steady {first : ServerM F Answer} {next : Answer → ServerM F Next}
    (firstSteady : Respects (World.Steady bev) first)
    (nextSteady : ∀ value, Respects (World.Steady bev) (next value)) :
    Respects (World.Steady bev) (first >>= next) :=
  respects_bind World.steady_trans firstSteady nextSteady

private theorem derefClient_steady (client : ClientId) :
    Respects (World.Steady bev)
      (derefClient client : ServerM F (YaClient F)) := by
  apply bind_steady (respects_getState World.steady_refl)
  intro world
  cases world.manager.deref client with
  | none => exact respects_fault World.steady_refl _
  | some entry => exact pure_steady _

private theorem writeClient_steady (client : ClientId)
    {change : YaClient F → YaClient F}
    (keepsIdentity : ∀ entry, (change entry).identity = entry.identity) :
    Respects (World.Steady bev) (writeClient client change) :=
  respects_modifyState fun _ =>
    ⟨(view_write fun entry _ _ => keepsIdentity entry).symm, rfl, rfl⟩

theorem validateCommandIndex_steady (target : Option ClientId)
    (event : YAEvent F) :
    Respects (World.Steady bev) (validateCommandIndex target event) := by
  cases target with
  | none => exact pure_steady _
  | some client =>
      refine respects_ite ?_ (pure_steady _)
      apply bind_steady (derefClient_steady _)
      intro entry
      refine respects_ite (pure_steady _) ?_
      exact bind_steady (writeClient_steady _ fun _ => rfl) fun _ =>
        pure_steady _

private theorem writeBev_steady {change : Bufferevent → Bufferevent}
    (keepsInput : ∀ contents,
      ((change contents).fd, (change contents).input) =
        (contents.fd, contents.input)) :
    Respects (World.Steady bev) (writeBev bev change : ServerM F Unit) := by
  intro world
  cases stored : world.bevs bev with
  | none =>
      rw [writeBev, bind_of_fault (derefBev_of_none stored)]
      exact world.steady_refl
  | some contents =>
      rw [writeBev, bind_of_ok (derefBev_of_some stored)]
      refine ⟨rfl, ?_, rfl⟩
      simp [World.setBev, stored, keepsInput]

theorem respond_steady [CFloat F] (response : Option (YAEvent F)) :
    Respects (World.Steady bev) (respond bev response) := by
  rcases respond_cases bev response with
    dropped | ⟨event, reason, -, stops⟩ | ⟨bytes, appends⟩
  · rw [dropped]
    exact pure_steady _
  · rw [stops]
    exact respects_fault World.steady_refl _
  · rw [appends]
    exact writeBev_steady fun _ => rfl

/-! ## The callback -/

section Callback

variable [CFloat F] {world : World F} {client : ClientId}
variable {entry : YaClient F} {contents : Bufferevent}

/-- Of less than four bytes no sizes can be read. -/
theorem connReadcb_short (stored : world.manager.deref client = some entry)
    (active : entry.state = .active)
    (buffered : world.bevs bev = some contents)
    (short : contents.input.length < 4) :
    connReadcb bev (some client) world = (.error .nullDereference, world) := by
  simp only [connReadcb]
  rw [bind_of_ok (derefClient_of_some stored), if_neg (not_not_intro active),
    bind_of_ok (derefBev_of_some buffered), yaGetPackageSize_of_short short]
  rfl

/-- A buffer without a complete frame in front is left alone. -/
theorem connReadcb_waits (stored : world.manager.deref client = some entry)
    (active : entry.state = .active)
    (buffered : world.bevs bev = some contents)
    (word : 4 ≤ contents.input.length)
    (waits : frameArrived contents.input = false) :
    connReadcb bev (some client) world = (.ok (), world) := by
  simp only [connReadcb]
  rw [bind_of_ok (derefClient_of_some stored), if_neg (not_not_intro active),
    bind_of_ok (derefBev_of_some buffered), yaGetPackageSize_of_word word, waits]
  rfl

/-- Without a complete frame in front nothing changes, even where the callback
stops. -/
theorem connReadcb_early (stored : world.manager.deref client = some entry)
    (active : entry.state = .active)
    (buffered : world.bevs bev = some contents)
    (waits : frameArrived contents.input = false) :
    (connReadcb bev (some client) world).2 = world := by
  by_cases short : contents.input.length < 4
  · rw [connReadcb_short stored active buffered short]
  · rw [connReadcb_waits stored active buffered (Nat.not_lt.mp short) waits]

theorem connReadcb_parses {parsed : ParsedEvent F}
    (stored : world.manager.deref client = some entry)
    (active : entry.state = .active)
    (buffered : world.bevs bev = some contents)
    (arrived : frameArrived contents.input = true)
    (returned :
      yaParseEvent (evbufferDrain contents.input 8) YAEvent.zero
          (packageSize contents.input) =
        .ok parsed) :
    connReadcb bev (some client) world =
      if parsed.status < 0 then
        (.ok (),
          world.setBev bev (some { contents with input := parsed.buf }))
      else
        serveRequest bev client parsed.event
          (world.setBev bev (some { contents with input := parsed.buf })) := by
  have written :
      writeBev bev (fun contents => { contents with input := parsed.buf })
          world =
        (.ok (),
          world.setBev bev (some { contents with input := parsed.buf })) := by
    rw [writeBev, bind_of_ok (derefBev_of_some buffered)]
    rfl
  simp only [connReadcb]
  rw [bind_of_ok (derefClient_of_some stored), if_neg (not_not_intro active),
    bind_of_ok (derefBev_of_some buffered),
    yaGetPackageSize_of_word (four_le_of_frameArrived arrived)]
  simp only [arrived, returned, if_true]
  rw [bind_of_ok written]
  split
  · rfl
  · rfl

/-- A parser that runs into undefined behaviour stops the callback. -/
theorem connReadcb_stops {reason : Fault}
    (stored : world.manager.deref client = some entry)
    (active : entry.state = .active)
    (buffered : world.bevs bev = some contents)
    (arrived : frameArrived contents.input = true)
    (stopped :
      (yaParseEvent (evbufferDrain contents.input 8) YAEvent.zero
          (packageSize contents.input) : Except Fault (ParsedEvent F)) =
        .error reason) :
    connReadcb bev (some client) world = (.error reason, world) := by
  simp only [connReadcb]
  rw [bind_of_ok (derefClient_of_some stored), if_neg (not_not_intro active),
    bind_of_ok (derefBev_of_some buffered),
    yaGetPackageSize_of_word (four_le_of_frameArrived arrived)]
  simp only [arrived, stopped, if_true]
  rfl

end Callback

/-! ## A connection that is read -/

/-- An active client reads the connection, and so much is left to read.  Its
descriptor is that of an active client. -/
structure World.Reads (world : World F) (bev : BevId) (client : ClientId)
    (input : List UInt8) : Prop where
  active :
    (world.manager.deref client).map YaClient.state = some .active
  buffer : (world.bevs bev).map Bufferevent.input = some input
  bound : world.Bound (some bev)

/-- The events handed over on a connection, in order. -/
def World.handedOver (world : World F) (bev : BevId) : List (YAEvent F) :=
  ((world.calls.filter fun call => call.bev = some bev).map
    ServerCall.event).reverse

/-- What keeps the identities and the bufferevents keeps the bound. -/
theorem World.Steady.bound {before after : World F}
    (steady : before.Steady bev after) (bound : before.Bound (some bev)) :
    after.Bound (some bev) := by
  intro address contents same stored
  cases same
  have buffer := steady.buffer
  rw [stored] at buffer
  obtain ⟨original, originalStored, sameParts⟩ :=
    Option.map_eq_some_iff.mp buffer
  have descriptor := congrArg Prod.fst sameParts
  simp only at descriptor
  rw [← descriptor, ← findByFd_isSome_of_view_eq steady.identities
    (fun _ => rfl) (fun _ => rfl)]
  exact bound bev original rfl originalStored

theorem World.Steady.reads {before after : World F} {client : ClientId}
    {input : List UInt8} (steady : before.Steady bev after)
    (reads : before.Reads bev client input) :
    after.Reads bev client input where
  active := by
    have sameEntry := deref_of_view_eq steady.identities (fun _ => rfl) client
    have through (table : YaClientManager F) :
        (table.deref client).map YaClient.state =
          ((table.deref client).map YaClient.identity).map YaClient.state := by
      rw [Option.map_map]
      rfl
    rw [through, ← sameEntry, ← through]
    exact reads.active
  buffer := by
    have sameBuffer := congrArg (Option.map Prod.snd) steady.buffer
    rw [Option.map_map, Option.map_map] at sameBuffer
    exact sameBuffer.symm.trans reads.buffer
  bound := steady.bound reads.bound

theorem World.Reads.setInput {world : World F} {client : ClientId}
    {input : List UInt8} {contents : Bufferevent}
    (reads : world.Reads bev client input)
    (buffered : world.bevs bev = some contents) (rest : List UInt8) :
    (world.setBev bev (some { contents with input := rest })).Reads bev client
      rest where
  active := reads.active
  buffer := by simp [World.setBev]
  bound := by
    intro address found same stored
    cases same
    simp only [World.setBev, if_true, Option.some.injEq] at stored
    cases stored
    exact reads.bound bev contents rfl buffered

theorem World.Reads.arrive {world : World F} {client : ClientId}
    {input : List UInt8} (reads : world.Reads bev client input)
    (chunk : List UInt8) :
    (world.arrive bev chunk).Reads bev client (input ++ chunk) := by
  obtain ⟨contents, buffered, rfl⟩ := Option.map_eq_some_iff.mp reads.buffer
  rw [World.arrive, buffered]
  exact reads.setInput buffered _

theorem World.handedOver_arrive (world : World F) (chunk : List UInt8) :
    (world.arrive bev chunk).handedOver bev = world.handedOver bev := by
  unfold World.arrive
  cases world.bevs bev with
  | none => rfl
  | some contents => rfl

/-- One event is handed over on the connection, and all else is steady. -/
def World.Hands (bev : BevId) (event : YAEvent F) (before after : World F) :
    Prop :=
  ∃ call,
    call.bev = some bev ∧ call.event = event ∧
      (before.logged call).Steady bev after

theorem World.Hands.reads {before after : World F} {client : ClientId}
    {event : YAEvent F} {input : List UInt8}
    (hands : before.Hands bev event after)
    (reads : before.Reads bev client input) :
    after.Reads bev client input := by
  obtain ⟨call, -, -, steady⟩ := hands
  exact steady.reads ⟨reads.active, reads.buffer, reads.bound⟩

theorem World.Hands.handedOver {before after : World F} {event : YAEvent F}
    (hands : before.Hands bev event after) :
    after.handedOver bev = before.handedOver bev ++ [event] := by
  obtain ⟨call, isBev, isEvent, steady⟩ := hands
  have calls : after.calls = call :: before.calls := steady.calls.symm
  simp [World.handedOver, calls, isBev, isEvent]

/-- `process_server_event` hands over its event, even where it stops. -/
theorem processServerEvent_hands [CFloat F] {world : World F}
    {target : Option ClientId} (event : YAEvent F)
    (bound : world.Bound (some bev))
    (live : ∀ client, target = some client →
      (world.manager.deref client).isSome) :
    world.Hands bev event (processServerEvent (some bev) event target world).2 := by
  cases known : YAEventType.ofCode? event.header.type with
  | none =>
      rw [processServerEvent_unknown known]
      exact ⟨_, rfl, rfl, World.steady_refl _⟩
  | some type =>
      have steady : world.Steady bev (validateCommandIndex target event world).2 :=
        validateCommandIndex_steady target event world
      rcases @validateCommandIndex_cases F world event target live with
        ⟨-, stale⟩ | ⟨-, manager, valid⟩
      · rw [processServerEvent_discarded known stale]
        exact ⟨_, rfl, rfl, World.steady_refl _⟩
      · rw [valid] at steady
        rw [processServerEvent_executed known valid]
        let call : ServerCall F :=
          { bev := some bev, event, client := target, executed := true }
        have logged :
            (world.logged call).Steady bev
              (World.logged { world with manager } call) :=
          ⟨steady.identities, steady.buffer, congrArg (List.cons call) steady.calls⟩
        have quiet := eventHandler_quiet_of_bound type event (logged.bound bound)
        exact ⟨call, rfl, rfl, World.steady_trans _ _ _ logged quiet.steady⟩

private theorem unrefClient_steady {world : World F} {client : ClientId}
    (active :
      (world.manager.deref client).map YaClient.state = some .active) :
    world.Steady bev (unrefClient client world).2 := by
  obtain ⟨entry, stored, state⟩ := Option.map_eq_some_iff.mp active
  have connected : entry.state ≠ .disconnected := by
    rw [state]
    exact nofun
  rw [unrefClient_of_connected stored connected]
  exact ⟨(yaClientUnref_view identity_refCount world.manager connected).symm,
    rfl, rfl⟩

/-- The world in which a request of the client is processed. -/
def World.referenced (world : World F) (client : ClientId) : World F :=
  { world with manager := yaClientRef world.manager client }

theorem World.referenced_steady (world : World F) (client : ClientId) :
    world.Steady bev (world.referenced client) :=
  ⟨(yaClientRef_view identity_refCount world.manager client).symm, rfl, rfl⟩

theorem World.Reads.live {world : World F} {client : ClientId} {input : List UInt8}
    (reads : world.Reads bev client input) :
    ∀ found, some client = some found → (world.manager.deref found).isSome := by
  intro found same
  cases same
  obtain ⟨entry, stored, -⟩ := Option.map_eq_some_iff.mp reads.active
  rw [stored]
  rfl

variable [CFloat F]

/-- What follows the processing of a request is steady. -/
theorem answering_steady {world : World F} {client : ClientId}
    {input : List UInt8} (response : Option (YAEvent F))
    (reads : world.Reads bev client input) :
    world.Steady bev
      ((respond bev response >>= fun _ => unrefClient client) world).2 := by
  have responding : world.Steady bev (respond bev response world).2 :=
    respond_steady response world
  cases answered : respond bev response world with
  | mk result answering =>
      rw [answered] at responding
      cases result with
      | error reason =>
          rw [bind_of_fault answered]
          exact responding
      | ok _ =>
          rw [bind_of_ok answered]
          exact World.steady_trans _ _ _ responding
            (unrefClient_steady (responding.reads reads).active)

private theorem serveRequest_hands {world : World F} {client : ClientId}
    {input : List UInt8} (event : YAEvent F)
    (reads : world.Reads bev client input) :
    world.Hands bev event (serveRequest bev client event world).2 := by
  have counts : world.Steady bev (world.referenced client) :=
    world.referenced_steady client
  have referenced := counts.reads reads
  obtain ⟨call, isBev, isEvent, handed⟩ :=
    processServerEvent_hands event referenced.bound referenced.live
  have logged :
      (world.logged call).Steady bev ((world.referenced client).logged call) :=
    ⟨counts.identities, rfl, rfl⟩
  refine ⟨call, isBev, isEvent, World.steady_trans _ _ _ logged ?_⟩
  have there : World.Hands bev event (world.referenced client) _ :=
    ⟨call, isBev, isEvent, handed⟩
  rw [serveRequest, bind_of_ok (modifyState_apply _ world)]
  change World.Steady bev _
    ((processServerEvent (some bev) event (some client) >>= fun response =>
      respond bev response >>= fun _ => unrefClient client)
        (world.referenced client)).2
  cases processed :
      processServerEvent (some bev) event (some client)
        (world.referenced client) with
  | mk result reached =>
      rw [processed] at handed there
      cases result with
      | error reason =>
          rw [bind_of_fault processed]
          exact handed
      | ok response =>
          rw [bind_of_ok processed]
          exact World.steady_trans _ _ _ handed
            (answering_steady response (there.reads referenced))

/-- Even where it stops, a callback reads what `readFrame` says. -/
theorem connReadcb_reads {world : World F} {client : ClientId}
    {input rest : List UInt8} {handed : List (YAEvent F)}
    (reads : world.Reads bev client input)
    (read : readFrame input = .ok (rest, handed)) :
    (connReadcb bev (some client) world).2.Reads bev client rest ∧
      (connReadcb bev (some client) world).2.handedOver bev =
        world.handedOver bev ++ handed := by
  obtain ⟨entry, stored, active⟩ := Option.map_eq_some_iff.mp reads.active
  obtain ⟨contents, buffered, rfl⟩ := Option.map_eq_some_iff.mp reads.buffer
  unfold readFrame at read
  cases arrived : frameArrived contents.input with
  | false =>
      rw [arrived] at read
      cases read
      rw [connReadcb_early stored active buffered arrived]
      exact ⟨reads, (List.append_nil _).symm⟩
  | true =>
      rw [arrived, if_pos rfl] at read
      split at read
      · cases read
      · rename_i parsed parsing
        rw [connReadcb_parses stored active buffered arrived parsing]
        have consumed :
            (world.setBev bev
                (some { contents with input := parsed.buf })).Reads bev
              client parsed.buf :=
          reads.setInput buffered parsed.buf
        split at read
        · rename_i failed
          cases read
          rw [if_pos failed]
          exact ⟨consumed, (List.append_nil _).symm⟩
        · rename_i accepted
          cases read
          rw [if_neg accepted]
          have hands := serveRequest_hands parsed.event consumed
          exact ⟨hands.reads consumed, hands.handedOver⟩

/-- A callback that returns has read what `readFrame` says. -/
theorem connReadcb_readFrame {world after : World F} {client : ClientId}
    {input : List UInt8} (reads : world.Reads bev client input)
    (returned : connReadcb bev (some client) world = (.ok (), after)) :
    ∃ rest handed,
      readFrame input = .ok (rest, handed) ∧
        after.Reads bev client rest ∧
        after.handedOver bev = world.handedOver bev ++ handed := by
  cases read : (readFrame input : Except Fault (List UInt8 × List (YAEvent F))) with
  | ok outcome =>
      have reached := connReadcb_reads reads read
      rw [returned] at reached
      exact ⟨outcome.1, outcome.2, rfl, reached⟩
  | error reason =>
      -- Only a parser can stop, and with it the callback.
      obtain ⟨entry, stored, active⟩ := Option.map_eq_some_iff.mp reads.active
      obtain ⟨contents, buffered, rfl⟩ := Option.map_eq_some_iff.mp reads.buffer
      unfold readFrame at read
      split at read
      · rename_i arrived
        split at read
        · rename_i stopped
          rw [connReadcb_stops stored active buffered arrived stopped] at returned
          cases returned
        · split at read <;> cases read
      · cases read

end MouseHero
