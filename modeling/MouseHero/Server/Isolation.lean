import MouseHero.Server.Requests
import MouseHero.Server.Targets

/-!
# Isolation of the clients

What a request on the connection of one client does to another client.  The
dispatcher checks the index of the connection's client, but the handlers of
`Targets` change the filter of the client whose `uid` is in the header.
-/

namespace MouseHero

open FaultM YaClientManager

variable {F : Type}

/-! ## Other clients -/

/-- A client without its reference count. -/
def YaClient.uncounted (client : YaClient F) : YaClient F :=
  { client with refCount := 0 }

theorem addr_of_uncounted_eq {first second : YaClient F}
    (same : first.uncounted = second.uncounted) : first.addr = second.addr := by
  have addr := congrArg YaClient.addr same
  exact addr

/-- Up to its reference count the client at the address stays the same. -/
def World.SameClient (client : ClientId) (before after : World F) : Prop :=
  (before.manager.deref client).map YaClient.uncounted =
    (after.manager.deref client).map YaClient.uncounted

theorem World.sameClient_refl (client : ClientId) (world : World F) :
    world.SameClient client world :=
  rfl

theorem World.sameClient_of_view {client : ClientId} {before after : World F}
    (same : before.manager.view YaClient.uncounted =
      after.manager.view YaClient.uncounted) :
    before.SameClient client after :=
  deref_of_view_eq same (fun _ => rfl) client

/-- What a check of the index and the references can change of the client at an
address is hidden, and the reference counts of the others. -/
def YaClient.hide (owner : ClientId) (client : YaClient F) : YaClient F :=
  if client.addr = owner then client.identity else client.uncounted

section Hide

variable {owner : ClientId} {client : YaClient F}

theorem hide_addr (owner : ClientId) (client : YaClient F) :
    (client.hide owner).addr = client.addr := by
  unfold YaClient.hide
  split <;> rfl

private theorem hide_uid (owner : ClientId) (client : YaClient F) :
    (client.hide owner).uid = client.uid := by
  unfold YaClient.hide
  split <;> rfl

private theorem hide_state (owner : ClientId) (client : YaClient F) :
    (client.hide owner).state = client.state := by
  unfold YaClient.hide
  split <;> rfl

theorem hide_of_ne (different : client.addr ≠ owner) :
    client.hide owner = client.uncounted :=
  if_neg different

private theorem hide_refCount (owner : ClientId) (client : YaClient F)
    (refCount : UInt32) :
    YaClient.hide owner { client with refCount } = client.hide owner :=
  rfl

end Hide

/-- Up to what a request changes of its own client, and up to the reference
counts, the clients stay the same. -/
def World.SameOthers (owner : ClientId) (before after : World F) : Prop :=
  before.manager.view (YaClient.hide owner) =
    after.manager.view (YaClient.hide owner)

section SameOthers

variable {owner client : ClientId} {before after : World F}
variable {entry : YaClient F}

theorem World.SameOthers.stored (same : before.SameOthers owner after)
    (different : client ≠ owner)
    (stored : before.manager.deref client = some entry) :
    ∃ entry', after.manager.deref client = some entry' ∧
      entry'.uncounted = entry.uncounted := by
  have addr := addr_of_deref stored
  have hidden := deref_of_view_eq same (hide_addr owner) client
  rw [stored] at hidden
  obtain ⟨entry', stored', same'⟩ := Option.map_eq_some_iff.mp hidden.symm
  have addr' := addr_of_deref stored'
  refine ⟨entry', stored', ?_⟩
  rwa [hide_of_ne (addr'.trans_ne different), hide_of_ne (addr.trans_ne different)]
    at same'

/-- A client that is found by its `uid` is found by it afterwards. -/
theorem World.SameOthers.found (same : before.SameOthers owner after)
    (different : entry.addr ≠ owner) {uid : UInt32}
    (found : yaClientFindByUid before.manager uid = some entry) :
    ∃ entry', yaClientFindByUid after.manager uid = some entry' ∧
      entry'.uncounted = entry.uncounted := by
  have hidden := findByUid_of_view_eq same (hide_uid owner) (hide_state owner)
    uid
  rw [found] at hidden
  obtain ⟨entry', found', same'⟩ := Option.map_eq_some_iff.mp hidden.symm
  have addr' : entry'.addr = entry.addr := by
    rw [← hide_addr owner entry', same', hide_addr]
  refine ⟨entry', found', ?_⟩
  rwa [hide_of_ne (addr'.trans_ne different), hide_of_ne different] at same'

end SameOthers

/-! ## Up to the handler -/

/-- On the way to the handler only the client of the connection is changed. -/
structure World.Prepares (owner : ClientId) (before after : World F) : Prop where
  others : before.SameOthers owner after
  throttle : after.throttle = before.throttle
  clock : after.clock = before.clock

theorem validateCommandIndex_prepares {world : World F} {owner : ClientId}
    {entry : YaClient F} (stored : world.manager.deref owner = some entry)
    (event : YAEvent F) :
    (Discarded world (some owner) event ∧
      validateCommandIndex (some owner) event world = (.ok false, world)) ∨
    (¬ Discarded world (some owner) event ∧
      ∃ checked,
        validateCommandIndex (some owner) event world = (.ok true, checked) ∧
          world.Prepares owner checked) := by
  by_cases checked : event.header.direction = REQUEST ∧
      needCommandIndexCheck event.header.type
  · by_cases stale : event.header.index ≤ entry.commandIndex.toUInt32
    · exact Or.inl ⟨⟨owner, entry, rfl, stored, checked.1, checked.2, stale⟩,
        validateCommandIndex_stale checked stored stale⟩
    · refine Or.inr ⟨?_, _, validateCommandIndex_fresh checked stored stale,
        ?_, rfl, rfl⟩
      · rintro ⟨client, found, same, stored', -, -, stale'⟩
        cases same
        rw [stored] at stored'
        cases stored'
        exact stale stale'
      · refine (view_write fun other _ isOwner => ?_).symm
        simp only [YaClient.hide, isOwner, if_true, YaClient.withCommandIndex,
          YaClient.identity, YaClient.record]
  · refine Or.inr ⟨?_, world, validateCommandIndex_exempt checked, rfl, rfl,
      rfl⟩
    rintro ⟨-, -, -, -, isRequest, needed, -⟩
    exact checked ⟨isRequest, needed⟩

variable [CFloat F]

theorem World.HandsOver.prepares {world reached : World F}
    {connection : Connection} {request : YAEvent F}
    (hands : world.HandsOver connection request reached) :
    world.Prepares connection.client reached := by
  have references := hands.clients
  obtain ⟨entry, contents, parsed, -, -, -, -, -, -, -, rfl⟩ := hands
  refine ⟨?_, rfl, rfl⟩
  rw [World.SameOthers, references]
  exact (yaClientRef_view (hide_refCount connection.client) _ _).symm

/-- The filter afterwards depends on the throttle, the clock and the client. -/
theorem filterAfter_congr {before after : World F} {owner : ClientId}
    (prepares : before.Prepares owner after) {first second : YaClient F}
    (same : second.uncounted = first.uncounted) (event : YAEvent F)
    (type : YAEventType) :
    filterAfter after event second type = filterAfter before event first type := by
  have fields := same
  simp only [YaClient.uncounted, YaClient.mk.injEq] at fields
  obtain ⟨-, -, -, -, -, -, -, sameFilter, -, sameVersion⟩ := fields
  have sameOutput (request : YACommonEventRequest) :
      throttled after request = throttled before request := by
    rw [throttled, throttled, prepares.throttle, prepares.clock]
  have sameAfter (output : Option (Int × Int)) :
      filterAfterOutput second output = filterAfterOutput first output := by
    cases output <;> simp only [filterAfterOutput, sameFilter]
  cases type <;>
    simp only [filterAfter, filterAfterMove, sameFilter, sameVersion,
      sameOutput, sameAfter]

/-! ## The handlers -/

section Handlers

variable {world : World F} {connection : Connection} {event : YAEvent F}
variable {other : YaClient F}

/-- Authorization writes to the client of the connection only. -/
theorem handleAuthorize_sameClient (serves : world.Serves connection)
    (different : other.addr ≠ connection.client) (event : YAEvent F) :
    world.SameClient other.addr
      (handleAuthorize (some connection.bev) event world).2 := by
  obtain ⟨entry, contents, served⟩ := serves.client
  cases carried : event.param with
  | none =>
      simp only [handleAuthorize, carried]
      exact world.sameClient_refl _
  | some param =>
      cases param
      case authorizeRequest request =>
        cases authorized : authorize request with
        | false =>
            rw [handleAuthorize_refused carried authorized]
            exact world.sameClient_refl _
        | true =>
            rw [handleAuthorize_granted carried authorized served.buffered
              served.found]
            have elsewhere : other.addr ≠ entry.addr := by
              rw [served.addr]
              exact different
            have kept :
                (world.manager.write entry.addr
                    (authorizedClient connection.bev request)).deref
                  other.addr = world.manager.deref other.addr :=
              deref_write_of_ne elsewhere fun _ => rfl
            exact congrArg (Option.map YaClient.uncounted) kept.symm
      all_goals
        simp only [handleAuthorize, carried]
        exact world.sameClient_refl _

/-- A handler changes no client but the one that the event names. -/
theorem eventHandler_sameClient (serves : world.Serves connection)
    (different : other.addr ≠ connection.client) (type : YAEventType)
    (elsewhere : ∀ client,
      yaClientFindByUid world.manager event.header.uid = some client →
        client.addr ≠ other.addr) :
    world.SameClient other.addr
      (eventHandler type (some connection.bev) event world).2 := by
  by_cases authorization : type = .authorize
  · rw [authorization]
    exact handleAuthorize_sameClient serves different event
  · let reduce (entry : YaClient F) : YaClient F :=
      if entry.addr = other.addr then entry else { entry with mouseFilter := none }
    have keepsAddr (entry : YaClient F) : (reduce entry).addr = entry.addr := by
      simp only [reduce]
      split <;> rfl
    have forgets : ForgetsTarget reduce world event := by
      intro client found entry mouseFilter isClient
      have notOther : entry.addr ≠ other.addr :=
        isClient.trans_ne (elsewhere client found)
      simp only [reduce, notOther, if_false]
    have framed := eventHandler_framed authorization (some connection.bev) forgets
    have same := deref_of_view_eq framed.1.clients keepsAddr other.addr
    have exact (manager : YaClientManager F) :
        (manager.deref other.addr).map reduce = manager.deref other.addr := by
      cases stored : manager.deref other.addr with
      | none => rfl
      | some entry =>
          simp only [Option.map_some, reduce, addr_of_deref stored, if_true]
    rw [exact, exact] at same
    exact congrArg (Option.map YaClient.uncounted) same

/-- The event runs the handler of its type, and names the client. -/
def Names (world : World F) (owner : ClientId) (event : YAEvent F)
    (client : YaClient F) (type : YAEventType) : Prop :=
  YAEventType.ofCode? event.header.type = some type ∧
    ¬ Discarded world (some owner) event ∧
    yaClientFindByUid world.manager event.header.uid = some client

/-- What an event makes of another client. -/
structure OtherAfter (world : World F) (owner : ClientId) (event : YAEvent F)
    (other : YaClient F) (after : World F) : Prop where
  named :
    ∀ type, Names world owner event other type →
      ∃ entry,
        after.manager.deref other.addr = some entry ∧
          entry.uncounted =
            { other.uncounted with
              mouseFilter := filterAfter world event other type }
  unnamed :
    (¬ ∃ type, Names world owner event other type) →
      world.SameClient other.addr after

section Executed

variable {reached : World F} {type : YAEventType}
variable (prepared : world.Prepares connection.client reached)
variable (serves : reached.Serves connection)
variable (different : other.addr ≠ connection.client)

include prepared serves different

private theorem eventHandler_named
    (found :
      yaClientFindByUid world.manager event.header.uid = some other) :
    ∃ entry,
      (eventHandler type (some connection.bev) event reached).2.manager.deref
          other.addr = some entry ∧
        entry.uncounted =
          { other.uncounted with
            mouseFilter := filterAfter world event other type } := by
  obtain ⟨target, foundReached, sameTarget⟩ :=
    prepared.others.found different found
  have targetAddr := addr_of_uncounted_eq sameTarget
  have stored := deref_eq_of_mem serves.once
    (hasActive_of_findByUid foundReached).1.1
  by_cases authorization : type = .authorize
  · have kept := handleAuthorize_sameClient serves different event
    rw [World.SameClient, ← targetAddr, stored, targetAddr] at kept
    obtain ⟨entry, storedAfter, sameAfter⟩ :=
      Option.map_eq_some_iff.mp kept.symm
    subst authorization
    exact ⟨entry, storedAfter, sameAfter.trans sameTarget⟩
  · have written := eventHandler_filter stored foundReached authorization
      (some connection.bev)
    have sameFilter : filterAfter reached event target type =
        filterAfter world event other type :=
      filterAfter_congr prepared sameTarget event type
    rw [sameFilter] at written
    refine ⟨{ target with
      mouseFilter := filterAfter world event other type }, ?_, ?_⟩
    · rw [← targetAddr]
      exact written
    · rw [← sameTarget]
      rfl

private theorem eventHandler_unnamed
    (once : (world.manager.clients.map YaClient.addr).Nodup)
    (stored : world.manager.deref other.addr = some other)
    (notFound :
      yaClientFindByUid world.manager event.header.uid ≠ some other) :
    world.SameClient other.addr
      (eventHandler type (some connection.bev) event reached).2 := by
  obtain ⟨entry, storedReached, sameEntry⟩ :=
    prepared.others.stored different stored
  have kept : reached.SameClient other.addr
      (eventHandler type (some connection.bev) event reached).2 := by
    apply eventHandler_sameClient serves different type
    intro client found isOther
    obtain ⟨entry, foundBefore, sameClient⟩ :=
      World.SameOthers.found prepared.others.symm
        (isOther.trans_ne different) found
    have isEntry : entry = other := by
      apply List.inj_on_of_nodup_map once
        (hasActive_of_findByUid foundBefore).1.1
        (mem_of_deref stored)
      exact (addr_of_uncounted_eq sameClient).trans isOther
    rw [isEntry] at foundBefore
    exact notFound foundBefore
  rw [World.SameClient, storedReached] at kept
  rw [World.SameClient, stored, ← kept, Option.map_some, Option.map_some,
    sameEntry]

end Executed

theorem processServerEvent_other (serves : world.Serves connection)
    (different : other.addr ≠ connection.client)
    (stored : world.manager.deref other.addr = some other) :
    OtherAfter world connection.client event other
      (processServerEvent (some connection.bev) event (some connection.client)
        world).2 := by
  obtain ⟨owner, contents, served⟩ := serves.client
  cases known : YAEventType.ofCode? event.header.type with
  | none =>
      rw [processServerEvent_unknown known]
      refine ⟨fun type names => ?_, fun _ => world.sameClient_refl _⟩
      have isType := names.1
      rw [known] at isType
      cases isType
  | some type =>
      rcases validateCommandIndex_prepares served.stored event with
        ⟨discarded, refused⟩ | ⟨executed, checked, accepted, prepares⟩
      · rw [processServerEvent_discarded known refused]
        exact ⟨fun type names => absurd discarded names.2.1,
          fun _ => world.sameClient_refl _⟩
      · rw [processServerEvent_executed known accepted]
        have keeps := (validateCommandIndex_careful event served.stored).1
        rw [accepted] at keeps
        have keepsLogged : world.KeepsOwners (checked.logged {
            bev := some connection.bev
            event
            client := some connection.client
            executed := true }) :=
          ⟨keeps.clients, keeps.sockets, keeps.stats⟩
        have servesLogged := keepsLogged.serves serves
        have prepared : world.Prepares connection.client (checked.logged {
            bev := some connection.bev
            event
            client := some connection.client
            executed := true }) :=
          ⟨prepares.others, prepares.throttle, prepares.clock⟩
        constructor
        · rintro type' ⟨isType, -, found⟩
          rw [known] at isType
          cases isType
          exact eventHandler_named prepared servesLogged different found
        · intro notNamed
          apply eventHandler_unnamed prepared servesLogged different serves.once
            stored
          intro found
          exact notNamed ⟨type, known, executed, found⟩

/-- Responding and releasing the client of the connection. -/
theorem finishRequest_sameClient (serves : world.Serves connection)
    (client : ClientId) (response : Option (YAEvent F)) :
    world.SameClient client
      ((do
        respond connection.bev response
        unrefClient connection.client) world).2 := by
  obtain ⟨owner, contents, served⟩ := serves.client
  have transitive (first middle last : World F)
      (initial : first.SameClient client middle)
      (later : middle.SameClient client last) : first.SameClient client last :=
    initial.trans later
  have responds : ConfinedAt (World.SameClient client) (fun _ => True)
      (respond connection.bev response) world := by
    rcases respond_cases connection.bev response with
      dropped | ⟨event, reason, -, stops⟩ | ⟨bytes, appends⟩
    · rw [dropped]
      exact confinedAt_pure (World.sameClient_refl client) _
    · rw [stops]
      exact confinedAt_fault (World.sameClient_refl client) trivial
    · rw [appends]
      exact confinedAt_step transitive (derefBev_of_some served.buffered)
        (world.sameClient_refl client)
        (confinedAt_modifyState (world.sameClient_refl client))
  refine (confinedAt_bind transitive responds ?_).1
  intro _ responded returned _
  have keeps := (respond_careful response serves).1
  rw [returned] at keeps
  obtain ⟨entry, contents, served⟩ := (keeps.serves serves).client
  have connected : entry.state ≠ .disconnected := by
    rw [served.active]
    exact nofun
  refine confinedAt_of_ok (unrefClient_of_connected served.stored connected)
    (World.sameClient_of_view ?_)
  exact (yaClientUnref_view (fun _ _ => rfl) responded.manager connected).symm

end Handlers

/-! ## The callback -/

/-- The read callback on the connection hands over a request that runs its
handler and names the client. -/
def World.ReachesOther (world : World F) (connection : Connection)
    (request : YAEvent F) (other : YaClient F) (type : YAEventType) : Prop :=
  (∃ reached, world.HandsOver connection request reached) ∧
    Names world connection.client request other type

section Callback

variable {world : World F} {connection : Connection} {other : YaClient F}

variable {request : YAEvent F} {reached : World F} {type : YAEventType}

omit [CFloat F] in
/-- The client is where it has been, and is found where it has been. -/
theorem found_of_found {owner : ClientId} {before after : World F} {uid : UInt32}
    (same : before.SameOthers owner after)
    (once : (after.manager.clients.map YaClient.addr).Nodup)
    (different : other.addr ≠ owner)
    (stored : after.manager.deref other.addr = some other)
    (found : yaClientFindByUid before.manager uid = some other) :
    yaClientFindByUid after.manager uid = some other := by
  obtain ⟨entry, foundAfter, sameEntry⟩ := same.found different found
  have isEntry : entry = other :=
    List.inj_on_of_nodup_map once (hasActive_of_findByUid foundAfter).1.1
      (mem_of_deref stored) (addr_of_uncounted_eq sameEntry)
  rw [foundAfter, isEntry]

theorem World.HandsOver.stored
    (hands : world.HandsOver connection request reached)
    (different : other.addr ≠ connection.client) :
    reached.manager.deref other.addr = world.manager.deref other.addr := by
  rw [hands.clients]
  exact deref_write_of_ne different fun _ => rfl

theorem World.HandsOver.discarded_iff
    (hands : world.HandsOver connection request reached) :
    Discarded reached (some connection.client) request ↔
      Discarded world (some connection.client) request :=
  discarded_referenced hands.clients

/-- Whether the client is named can be told before the frame is taken. -/
theorem World.HandsOver.names_iff (serves : world.Serves connection)
    (hands : world.HandsOver connection request reached)
    (different : other.addr ≠ connection.client)
    (stored : world.manager.deref other.addr = some other) :
    Names reached connection.client request other type ↔
      Names world connection.client request other type := by
  have same := hands.prepares.others
  have storedReached := (hands.stored different).trans stored
  have servesReached := hands.keepsOwners.serves serves
  have found : yaClientFindByUid reached.manager request.header.uid =
        some other ↔
      yaClientFindByUid world.manager request.header.uid = some other :=
    ⟨found_of_found same.symm serves.once different stored,
      found_of_found same servesReached.once different storedReached⟩
  rw [Names, Names, hands.discarded_iff, found]

omit [CFloat F] in
theorem World.SameClient.stored {client : ClientId} {before after : World F}
    {entry : YaClient F} (same : before.SameClient client after)
    (stored : before.manager.deref client = some entry) :
    ∃ entry', after.manager.deref client = some entry' ∧
      entry'.uncounted = entry.uncounted := by
  rw [World.SameClient, stored] at same
  exact Option.map_eq_some_iff.mp same.symm

/-- The rest of the callback leaves other clients as the dispatcher does. -/
theorem connReadcb_otherAfter (serves : world.Serves connection)
    (hands : world.HandsOver connection request reached)
    (different : other.addr ≠ connection.client)
    (stored : world.manager.deref other.addr = some other) :
    OtherAfter reached connection.client request other
      (connReadcb connection.bev (some connection.client) world).2 := by
  have servesReached := hands.keepsOwners.serves serves
  have processed : OtherAfter reached connection.client request other
      (processServerEvent (some connection.bev) request
        (some connection.client) reached).2 :=
    processServerEvent_other servesReached different
      ((hands.stored different).trans stored)
  have careful := processServerEvent_careful request servesReached
  have finished : (processServerEvent (some connection.bev) request
        (some connection.client) reached).2.SameClient other.addr
      (connReadcb connection.bev (some connection.client) world).2 := by
    rw [connReadcb_of_handsOver hands]
    rcases outcome : processServerEvent (some connection.bev) request
        (some connection.client) reached with ⟨reason | response, after⟩
    · rw [bind_of_fault outcome]
      exact after.sameClient_refl _
    · have keeps := careful.1
      rw [outcome] at keeps
      rw [bind_of_ok outcome]
      exact finishRequest_sameClient (keeps.serves servesReached) _ response
  constructor
  · intro type names
    obtain ⟨entry, storedAfter, sameEntry⟩ := processed.named type names
    obtain ⟨last, storedLast, sameLast⟩ := finished.stored storedAfter
    exact ⟨last, storedLast, sameLast.trans sameEntry⟩
  · intro notNamed
    exact (processed.unnamed notNamed).trans finished

/-- A read callback changes another client only through a request that names
it. -/
theorem connReadcb_other (serves : world.Serves connection)
    (different : other.addr ≠ connection.client)
    (stored : world.manager.deref other.addr = some other) :
    (∀ request type,
      world.ReachesOther connection request other type →
        ∃ entry,
          (connReadcb connection.bev (some connection.client)
              world).2.manager.deref other.addr = some entry ∧
            entry.uncounted =
              { other.uncounted with
                mouseFilter := filterAfter world request other type }) ∧
      ((¬ ∃ request type, world.ReachesOther connection request other type) →
        world.SameClient other.addr
          (connReadcb connection.bev (some connection.client) world).2) := by
  constructor
  · rintro request type ⟨⟨reached, hands⟩, names⟩
    have after := connReadcb_otherAfter serves hands different stored
    rw [← filterAfter_congr hands.prepares rfl]
    exact after.named type
      ((hands.names_iff serves different stored).mpr names)
  · intro notReached
    rcases connReadcb_handsOver_or serves with
      ⟨request, reached, hands⟩ | sameManager
    · have after := connReadcb_otherAfter serves hands different stored
      have unnamed := after.unnamed fun named => by
        obtain ⟨type, names⟩ := named
        exact notReached ⟨request, type, ⟨reached, hands⟩,
          (hands.names_iff serves different stored).mp names⟩
      rw [World.SameClient, hands.stored different] at unnamed
      exact unnamed
    · rw [World.SameClient, sameManager]

end Callback

/-! ## Reachable states -/

/-- The record of the client is as it was: its command index, its protocol
version and its mouse filter. -/
def World.KeepsRecord (client : YaClient F) (after : World F) : Prop :=
  ∃ entry,
    after.manager.deref client.addr = some entry ∧
      entry.commandIndex = client.commandIndex ∧
      entry.protocolVersion = client.protocolVersion ∧
      entry.mouseFilter = client.mouseFilter

omit [CFloat F] in
theorem keepsRecord_of_stored {client entry : YaClient F} {after : World F}
    (stored : after.manager.deref client.addr = some entry)
    (same : entry.uncounted = client.uncounted) :
    World.KeepsRecord client after := by
  simp only [YaClient.uncounted, YaClient.mk.injEq] at same
  obtain ⟨-, -, -, commandIndex, -, -, -, mouseFilter, -, version⟩ := same
  exact ⟨entry, stored, commandIndex, version, mouseFilter⟩

omit [CFloat F] in
theorem World.prepares_arrive (world : World F) (owner : ClientId) (bev : BevId)
    (chunk : List UInt8) : world.Prepares owner (world.arrive bev chunk) := by
  refine ⟨?_, ?_, ?_⟩
  · rw [World.SameOthers, World.arrive_manager]
  all_goals
    unfold World.arrive
    cases world.bevs bev <;> rfl

def secondConnection : Connection where
  bev := 32
  client := 24

/-- The server after it has accepted a second connection, whose client has a
mouse filter. -/
def World.acceptingBoth : World Rat :=
  (acceptCb 6 (some 32)
    { memory := some 24, mouseFilter := some yaMouseFilterCreate, time := 0 }
    World.accepting).2

private theorem accepting_clients :
    World.accepting.manager.clients.Perm [YaClient.first] := by
  have creates :
      yaClientCreate World.started.manager 5 (some 16)
          { memory := some 8, mouseFilter := none, time := 0 } =
        (World.accepting.manager, some YaClient.first) := rfl
  obtain ⟨-, -, -, -, -, inserted⟩ := yaClientCreate_created creates
  rwa [World.started_clients] at inserted

theorem acceptingBoth_serverRun :
    ServerRun [.accepted secondConnection, .accepted firstConnection]
      World.acceptingBoth := by
  apply ServerRun.step _ accepting_serverRun
  let resources : ClientResources Rat :=
    { memory := some 24, mouseFilter := some yaMouseFilterCreate, time := 0 }
  refine ⟨6, resources, rfl, ?_, ?_, ?_⟩
  · intro entry member same
    have isFirst := List.mem_singleton.mp (accepting_clients.mem_iff.mp member)
    rw [isFirst] at same
    exact absurd same (by decide)
  · intro other contents stored
    by_cases first : other = 16
    · rw [first] at stored
      cases stored
      decide
    · have empty : World.accepting.bevs other = none := if_neg first
      rw [empty] at stored
      cases stored
  · rfl

/-- The client of the second connection. -/
def YaClient.second : YaClient Rat where
  addr := 24
  fd := 6
  uid := 2
  commandIndex := 0
  refCount := 1
  state := .active
  bev := some 32
  mouseFilter := some yaMouseFilterCreate
  connectedAt := 0
  protocolVersion := 0

private theorem acceptingBoth_second :
    World.acceptingBoth.manager.HasActive YaClient.second := by
  refine ⟨?_, rfl⟩
  have stored : World.acceptingBoth.manager.deref 24 = some YaClient.second := rfl
  exact mem_of_deref stored

theorem acceptingBoth_first :
    World.acceptingBoth.manager.HasActive YaClient.first := by
  refine ⟨?_, rfl⟩
  have stored : World.acceptingBoth.manager.deref 8 = some YaClient.first := rfl
  exact mem_of_deref stored

/-- SESSION_OPTION with the scale 2, under the header of a client. -/
def scaleRequest (uid : UInt32) : YAEvent Rat where
  header := { type := 0xC, direction := REQUEST, index := 1, uid }
  param := some (.sessionOption { pointerScale := 2 })
  paramLen := 4

def scaleBytes (uid : UInt32) : List UInt8 :=
  frameBytes (serializeEventHeader (scaleRequest uid).header)
    (mpackStartArray 1 ++ mpackWriteU32 2)

theorem scaleBytes_parsed :
    (yaParseEvent (evbufferDrain (scaleBytes 2) 8) YAEvent.zero
        (packageSize (scaleBytes 2)) : Except Fault (ParsedEvent Rat)) =
      .ok { status := 0, buf := [], event := scaleRequest 2 } := by
  rfl

private theorem acceptingBoth_handsOver :
    ∃ reached,
      (World.acceptingBoth.arrive 16 (scaleBytes 2)).HandsOver firstConnection
        (scaleRequest 2) reached := by
  refine ⟨_, YaClient.first, { fd := 5, input := scaleBytes 2, output := [] },
    { status := 0, buf := [], event := scaleRequest 2 }, rfl, rfl, rfl, ?_,
    scaleBytes_parsed, ?_, rfl, rfl⟩
  · decide
  · decide

end MouseHero
