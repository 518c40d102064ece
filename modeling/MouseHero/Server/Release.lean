import MouseHero.Server.Requests

/-!
# The release of the bufferevents

A bufferevent is stored from `accept_cb` to the end of its connection or the
stop of the server.  No callback touches it after that, and none frees it
twice.
-/

namespace MouseHero

open FaultM YaClientManager

variable {F : Type}

/-! ## Stopping -/

def freeBufferevents : List BevId → ServerM F Unit
  | [] => return ()
  | bev :: bevs => do
      buffereventFree bev
      freeBufferevents bevs

/-- `stop`, as far as it concerns the state of the program. -/
def stop : ServerM F Unit := do
  let world ← getState
  let (manager, bevs) := yaClientManagerCleanup world.manager
  freeBufferevents bevs
  modifyState fun world => { world with manager, macsCsv := none }

/-- The server without the bufferevents of a list. -/
def World.without (world : World F) (bevs : List BevId) : World F :=
  { world with
    bevs := fun bev => if bev ∈ bevs then none else world.bevs bev }

theorem World.without_cons (world : World F) (bev : BevId)
    (bevs : List BevId) :
    (world.setBev bev none).without bevs = world.without (bev :: bevs) := by
  have sameBevs :
      ((world.setBev bev none).without bevs).bevs =
        (world.without (bev :: bevs)).bevs := by
    funext other
    by_cases isHead : other = bev <;> by_cases inTail : other ∈ bevs <;>
      simp [World.without, World.setBev, isHead, inTail]
  exact congrArg (fun bevs => { world with bevs }) sameBevs

/-- Distinct stored bufferevents are freed one after the other. -/
theorem freeBufferevents_of_stored {bevs : List BevId} {world : World F}
    (distinct : bevs.Nodup)
    (stored : ∀ bev ∈ bevs, (world.bevs bev).isSome) :
    freeBufferevents bevs world = (.ok (), world.without bevs) := by
  induction bevs generalizing world with
  | nil => simp [freeBufferevents, World.without]
  | cons bev bevs inductionHypothesis =>
      obtain ⟨notAgain, distinctTail⟩ := List.nodup_cons.mp distinct
      obtain ⟨contents, isStored⟩ :=
        Option.isSome_iff_exists.mp (stored bev List.mem_cons_self)
      have storedTail :
          ∀ other ∈ bevs, ((world.setBev bev none).bevs other).isSome := by
        intro other member
        have different : other ≠ bev := by
          rintro rfl
          exact notAgain member
        simp only [World.setBev, if_neg different]
        exact stored other (List.mem_cons_of_mem _ member)
      rw [freeBufferevents, bind_of_ok (buffereventFree_of_some isStored),
        inductionHypothesis distinctTail storedTail, World.without_cons]

section Owned

variable {live : List Connection} {world : World F}

/-- A client with a bufferevent is the active client of a live connection. -/
theorem Ownership.holder (ownership : Ownership live world)
    {entry : YaClient F} (member : entry ∈ world.manager.clients)
    {bev : BevId} (held : entry.bev = some bev) :
    ∃ connection ∈ live,
      connection.bev = bev ∧ connection.client = entry.addr := by
  rcases ownership.others entry member with ⟨connection, isLive, same⟩ | gone
  · obtain ⟨owner, contents, owned⟩ := ownership.owned connection isLive
    have stored := owned.stored
    rw [same, deref_eq_of_mem ownership.once member] at stored
    cases stored
    have sameBev := owned.bev
    rw [held] at sameBev
    exact ⟨connection, isLive, (Option.some.inj sameBev).symm, same⟩
  · rw [gone.2] at held
    cases held

/-- The cleanup frees the bufferevents of the live connections, each once. -/
theorem Ownership.cleanup (ownership : Ownership live world) :
    (yaClientManagerCleanup world.manager).2.Perm
      (live.map Connection.bev) := by
  have distinct : (yaClientManagerCleanup world.manager).2.Nodup := by
    refine List.pairwise_filterMap.mpr ?_
    refine (List.pairwise_map.mp ownership.once).imp_of_mem ?_
    intro first second firstMember secondMember different bev firstHeld bev'
      secondHeld same
    obtain ⟨one, oneLive, oneBev, oneClient⟩ :=
      ownership.holder firstMember firstHeld
    obtain ⟨two, twoLive, twoBev, twoClient⟩ :=
      ownership.holder secondMember secondHeld
    have sameConnection : one = two :=
      List.inj_on_of_nodup_map ownership.bevs oneLive twoLive
        (oneBev.trans (same.trans twoBev.symm))
    apply different
    rw [← oneClient, ← twoClient, sameConnection]
  refine (List.perm_ext_iff_of_nodup distinct ownership.bevs).mpr fun bev => ?_
  constructor
  · intro freed
    obtain ⟨entry, member, held⟩ := List.mem_filterMap.mp freed
    obtain ⟨connection, isLive, isBev, -⟩ := ownership.holder member held
    exact List.mem_map.mpr ⟨connection, isLive, isBev⟩
  · intro isLive
    obtain ⟨connection, member, rfl⟩ := List.mem_map.mp isLive
    obtain ⟨entry, contents, owned⟩ := ownership.owned connection member
    exact List.mem_filterMap.mpr
      ⟨entry, mem_of_deref owned.stored, owned.bev⟩

/-- The stored bufferevents are those of the live connections. -/
theorem Ownership.isSome_iff (ownership : Ownership live world) (bev : BevId) :
    (world.bevs bev).isSome ↔ bev ∈ live.map Connection.bev := by
  constructor
  · intro stored
    obtain ⟨contents, stored⟩ := Option.isSome_iff_exists.mp stored
    obtain ⟨connection, isLive, isBev⟩ := ownership.stored bev contents stored
    exact List.mem_map.mpr ⟨connection, isLive, isBev⟩
  · intro isLive
    obtain ⟨connection, member, rfl⟩ := List.mem_map.mp isLive
    obtain ⟨entry, contents, owned⟩ := ownership.owned connection member
    rw [owned.buffered]
    rfl

theorem Ownership.stops (ownership : Ownership live world) :
    ∃ after, stop world = (.ok (), after) ∧ ∀ bev, after.bevs bev = none := by
  have cleanup := ownership.cleanup
  have stored :
      ∀ bev ∈ (yaClientManagerCleanup world.manager).2,
        (world.bevs bev).isSome :=
    fun bev freed => (ownership.isSome_iff bev).mpr (cleanup.mem_iff.mp freed)
  have freeing := freeBufferevents_of_stored
    (cleanup.nodup_iff.mpr ownership.bevs) stored
  refine ⟨{ world.without (yaClientManagerCleanup world.manager).2 with
      manager := (yaClientManagerCleanup world.manager).1
      macsCsv := none }, ?_, fun bev => ?_⟩
  · rw [stop, bind_of_ok (getState_apply world)]
    exact bind_of_ok freeing
  · by_cases freed : bev ∈ (yaClientManagerCleanup world.manager).2
    · exact if_pos freed
    · have notStored : ¬ (world.bevs bev).isSome := fun isStored =>
        freed (cleanup.mem_iff.mpr ((ownership.isSome_iff bev).mp isStored))
      exact (if_neg freed).trans (Option.not_isSome_iff_eq_none.mp notStored)

end Owned

/-! ## The callbacks -/

/-- What the server does with the bufferevents after a history of events.  To
free one that is not stored is a fault, and so is to touch it. -/
structure ReleasesOnce [CFloat F] (history : List SessionEvent)
    (world : World F) : Prop where
  -- What has been accepted is stored until its connection ends.
  stored :
    ((liveConnections history).map Connection.bev).Nodup ∧
      ∀ bev, (world.bevs bev).isSome ↔
        bev ∈ (liveConnections history).map Connection.bev
  -- A bufferevent is kept if its client is created, and freed otherwise.
  accepts :
    ∀ fd bev resources, world.bevs bev = none →
      ∃ client after,
        acceptCb fd (some bev) resources world = (.ok client, after) ∧
          ∀ other, (after.bevs other).isSome ↔
            (world.bevs other).isSome ∨ (other = bev ∧ client.isSome)
  -- A read frees nothing, and touches nothing that has been freed.
  reads :
    ∀ connection ∈ liveConnections history, ∀ chunk outcome after,
      connReadcb connection.bev (some connection.client)
          (world.arrive connection.bev chunk) =
        (outcome, after) →
      (∀ reason, outcome = .error reason →
          reason ≠ .useAfterFree ∧ reason ≠ .doubleFree) ∧
        ∀ bev, (after.bevs bev).isSome ↔ (world.bevs bev).isSome
  -- Where a read calls `handle_authorize`, the connection has its client.
  bound :
    ∀ connection ∈ liveConnections history, ∀ chunk request reached,
      (world.arrive connection.bev chunk).HandsOver connection request
          reached →
        ∃ contents client,
          reached.bevs connection.bev = some contents ∧
            yaClientFindByFd reached.manager contents.fd = some client
  -- An end of the connection frees its bufferevent, and nothing else.
  ends :
    ∀ connection ∈ liveConnections history, ∀ events,
      ∃ after,
        connEventcbOn events (some connection.client) world =
            (.ok (), after) ∧
          ∀ bev, (after.bevs bev).isSome ↔
            (world.bevs bev).isSome ∧
              ¬ (endsConnection events ∧ bev = connection.bev)
  -- The rest is freed by `stop`.
  stops :
    (yaClientManagerCleanup world.manager).2.Perm
        ((liveConnections history).map Connection.bev) ∧
      ∃ after, stop world = (.ok (), after) ∧ ∀ bev, after.bevs bev = none

section Run

variable [CFloat F] {world : World F} {history : List SessionEvent}

/-- Every bufferevent is released once, whatever the callbacks. -/
theorem ServerRun.releasesOnce (run : ServerRun history world) :
    ReleasesOnce history world := by
  have ownership := run.ownership
  exact {
    stored := ⟨ownership.bevs, ownership.isSome_iff⟩
    accepts := by
      intro fd bev resources fresh
      rcases acceptCb_outcome fd resources fresh with
        refuses | ⟨created, client, creates, accepts⟩
      · exact ⟨none, world, refuses, fun other => by simp⟩
      · refine ⟨_, _, accepts, fun other => ?_⟩
        by_cases same : other = bev <;>
          simp [World.withConnection, World.setBev, same]
    reads := by
      intro connection isLive chunk outcome after returned
      have arrives := world.keepsOwners_arrive connection.bev chunk
      have careful :=
        connReadcb_careful ((ownership.keep arrives).serves isLive)
      refine ⟨fun reason stopped => careful.2 reason ?_, fun bev => ?_⟩
      · rw [returned, stopped]
      · have keeps := world.keepsOwners_trans _ _ arrives careful.1
        rw [returned] at keeps
        rw [← Option.isSome_map (f := Bufferevent.fd), ← keeps.sockets bev,
          Option.isSome_map]
    bound := by
      intro connection isLive chunk request reached hands
      have arrives := world.keepsOwners_arrive connection.bev chunk
      have serves := hands.keepsOwners.serves
        ((ownership.keep arrives).serves isLive)
      obtain ⟨entry, contents, served⟩ := serves.client
      exact ⟨contents, entry, served.buffered, served.found⟩
    ends := by
      intro connection isLive events
      obtain ⟨entry, contents, owned⟩ := ownership.owned connection isLive
      by_cases ends : endsConnection events
      · obtain ⟨after, closes, keeps⟩ := connEventcb_of_owned owned
        refine ⟨after, by rw [connEventcbOn, if_pos ends, closes], ?_⟩
        intro bev
        rw [← Option.isSome_map (f := Bufferevent.fd), ← keeps.sockets bev,
          Option.isSome_map]
        by_cases same : bev = connection.bev <;>
          simp [World.withoutConnection, World.setBev, same, ends]
      · refine ⟨world, by rw [connEventcbOn, if_neg ends]; rfl, ?_⟩
        intro bev
        simp [ends]
    stops := ⟨ownership.cleanup, ownership.stops⟩ }

end Run

theorem releasesOnce_hungUp :
    ReleasesOnce [.ended firstConnection, .accepted firstConnection]
      World.hungUp :=
  hungUp_serverRun.releasesOnce

end MouseHero
