import MouseHero.Client.Collection

/-!
# Reachable client tables

What holds of the table after any sequence of calls: every client lies in its
bucket and occurs once, the lookups find a client exactly when an active one
is there, the counters are those of the collection in 32-bit arithmetic, and a
call that frees a client deletes that client and nothing else.
-/

namespace MouseHero

open ClientCollection

variable {F : Type}

/-! ## Lookups and counts -/

namespace YaClientManager

/-- The client is in the table and active. -/
def HasActive (manager : YaClientManager F) (client : YaClient F) : Prop :=
  client ∈ manager.clients ∧ client.state = .active

/-- The invariant of the table. -/
structure Sound (manager : YaClientManager F) : Prop where
  hashed :
    ∀ bucket, ∀ client ∈ manager.buckets bucket, hashUid client.uid = bucket
  once : (manager.clients.map YaClient.addr).Nodup
  uids : ∀ client ∈ manager.clients, client.uid ≠ 0
  counted : manager.clientCount = UInt32.ofNat manager.clients.length
  byUid : ∀ uid,
    ((yaClientFindByUid manager uid).isSome ↔
      ∃ client, manager.HasActive client ∧ client.uid = uid) ∧
    ∀ client, yaClientFindByUid manager uid = some client →
      manager.HasActive client ∧ client.uid = uid
  byFd : ∀ fd,
    ((yaClientFindByFd manager fd).isSome ↔
      ∃ client, manager.HasActive client ∧ client.fd = fd) ∧
    ∀ client, yaClientFindByFd manager fd = some client →
      manager.HasActive client ∧ client.fd = fd
  active :
    yaClientGetCount manager =
      UInt32.ofNat
        (manager.clients.countP fun client => client.state = .active)

/-- Whenever a client of the first table is gone from the second one, the
chains of the second are those of the first without that client. -/
def DeletesExactly (before after : YaClientManager F) : Prop :=
  ∀ client ∈ before.clients,
    (∀ other ∈ after.clients, other.addr ≠ client.addr) →
      ∀ bucket,
        after.buckets bucket =
          (before.buckets bucket).filter fun other =>
            !(other.addr = client.addr)

end YaClientManager

/-- Counting one by one is counting in 32-bit arithmetic. -/
theorem foldl_count (list : List (YaClient F)) (count : UInt32) :
    list.foldl
        (fun count client =>
          if client.state = .active then count + 1 else count) count =
      count +
        UInt32.ofNat (list.countP fun client => client.state = .active) := by
  induction list generalizing count with
  | nil => simp
  | cons client rest inductionHypothesis =>
      rw [List.foldl_cons, inductionHypothesis, List.countP_cons]
      by_cases active : client.state = .active
      · simp only [active, if_true, decide_true, UInt32.ofNat_add]
        grind
      · simp [active]

theorem yaClientGetCount_eq (manager : YaClientManager F) :
    yaClientGetCount manager =
      UInt32.ofNat
        (manager.clients.countP fun client => client.state = .active) := by
  rw [yaClientGetCount, YaClientManager.clients, ← List.foldl_flatMap,
    foldl_count, UInt32.zero_add]

theorem yaClientFindByFd_eq (manager : YaClientManager F) (fd : Int) :
    yaClientFindByFd manager fd =
      if fd < 0 then none
      else manager.clients.find? (YaClient.hasFd fd) := by
  rw [yaClientFindByFd, YaClientManager.clients, List.find?_flatMap]

/-- The lookup by `uid` searches the whole collection. -/
theorem ClientCollection.Refines.findByUid
    {manager : YaClientManager F} {collection : ClientCollection F}
    (refines : Refines manager collection) (uid : UInt32) :
    yaClientFindByUid manager uid =
      collection.entries.find? (YaClient.hasUid uid) := by
  rw [yaClientFindByUid]
  by_cases zero : uid = 0
  · rw [if_pos zero, eq_comm, List.find?_eq_none]
    intro client member
    simp [YaClient.hasUid, zero, refines.uids client member]
  · rw [if_neg zero]
    apply refines.chains.find?
    intro client _ matching
    simp only [YaClient.hasUid, Bool.and_eq_true, decide_eq_true_eq]
      at matching
    rw [YaClient.bucket, matching.1]

/-- A table that refines a collection satisfies the invariant. -/
theorem ClientCollection.Refines.sound
    {manager : YaClientManager F} {collection : ClientCollection F}
    (refines : Refines manager collection) :
    manager.Sound where
  hashed := fun bucket client member =>
    (refines.chains.mem_iff.mp member).2
  once := (refines.perm.map YaClient.addr).nodup_iff.mpr refines.addresses
  uids := fun client member =>
    refines.uids client (refines.perm.mem_iff.mp member)
  counted := by rw [refines.perm.length_eq, refines.count]
  byUid := by
    intro uid
    rw [refines.findByUid]
    constructor
    · rw [List.find?_isSome]
      simp only [YaClient.hasUid, YaClientManager.HasActive,
        refines.perm.mem_iff, Bool.and_eq_true, decide_eq_true_eq]
      grind
    · intro client found
      have member := List.mem_of_find?_eq_some found
      have matching := List.find?_some found
      simp only [YaClient.hasUid, Bool.and_eq_true, decide_eq_true_eq]
        at matching
      exact ⟨⟨refines.perm.mem_iff.mpr member, matching.2⟩, matching.1⟩
  byFd := by
    intro fd
    rw [yaClientFindByFd_eq]
    constructor
    · by_cases negative : fd < 0
      · rw [if_pos negative]
        refine ⟨fun found => (nomatch found), ?_⟩
        rintro ⟨client, ⟨member, -⟩, rfl⟩
        have := refines.fds client (refines.perm.mem_iff.mp member)
        omega
      · rw [if_neg negative, List.find?_isSome]
        simp only [YaClient.hasFd, YaClientManager.HasActive,
          Bool.and_eq_true, decide_eq_true_eq]
        grind
    · intro client found
      split at found
      · cases found
      · have matching := List.find?_some found
        simp only [YaClient.hasFd, Bool.and_eq_true, decide_eq_true_eq]
          at matching
        exact ⟨⟨List.mem_of_find?_eq_some found, matching.2⟩, matching.1⟩
  active := yaClientGetCount_eq manager

/-! ## Freeing a client -/

variable {manager : YaClientManager F} {collection : ClientCollection F}

theorem deletesExactly_of_write {after : YaClientManager F}
    {client : ClientId} {change : YaClient F → YaClient F}
    (refines : Refines manager collection)
    (afterRefines : Refines after (collection.write client change))
    (keepsAddr : ∀ entry, (change entry).addr = entry.addr) :
    manager.DeletesExactly after := by
  intro entry member gone
  have changed :
      (if entry.addr = client then change entry else entry) ∈
        (collection.write client change).entries :=
    List.mem_map_of_mem (refines.perm.mem_iff.mp member)
  refine absurd ?_ (gone _ (afterRefines.perm.mem_iff.mpr changed))
  by_cases written : entry.addr = client
  · rw [if_pos written, keepsAddr]
  · rw [if_neg written]

/-- A call that does not change the collection frees no client. -/
theorem deletesExactly_of_same {after : YaClientManager F}
    (refines : Refines manager collection)
    (afterRefines : Refines after collection) :
    manager.DeletesExactly after := by
  intro entry member gone
  have still := refines.perm.mem_iff.mp member
  exact absurd rfl (gone entry (afterRefines.perm.mem_iff.mpr still))

/-- A call that deletes one client takes it out of its chain. -/
theorem deletesExactly_of_delete {after : YaClientManager F}
    {client : ClientId} (refines : Refines manager collection)
    (afterRefines : Refines after (collection.delete client)) :
    manager.DeletesExactly after := by
  intro entry member gone bucket
  have isClient : entry.addr = client := by
    by_contra other
    have kept : entry ∈ (collection.delete client).entries :=
      List.mem_filter.mpr
        ⟨refines.perm.mem_iff.mp member, by simpa using other⟩
    exact gone entry (afterRefines.perm.mem_iff.mpr kept) rfl
  rw [afterRefines.chains bucket, refines.chains bucket, isClient,
    ClientCollection.delete, List.filter_filter, List.filter_filter]
  apply List.filter_congr
  intro other _
  exact Bool.and_comm _ _

private theorem deletesExactly_unref (refines : Refines manager collection)
    (client : ClientId) :
    manager.DeletesExactly ((ClientOp.unref client).apply manager) := by
  have afterRefines := refines_unref refines client
  simp only [ClientOp.applyTo] at afterRefines
  split at afterRefines
  · exact deletesExactly_of_same refines afterRefines
  · split at afterRefines
    · exact deletesExactly_of_same refines afterRefines
    · split at afterRefines
      · exact deletesExactly_of_delete refines afterRefines
      · exact deletesExactly_of_write refines afterRefines fun _ => rfl

private theorem deletesExactly_remove (refines : Refines manager collection)
    (uid : UInt32) :
    manager.DeletesExactly ((ClientOp.remove uid).apply manager) := by
  have afterRefines := refines_remove refines uid
  simp only [ClientOp.applyTo] at afterRefines
  split at afterRefines
  · exact deletesExactly_of_same refines afterRefines
  · split at afterRefines
    · exact deletesExactly_of_delete refines afterRefines
    · exact deletesExactly_of_write refines afterRefines fun _ => rfl

/-! ## The main result -/

/-- After any permitted sequence of calls the table refines the collection,
satisfies its invariant, and the calls that can free a client delete exactly
that client. -/
theorem managerRun_sound {ops : List (ClientOp F)}
    (run : ManagerRun ops manager) :
    Refines manager (ClientCollection.after ops) ∧
      manager.Sound ∧
      (∀ client,
        manager.DeletesExactly ((ClientOp.unref client).apply manager)) ∧
      ∀ uid, manager.DeletesExactly ((ClientOp.remove uid).apply manager) := by
  have refines := run.refines
  exact ⟨refines, refines.sound, deletesExactly_unref refines,
    deletesExactly_remove refines⟩

/-- The resources of a client at an address, without a mouse filter. -/
def bareResources (addr : ClientId) : ClientResources F where
  memory := some addr
  mouseFilter := none
  time := 0

/-- A client is created, marked as disconnected and released. -/
theorem managerRun_sound_released :
    ∃ manager : YaClientManager Rat,
      Refines manager (ClientCollection.after
        [.unref 8, .remove 1, .create 5 (some 16) (bareResources 8)]) ∧
        manager.Sound := by
  have created :=
    ManagerRun.step (F := Rat) (.create 5 (some 16) (bareResources 8)) .init
      fun _ _ _ member => nomatch refines_init.perm.mem_iff.mp member
  have marked := ManagerRun.step (.remove 1) created trivial
  have stored :
      ∃ entry ∈ (ClientCollection.after (F := Rat)
          [.remove 1, .create 5 (some 16) (bareResources 8)]).entries,
        entry.addr = 8 := by
    simp [ClientCollection.after, ClientOp.applyTo, bareResources,
      ClientCollection.write]
  obtain ⟨entry, member, addr⟩ := stored
  have released :=
    ManagerRun.step (.unref 8) marked
      ⟨entry, marked.refines.perm.mem_iff.mpr member, addr⟩
  have sound := managerRun_sound released
  exact ⟨_, sound.1, sound.2.1⟩

/-! ## The counter is a 32-bit word -/

/-- The creation of `n` clients, the last one first. -/
def createMany : Nat → List (ClientOp F)
  | 0 => []
  | count + 1 =>
      .create 5 (some 16) (bareResources count) :: createMany count

theorem after_createMany (count : Nat) :
    (ClientCollection.after (createMany (F := F) count)).entries.map
        YaClient.addr =
      (List.range count).reverse := by
  induction count with
  | zero => rfl
  | succ count inductionHypothesis =>
      rw [List.range_succ, List.reverse_append, createMany,
        ClientCollection.after]
      simp only [ClientOp.applyTo, bareResources]
      rw [if_neg (by simp), List.map_cons, inductionHypothesis]
      rfl

theorem managerRun_createMany (count : Nat) :
    ∃ manager : YaClientManager F, ManagerRun (createMany count) manager := by
  induction count with
  | zero => exact ⟨_, .init⟩
  | succ count inductionHypothesis =>
      obtain ⟨manager, run⟩ := inductionHypothesis
      refine ⟨_, .step _ run ?_⟩
      rintro addr allocated client member rfl
      cases allocated
      have known :
          client.addr ∈ (List.range client.addr).reverse := by
        rw [← after_createMany]
        exact List.mem_map_of_mem (run.refines.perm.mem_iff.mp member)
      simp at known

/-- After 2^32 creations there are 2^32 clients, and `client_count` is zero. -/
theorem clientCount_wraps :
    ∃ manager : YaClientManager Rat,
      ManagerRun (createMany (2 ^ 32)) manager ∧
        manager.clients.length = 2 ^ 32 ∧
        manager.clientCount = 0 := by
  obtain ⟨manager, run⟩ := managerRun_createMany (F := Rat) (2 ^ 32)
  have entries :
      (ClientCollection.after (createMany (F := Rat) (2 ^ 32))).entries.length =
        2 ^ 32 := by
    have addresses := congrArg List.length (after_createMany (F := Rat) (2 ^ 32))
    rwa [List.length_map, List.length_reverse, List.length_range] at addresses
  refine ⟨manager, run, ?_, ?_⟩
  · rw [run.refines.perm.length_eq, entries]
  · rw [run.refines.count, entries]
    rfl

end MouseHero
