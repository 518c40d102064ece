import MouseHero.Client.Reachable

/-!
# Views of the client table

A reduction forgets some fields of a client.  Two tables that agree under a
reduction have the same clients at the same places up to those fields, so that
lookups on the other fields agree.
-/

namespace MouseHero

variable {F : Type}

namespace YaClientManager

/-- The table with every client reduced. -/
def view (reduce : YaClient F → YaClient F) (manager : YaClientManager F) :
    YaClientManager F :=
  { manager with buckets := ChainedTable.update reduce manager.buckets }

variable {reduce : YaClient F → YaClient F} {manager other : YaClientManager F}

theorem mem_of_deref {client : ClientId} {entry : YaClient F}
    (stored : manager.deref client = some entry) : entry ∈ manager.clients :=
  List.mem_of_find?_eq_some stored

theorem addr_of_deref {client : ClientId} {entry : YaClient F}
    (stored : manager.deref client = some entry) : entry.addr = client := by
  simpa using List.find?_some stored

theorem clients_update (change : YaClient F → YaClient F)
    (buckets : Bucket → List (YaClient F)) :
    (List.finRange YA_CLIENT_HASH_SIZE).flatMap
        (ChainedTable.update change buckets) =
      ((List.finRange YA_CLIENT_HASH_SIZE).flatMap buckets).map change := by
  rw [List.map_flatMap]
  rfl

@[simp]
theorem clients_view (reduce : YaClient F → YaClient F) :
    (manager.view reduce).clients = manager.clients.map reduce :=
  clients_update reduce manager.buckets

theorem find?_map_of_test {change : YaClient F → YaClient F}
    {test : YaClient F → Bool}
    (keeps : ∀ entry, test (change entry) = test entry)
    (entries : List (YaClient F)) :
    (entries.map change).find? test = (entries.find? test).map change := by
  rw [List.find?_map]
  congr 2
  funext entry
  exact keeps entry

theorem deref_view (keepsAddr : ∀ entry, (reduce entry).addr = entry.addr)
    (client : ClientId) :
    (manager.view reduce).deref client =
      (manager.deref client).map reduce := by
  rw [deref, clients_view]
  exact find?_map_of_test (fun entry => by rw [keepsAddr]) _

theorem clients_write (manager : YaClientManager F) (client : ClientId)
    (change : YaClient F → YaClient F) :
    (manager.write client change).clients =
      manager.clients.map fun other =>
        if other.addr = client then change other else other :=
  clients_update _ manager.buckets

theorem deref_write (client : ClientId) (change : YaClient F → YaClient F)
    (keepsAddr : ∀ entry, (change entry).addr = entry.addr) :
    (manager.write client change).deref client =
      (manager.deref client).map change := by
  have sameTest (entry : YaClient F) :
      decide ((if entry.addr = client then change entry else entry).addr =
        client) = decide (entry.addr = client) := by
    split <;> simp [keepsAddr]
  rw [deref, clients_write, find?_map_of_test sameTest, ← deref]
  cases stored : manager.deref client with
  | none => rfl
  | some entry => simp [addr_of_deref stored]

theorem deref_write_of_ne {client other : ClientId} (different : other ≠ client)
    {change : YaClient F → YaClient F}
    (keepsAddr : ∀ entry, (change entry).addr = entry.addr) :
    (manager.write client change).deref other = manager.deref other := by
  have sameTest (entry : YaClient F) :
      decide ((if entry.addr = client then change entry else entry).addr =
        other) = decide (entry.addr = other) := by
    split <;> simp [keepsAddr]
  rw [deref, clients_write, find?_map_of_test sameTest, ← deref]
  cases stored : manager.deref other with
  | none => rfl
  | some entry => simp [addr_of_deref stored, different]

theorem addresses_write {client : ClientId}
    {change : YaClient F → YaClient F}
    (keepsAddr : ∀ entry, (change entry).addr = entry.addr) :
    (manager.write client change).clients.map YaClient.addr =
      manager.clients.map YaClient.addr := by
  rw [clients_write, List.map_map]
  apply List.map_congr_left
  intro entry _
  simp only [Function.comp_apply]
  split
  · exact keepsAddr entry
  · rfl

theorem write_write {client : ClientId} {first second : YaClient F → YaClient F}
    (keepsAddr : ∀ entry, (first entry).addr = entry.addr) :
    (manager.write client first).write client second =
      manager.write client fun entry => second (first entry) := by
  have sameBuckets :
      ((manager.write client first).write client second).buckets =
        (manager.write client fun entry => second (first entry)).buckets := by
    funext bucket
    simp only [write, ChainedTable.update, List.map_map]
    apply List.map_congr_left
    intro entry _
    simp only [Function.comp_apply]
    by_cases isClient : entry.addr = client
    · simp [isClient, keepsAddr]
    · simp [isClient]
  exact congrArg (fun buckets => { manager with buckets }) sameBuckets

theorem mem_clients_of_mem_bucket {bucket : Bucket} {entry : YaClient F}
    (member : entry ∈ manager.buckets bucket) : entry ∈ manager.clients :=
  List.mem_flatMap.mpr ⟨bucket, List.mem_finRange bucket, member⟩

/-- A client found by its `uid` is active and in the table. -/
theorem hasActive_of_findByUid {uid : UInt32} {entry : YaClient F}
    (found : yaClientFindByUid manager uid = some entry) :
    manager.HasActive entry ∧ entry.uid = uid := by
  unfold yaClientFindByUid at found
  split at found
  · cases found
  · have member :=
      mem_clients_of_mem_bucket (List.mem_of_find?_eq_some found)
    have matching := List.find?_some found
    simp only [YaClient.hasUid, Bool.and_eq_true, decide_eq_true_eq]
      at matching
    exact ⟨⟨member, matching.2⟩, matching.1⟩

/-- A client found by its descriptor is active and in the table. -/
theorem hasActive_of_findByFd {fd : Int} {entry : YaClient F}
    (found : yaClientFindByFd manager fd = some entry) :
    manager.HasActive entry ∧ entry.fd = fd := by
  rw [yaClientFindByFd_eq] at found
  split at found
  · cases found
  · have matching := List.find?_some found
    simp only [YaClient.hasFd, Bool.and_eq_true, decide_eq_true_eq]
      at matching
    exact ⟨⟨List.mem_of_find?_eq_some found, matching.2⟩, matching.1⟩

theorem deref_of_mem {entry : YaClient F}
    (member : entry ∈ manager.clients) :
    (manager.deref entry.addr).isSome := by
  rw [deref, List.find?_isSome]
  exact ⟨entry, member, by simp⟩

theorem view_write {client : ClientId} {change : YaClient F → YaClient F}
    (forgotten : ∀ entry ∈ manager.clients, entry.addr = client →
      reduce (change entry) = reduce entry) :
    (manager.write client change).view reduce = manager.view reduce := by
  have sameBuckets :
      ChainedTable.update reduce (manager.write client change).buckets =
        ChainedTable.update reduce manager.buckets := by
    funext bucket
    simp only [write, ChainedTable.update, List.map_map]
    apply List.map_congr_left
    intro entry member
    simp only [Function.comp_apply]
    split
    · rename_i isClient
      exact forgotten entry (mem_clients_of_mem_bucket member) isClient
    · rfl
  rw [view, sameBuckets]
  rfl

theorem deref_of_view_eq
    (same : manager.view reduce = other.view reduce)
    (keepsAddr : ∀ entry, (reduce entry).addr = entry.addr)
    (client : ClientId) :
    (manager.deref client).map reduce = (other.deref client).map reduce := by
  rw [← deref_view keepsAddr, ← deref_view keepsAddr, same]

theorem deref_eq_of_mem (once : (manager.clients.map YaClient.addr).Nodup)
    {entry : YaClient F} (member : entry ∈ manager.clients) :
    manager.deref entry.addr = some entry := by
  obtain ⟨found, stored⟩ := Option.isSome_iff_exists.mp (deref_of_mem member)
  rw [stored, List.inj_on_of_nodup_map once (mem_of_deref stored) member
    (addr_of_deref stored)]

theorem findByFd_view (keepsFd : ∀ entry, (reduce entry).fd = entry.fd)
    (keepsState : ∀ entry, (reduce entry).state = entry.state) (fd : Int) :
    yaClientFindByFd (manager.view reduce) fd =
      (yaClientFindByFd manager fd).map reduce := by
  rw [yaClientFindByFd_eq, yaClientFindByFd_eq, clients_view,
    find?_map_of_test]
  · split <;> rfl
  · intro entry
    simp only [YaClient.hasFd, keepsFd, keepsState]

theorem findByFd_of_view_eq
    (same : manager.view reduce = other.view reduce)
    (keepsFd : ∀ entry, (reduce entry).fd = entry.fd)
    (keepsState : ∀ entry, (reduce entry).state = entry.state) (fd : Int) :
    (yaClientFindByFd manager fd).map reduce =
      (yaClientFindByFd other fd).map reduce := by
  rw [← findByFd_view keepsFd keepsState, same,
    findByFd_view keepsFd keepsState]

theorem findByUid_view (keepsUid : ∀ entry, (reduce entry).uid = entry.uid)
    (keepsState : ∀ entry, (reduce entry).state = entry.state) (uid : UInt32) :
    yaClientFindByUid (manager.view reduce) uid =
      (yaClientFindByUid manager uid).map reduce := by
  unfold yaClientFindByUid
  split
  · rfl
  · apply find?_map_of_test
    intro entry
    simp only [YaClient.hasUid, keepsUid, keepsState]

theorem findByUid_of_view_eq
    (same : manager.view reduce = other.view reduce)
    (keepsUid : ∀ entry, (reduce entry).uid = entry.uid)
    (keepsState : ∀ entry, (reduce entry).state = entry.state) (uid : UInt32) :
    (yaClientFindByUid manager uid).map reduce =
      (yaClientFindByUid other uid).map reduce := by
  rw [← findByUid_view keepsUid keepsState, same,
    findByUid_view keepsUid keepsState]

/-- An active client with the descriptor is found in both. -/
theorem findByFd_isSome_of_view_eq
    (same : manager.view reduce = other.view reduce)
    (keepsFd : ∀ entry, (reduce entry).fd = entry.fd)
    (keepsState : ∀ entry, (reduce entry).state = entry.state) (fd : Int) :
    (yaClientFindByFd manager fd).isSome =
      (yaClientFindByFd other fd).isSome := by
  rw [← Option.isSome_map (f := reduce) (x := yaClientFindByFd manager fd),
    findByFd_of_view_eq same keepsFd keepsState, Option.isSome_map]

theorem addresses_of_view_eq
    (same : manager.view reduce = other.view reduce)
    (keepsAddr : ∀ entry, (reduce entry).addr = entry.addr) :
    manager.clients.map YaClient.addr = other.clients.map YaClient.addr := by
  have viewed (table : YaClientManager F) :
      (table.view reduce).clients.map YaClient.addr =
        table.clients.map YaClient.addr := by
    rw [clients_view, List.map_map]
    exact List.map_congr_left fun entry _ => keepsAddr entry
  rw [← viewed manager, same, viewed other]

/-! ## References -/

section References

variable (forgetsCount : ∀ (entry : YaClient F) (refCount : UInt32),
  reduce { entry with refCount } = reduce entry)

include forgetsCount

theorem yaClientRef_view (manager : YaClientManager F) (client : ClientId) :
    (yaClientRef manager client).view reduce = manager.view reduce :=
  view_write fun entry _ _ => forgetsCount entry _

/-- Releasing a client that is not marked as disconnected only counts. -/
theorem yaClientUnref_view (manager : YaClientManager F) {entry : YaClient F}
    (connected : entry.state ≠ .disconnected) :
    (yaClientUnref manager entry).1.view reduce = manager.view reduce := by
  unfold yaClientUnref
  split
  · simp only [connected, and_false, if_false]
    exact view_write fun other _ _ => forgetsCount other _
  · rfl

end References

theorem yaClientUnref_freed (manager : YaClientManager F) {entry : YaClient F}
    (connected : entry.state ≠ .disconnected) :
    (yaClientUnref manager entry).2 = none := by
  unfold yaClientUnref
  split
  · simp only [connected, and_false, if_false]
  · rfl

end YaClientManager

/-! ## Two reductions -/

/-- A client without what the handlers write. -/
def YaClient.record (client : YaClient F) : YaClient F :=
  { client with bev := none, mouseFilter := none, protocolVersion := 0 }

/-- A client without what a served request writes. -/
def YaClient.identity (client : YaClient F) : YaClient F :=
  { client.record with commandIndex := 0, refCount := 0 }

theorem identity_refCount (client : YaClient F) (refCount : UInt32) :
    YaClient.identity { client with refCount } = client.identity :=
  rfl

/-- Tables with the same records have the same identities. -/
theorem YaClientManager.identity_of_record {manager other : YaClientManager F}
    (same : manager.view YaClient.record = other.view YaClient.record) :
    manager.view YaClient.identity = other.view YaClient.identity := by
  have coarser (table : YaClientManager F) :
      table.view YaClient.identity =
        (table.view YaClient.record).view YaClient.identity := by
    have sameBuckets :
        ChainedTable.update YaClient.identity table.buckets =
          ChainedTable.update YaClient.identity
            (ChainedTable.update YaClient.record table.buckets) := by
      funext bucket
      simp only [ChainedTable.update, List.map_map]
      rfl
    rw [view, sameBuckets]
    rfl
  rw [coarser manager, same, ← coarser other]

end MouseHero
