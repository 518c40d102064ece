import MouseHero.Client.Manager

/-!
# The client table as a collection

What the client manager is for: a collection of clients, the newest first,
with reference counts.  The hash table refines the collection under every
operation, so that lookups and counts are those of the collection.
-/

namespace MouseHero

variable {F : Type}

/-- The clients in the order of their creation, the newest first. -/
structure ClientCollection (F : Type) where
  entries : List (YaClient F)
  nextUid : UInt32

namespace ClientCollection

/-- Change the client at an address. -/
def write (collection : ClientCollection F) (client : ClientId)
    (change : YaClient F → YaClient F) : ClientCollection F :=
  { collection with
    entries := collection.entries.map fun other =>
      if other.addr = client then change other else other }

/-- Delete the client at an address. -/
def delete (collection : ClientCollection F) (client : ClientId) :
    ClientCollection F :=
  { collection with
    entries := collection.entries.filter fun other => !(other.addr = client) }

end ClientCollection

/-- The calls of the client manager. -/
inductive ClientOp (F : Type) where
  | create (fd : Int) (bev : Option BevId) (resources : ClientResources F)
  | ref (client : ClientId)
  | unref (client : ClientId)
  | remove (uid : UInt32)
  | cleanup

namespace ClientOp

/-- The call on the hash table. -/
def apply (manager : YaClientManager F) : ClientOp F → YaClientManager F
  | create fd bev resources => (yaClientCreate manager fd bev resources).1
  | ref client => yaClientRef manager client
  | unref client =>
      match manager.deref client with
      | some entry => (yaClientUnref manager entry).1
      | none => manager
  | remove uid => (yaClientRemove manager uid).1
  | cleanup => (yaClientManagerCleanup manager).1

/-- The call is one the callers may make: memory is not allocated twice, and
pointers are to clients that have not been freed. -/
def Live (manager : YaClientManager F) : ClientOp F → Prop
  | create _ _ resources =>
      ∀ addr, resources.memory = some addr →
        ∀ client ∈ manager.clients, client.addr ≠ addr
  | ref client => ∃ entry ∈ manager.clients, entry.addr = client
  | unref client => ∃ entry ∈ manager.clients, entry.addr = client
  | remove _ => True
  | cleanup => True

/-- The call on the collection. -/
def applyTo (collection : ClientCollection F) :
    ClientOp F → ClientCollection F
  | create fd bev resources =>
      match resources.memory with
      | some addr =>
          if bev.isNone ∨ fd < 0 then collection
          else
            let uid := if collection.nextUid = 0 then 1 else collection.nextUid
            { entries :=
                { addr, fd, uid, bev
                  commandIndex := 0
                  refCount := 1
                  state := .active
                  mouseFilter := resources.mouseFilter
                  connectedAt := resources.time
                  protocolVersion := 0 } :: collection.entries
              nextUid := if uid + 1 = 0 then 1 else uid + 1 }
      | none => collection
  | ref client =>
      collection.write client fun entry =>
        { entry with refCount := entry.refCount + 1 }
  | unref client =>
      match collection.entries.find? fun entry => entry.addr = client with
      | none => collection
      | some entry =>
          if entry.refCount = 0 then collection
          else if entry.refCount = 1 ∧ entry.state = .disconnected then
            collection.delete client
          else
            collection.write client fun entry =>
              { entry with refCount := entry.refCount - 1 }
  | remove uid =>
      match collection.entries.find? fun entry => entry.uid = uid with
      | none => collection
      | some entry =>
          if entry.refCount = 0 then collection.delete entry.addr
          else
            collection.write entry.addr fun entry =>
              { entry with state := .disconnected }
  | cleanup => { entries := [], nextUid := 1 }

end ClientOp

/-- The collection after a sequence of calls, the last call first. -/
def ClientCollection.after : List (ClientOp F) → ClientCollection F
  | [] => { entries := [], nextUid := 1 }
  | op :: earlier => op.applyTo (after earlier)

/-- The table after a sequence of permitted calls, the last call first. -/
inductive ManagerRun : List (ClientOp F) → YaClientManager F → Prop
  | init : ManagerRun [] yaClientManagerInit
  | step (op : ClientOp F) {earlier : List (ClientOp F)}
      {manager : YaClientManager F} :
      ManagerRun earlier manager →
      op.Live manager →
      ManagerRun (op :: earlier) (op.apply manager)

/-- The table holds the clients of the collection. -/
structure ClientCollection.Refines (manager : YaClientManager F)
    (collection : ClientCollection F) : Prop where
  chains :
    ChainedTable.Refines YaClient.bucket manager.buckets collection.entries
  addresses : (collection.entries.map YaClient.addr).Nodup
  uids : ∀ client ∈ collection.entries, client.uid ≠ 0
  fds : ∀ client ∈ collection.entries, 0 ≤ client.fd
  count : manager.clientCount = UInt32.ofNat collection.entries.length
  nextUid : manager.nextUid = collection.nextUid

namespace ClientCollection.Refines

variable {manager : YaClientManager F} {collection : ClientCollection F}

theorem perm (refines : Refines manager collection) :
    manager.clients.Perm collection.entries :=
  refines.chains.perm (List.nodup_finRange _) List.mem_finRange

theorem eq_of_addr (refines : Refines manager collection)
    {first second : YaClient F} (firstMember : first ∈ collection.entries)
    (secondMember : second ∈ collection.entries)
    (sameAddr : first.addr = second.addr) :
    first = second :=
  List.inj_on_of_nodup_map refines.addresses firstMember secondMember sameAddr

theorem deref (refines : Refines manager collection) (client : ClientId) :
    manager.deref client =
      collection.entries.find? fun entry => entry.addr = client := by
  apply ChainedTable.find?_perm_of_unique refines.perm
  intro first firstMember second secondMember firstIs secondIs
  simp only [decide_eq_true_eq] at firstIs secondIs
  exact refines.eq_of_addr firstMember secondMember
    (firstIs.trans secondIs.symm)

theorem pairwise_addr (refines : Refines manager collection)
    (client : ClientId) :
    collection.entries.Pairwise fun first second =>
      ¬ (decide (first.addr = client) ∧ decide (second.addr = client)) := by
  apply (List.pairwise_map.mp refines.addresses).imp
  intro first second different both
  simp only [decide_eq_true_eq] at both
  exact different (both.1.trans both.2.symm)

theorem write (refines : Refines manager collection) (client : ClientId)
    (change : YaClient F → YaClient F)
    (keepsAddr : ∀ entry, (change entry).addr = entry.addr)
    (keepsUid : ∀ entry, (change entry).uid = entry.uid)
    (keepsFd : ∀ entry, (change entry).fd = entry.fd) :
    Refines (manager.write client change) (collection.write client change) where
  chains := by
    apply refines.chains.update
    intro entry _
    split
    · simp only [YaClient.bucket, keepsUid]
    · rfl
  addresses := by
    have sameAddresses :
        (collection.write client change).entries.map YaClient.addr =
          collection.entries.map YaClient.addr := by
      simp only [ClientCollection.write, List.map_map]
      apply List.map_congr_left
      intro entry _
      simp only [Function.comp_apply]
      split
      · exact keepsAddr entry
      · rfl
    rw [sameAddresses]
    exact refines.addresses
  uids := by
    intro entry member
    obtain ⟨original, originalMember, rfl⟩ := List.mem_map.mp member
    split
    · rw [keepsUid]
      exact refines.uids original originalMember
    · exact refines.uids original originalMember
  fds := by
    intro entry member
    obtain ⟨original, originalMember, rfl⟩ := List.mem_map.mp member
    split
    · rw [keepsFd]
      exact refines.fds original originalMember
    · exact refines.fds original originalMember
  count := by
    simp only [ClientCollection.write, List.length_map]
    exact refines.count
  nextUid := refines.nextUid

/-- Deleting one of `n` entries leaves `n - 1`. -/
theorem length_delete (refines : Refines manager collection)
    {entry : YaClient F} (member : entry ∈ collection.entries) :
    (collection.delete entry.addr).entries.length + 1 =
      collection.entries.length := by
  have nonempty := List.length_pos_of_mem member
  have shorter :=
    List.length_eraseP_of_mem (p := fun other => other.addr = entry.addr)
      member (by simp)
  rw [ChainedTable.eraseP_eq_filter (refines.pairwise_addr entry.addr)]
    at shorter
  simp only [ClientCollection.delete]
  omega

theorem delete (refines : Refines manager collection) {entry : YaClient F}
    (member : entry ∈ collection.entries) :
    Refines (manager.unlink entry.bucket entry.addr)
      (collection.delete entry.addr) where
  chains := by
    apply refines.chains.unlink (refines.pairwise_addr entry.addr)
    intro other otherMember same
    simp only [decide_eq_true_eq] at same
    rw [refines.eq_of_addr otherMember member same]
  addresses := refines.addresses.sublist (List.filter_sublist.map _)
  uids := fun other otherMember =>
    refines.uids other (List.mem_of_mem_filter otherMember)
  fds := fun other otherMember =>
    refines.fds other (List.mem_of_mem_filter otherMember)
  count := by
    have fewer := refines.length_delete member
    simp only [YaClientManager.unlink, refines.count, ← fewer]
    apply UInt32.toNat_inj.mp
    simp only [UInt32.toNat_sub, UInt32.toNat_ofNat', UInt32.reduceToNat]
    omega
  nextUid := refines.nextUid

end ClientCollection.Refines

/-! ## The calls keep the refinement -/

open ClientCollection

variable {manager : YaClientManager F} {collection : ClientCollection F}

theorem refines_init :
    Refines (yaClientManagerInit (F := F)) (ClientCollection.after []) where
  chains := ChainedTable.refines_empty
  addresses := List.nodup_nil
  uids := fun _ member => nomatch member
  fds := fun _ member => nomatch member
  count := rfl
  nextUid := rfl

theorem ClientCollection.delete_write {client : ClientId}
    {change : YaClient F → YaClient F}
    (keepsAddr : ∀ entry, (change entry).addr = entry.addr) :
    (collection.write client change).delete client =
      collection.delete client := by
  simp only [ClientCollection.write, ClientCollection.delete]
  congr 1
  induction collection.entries with
  | nil => rfl
  | cons entry rest inductionHypothesis =>
      by_cases same : entry.addr = client
      · simp [same, keepsAddr, inductionHypothesis]
      · simp [same, inductionHypothesis]

theorem ClientCollection.write_congr (refines : Refines manager collection)
    {entry : YaClient F} (member : entry ∈ collection.entries)
    (first second : YaClient F → YaClient F)
    (same : first entry = second entry) :
    collection.write entry.addr first = collection.write entry.addr second := by
  simp only [ClientCollection.write]
  congr 1
  apply List.map_congr_left
  intro other otherMember
  split
  · rename_i sameAddr
    rw [refines.eq_of_addr otherMember member sameAddr, same]
  · rfl

theorem ClientCollection.mem_write {entry : YaClient F}
    (member : entry ∈ collection.entries)
    (change : YaClient F → YaClient F) :
    change entry ∈ (collection.write entry.addr change).entries :=
  List.mem_map.mpr ⟨entry, member, if_pos rfl⟩

/-- A client that is written to right before it is freed. -/
theorem ClientCollection.Refines.write_delete
    (refines : Refines manager collection) {entry : YaClient F}
    (member : entry ∈ collection.entries)
    {change : YaClient F → YaClient F}
    (keepsAddr : ∀ entry, (change entry).addr = entry.addr)
    (keepsUid : ∀ entry, (change entry).uid = entry.uid)
    (keepsFd : ∀ entry, (change entry).fd = entry.fd) :
    Refines ((manager.write entry.addr change).unlink entry.bucket entry.addr)
      (collection.delete entry.addr) := by
  have deleted :=
    (refines.write entry.addr change keepsAddr keepsUid keepsFd).delete
      (mem_write member change)
  rw [keepsAddr, YaClient.bucket, keepsUid, delete_write keepsAddr] at deleted
  exact deleted

private theorem refines_create (refines : Refines manager collection)
    {fd : Int} {bev : Option BevId} {resources : ClientResources F}
    (live : (ClientOp.create fd bev resources).Live manager) :
    Refines ((ClientOp.create fd bev resources).apply manager)
      ((ClientOp.create fd bev resources).applyTo collection) := by
  simp only [ClientOp.apply, ClientOp.applyTo, yaClientCreate]
  cases allocated : resources.memory with
  | none =>
      simp only [ite_self]
      exact refines
  | some addr =>
      by_cases refused : bev.isNone ∨ fd < 0
      · simp only [if_pos refused]
        exact refines
      · simp only [if_neg refused]
        rw [← refines.nextUid]
        exact {
          chains := refines.chains.insert _
          addresses := by
            refine List.nodup_cons.mpr ⟨?_, refines.addresses⟩
            intro taken
            obtain ⟨client, member, sameAddr⟩ := List.mem_map.mp taken
            exact live addr allocated client
              (refines.perm.mem_iff.mpr member) sameAddr
          uids := by
            intro client member
            rcases List.mem_cons.mp member with rfl | old
            · simp only
              split
              · decide
              · assumption
            · exact refines.uids client old
          fds := by
            intro client member
            rcases List.mem_cons.mp member with rfl | old
            · simp only
              omega
            · exact refines.fds client old
          count := by
            simp only [refines.count, List.length_cons, UInt32.ofNat_add]
            rfl
          nextUid := rfl }

private theorem refines_ref (refines : Refines manager collection)
    (client : ClientId) :
    Refines ((ClientOp.ref client).apply manager)
      ((ClientOp.ref client).applyTo collection) :=
  refines.write client _ (fun _ => rfl) (fun _ => rfl) (fun _ => rfl)

theorem refines_unref (refines : Refines manager collection)
    (client : ClientId) :
    Refines ((ClientOp.unref client).apply manager)
      ((ClientOp.unref client).applyTo collection) := by
  simp only [ClientOp.apply, ClientOp.applyTo, refines.deref client]
  cases found :
      collection.entries.find? (fun entry => entry.addr = client) with
  | none => exact refines
  | some entry =>
      have member := List.mem_of_find?_eq_some found
      have sameAddr : entry.addr = client := by
        simpa using List.find?_some found
      subst sameAddr
      simp only [yaClientUnref]
      by_cases unreferenced : entry.refCount = 0
      · rw [if_neg (by simp [unreferenced]), if_pos unreferenced]
        exact refines
      · have written :=
          refines.write entry.addr
            (fun other => { other with refCount := entry.refCount - 1 })
            (fun _ => rfl) (fun _ => rfl) (fun _ => rfl)
        rw [if_pos (UInt32.pos_iff_ne_zero.mpr unreferenced),
          if_neg unreferenced]
        have last : entry.refCount - 1 = 0 ↔ entry.refCount = 1 := by
          grind
        simp only [last]
        by_cases freed : entry.refCount = 1 ∧ entry.state = .disconnected
        · have changed := mem_write member (fun other =>
              { other with refCount := entry.refCount - 1 })
          have linked :
              ((manager.write entry.addr fun other =>
                  { other with refCount := entry.refCount - 1 }).buckets
                entry.bucket).any (fun other => other.addr = entry.addr) = true :=
            List.any_eq_true.mpr
              ⟨_, written.chains.mem_iff.mpr ⟨changed, rfl⟩, by simp⟩
          rw [if_pos freed, if_pos freed, if_pos linked]
          exact refines.write_delete member (fun _ => rfl) (fun _ => rfl) (fun _ => rfl)
        · rw [if_neg freed, if_neg freed,
            write_congr refines member
              (fun other => { other with refCount := other.refCount - 1 })
              (fun other => { other with refCount := entry.refCount - 1 })
              rfl]
          exact written

theorem refines_remove (refines : Refines manager collection)
    (uid : UInt32) :
    Refines ((ClientOp.remove uid).apply manager)
      ((ClientOp.remove uid).applyTo collection) := by
  simp only [ClientOp.apply, ClientOp.applyTo, yaClientRemove]
  by_cases zero : uid = 0
  · have absent :
        collection.entries.find? (fun entry => entry.uid = uid) = none := by
      rw [List.find?_eq_none]
      intro entry member
      simpa [zero] using refines.uids entry member
    rw [if_pos zero, absent]
    exact refines
  · rw [if_neg zero,
      refines.chains.find? (fun entry _ sameUid => by
        simp only [decide_eq_true_eq] at sameUid
        rw [YaClient.bucket, sameUid])]
    cases found : collection.entries.find? (fun entry => entry.uid = uid) with
    | none => exact refines
    | some entry =>
        have member := List.mem_of_find?_eq_some found
        have sameUid : entry.uid = uid := by
          simpa using List.find?_some found
        have marked :=
          refines.write entry.addr
            (fun other => { other with state := .disconnected })
            (fun _ => rfl) (fun _ => rfl) (fun _ => rfl)
        by_cases unreferenced : entry.refCount = 0
        · simp only [if_pos unreferenced]
          have sameBucket : hashUid uid = entry.bucket := by
            rw [YaClient.bucket, sameUid]
          rw [sameBucket]
          exact refines.write_delete member (fun _ => rfl) (fun _ => rfl) (fun _ => rfl)
        · simp only [if_neg unreferenced]
          exact marked

private theorem refines_cleanup :
    Refines (ClientOp.cleanup.apply manager)
      (ClientOp.cleanup.applyTo collection) where
  chains := ChainedTable.refines_empty
  addresses := List.nodup_nil
  uids := fun _ member => nomatch member
  fds := fun _ member => nomatch member
  count := rfl
  nextUid := rfl

/-- Every permitted sequence of calls leaves the table refining the
collection. -/
theorem ManagerRun.refines {ops : List (ClientOp F)}
    (run : ManagerRun ops manager) :
    Refines manager (ClientCollection.after ops) := by
  induction run with
  | init => exact refines_init
  | step op earlier live inductionHypothesis =>
      cases op with
      | create => exact refines_create inductionHypothesis live
      | ref => exact refines_ref inductionHypothesis _
      | unref => exact refines_unref inductionHypothesis _
      | remove => exact refines_remove inductionHypothesis _
      | cleanup => exact refines_cleanup

end MouseHero
