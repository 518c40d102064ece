import MouseHero.Client.Reachable
import MouseHero.Client.View

/-!
# Client identifiers

The identifiers are issued by a counter that wraps to 1, so the client that is
created as number `n` gets the identifier `n % (2^32 - 1) + 1`.  A client that
stays in the table while the counter goes round shares its identifier with a
later one.
-/

namespace MouseHero

open ClientCollection YaClientManager

variable {F : Type}

/-! ## The counter -/

/-- After so many identifiers the counter starts again. -/
def uidPeriod : Nat := 2 ^ 32 - 1

/-- The identifier that is issued to the client with a number. -/
def issuedUid (number : Nat) : UInt32 :=
  UInt32.ofNat (number % uidPeriod + 1)

theorem toNat_issuedUid (number : Nat) :
    (issuedUid number).toNat = number % uidPeriod + 1 := by
  simp only [issuedUid, uidPeriod, UInt32.toNat_ofNat']
  omega

theorem issuedUid_ne_zero (number : Nat) : issuedUid number ≠ 0 := by
  intro zero
  have positive := toNat_issuedUid number
  rw [zero] at positive
  cases positive

theorem issuedUid_succ (number : Nat) :
    (if issuedUid number + 1 = 0 then 1 else issuedUid number + 1) =
      issuedUid (number + 1) := by
  have before := toNat_issuedUid number
  have after := toNat_issuedUid (number + 1)
  have sum : (issuedUid number + 1).toNat = (number % uidPeriod + 2) % 2 ^ 32 := by
    rw [UInt32.toNat_add, before]
    rfl
  apply UInt32.toNat_inj.mp
  rw [after]
  simp only [uidPeriod] at before sum ⊢
  split
  · rename_i wrapped
    rw [wrapped] at sum
    simp only [UInt32.reduceToNat] at sum ⊢
    omega
  · rename_i nonzero
    rw [sum]
    have positive : (issuedUid number + 1).toNat ≠ 0 := by
      intro zero
      exact nonzero (UInt32.toNat_inj.mp zero)
    rw [sum] at positive
    omega

/-- Numbers less than a period apart have different identifiers. -/
theorem issuedUid_ne {first second : Nat} (earlier : first < second)
    (near : second < first + uidPeriod) :
    issuedUid first ≠ issuedUid second := by
  intro same
  have words := congrArg UInt32.toNat same
  rw [toNat_issuedUid, toNat_issuedUid] at words
  simp only [uidPeriod] at words near
  omega

theorem issuedUid_add_period (number : Nat) :
    issuedUid (number + uidPeriod) = issuedUid number := by
  rw [issuedUid, issuedUid, Nat.add_mod_right]

/-! ## Numbers of clients -/

/-- The address of the client that a call creates. -/
def ClientOp.created : ClientOp F → Option ClientId
  | create fd bev resources =>
      if bev.isNone ∨ fd < 0 then none else resources.memory
  | _ => none

/-- How many identifiers have been issued since the counter was set. -/
def issued : List (ClientOp F) → Nat
  | [] => 0
  | .cleanup :: _ => 0
  | op :: earlier =>
      if op.created.isSome then issued earlier + 1 else issued earlier

/-- The number of the last client that was created at an address. -/
def birth : List (ClientOp F) → ClientId → Nat
  | [], _ => 0
  | op :: earlier, client =>
      if op.created = some client then issued earlier else birth earlier client

/-- Address and identifier of each client. -/
def ClientCollection.keys (collection : ClientCollection F) :
    List (ClientId × UInt32) :=
  collection.entries.map fun entry => (entry.addr, entry.uid)

theorem ClientCollection.keys_write_sublist {collection : ClientCollection F}
    {client : ClientId} {change : YaClient F → YaClient F}
    (keepsAddr : ∀ entry, (change entry).addr = entry.addr)
    (keepsUid : ∀ entry, (change entry).uid = entry.uid) :
    (collection.write client change).keys.Sublist collection.keys := by
  have same : (collection.write client change).keys = collection.keys := by
    simp only [keys, ClientCollection.write, List.map_map]
    apply List.map_congr_left
    intro entry _
    simp only [Function.comp_apply]
    split
    · rw [keepsAddr, keepsUid]
    · rfl
  rw [same]

theorem ClientCollection.keys_delete_sublist
    (collection : ClientCollection F) (client : ClientId) :
    (collection.delete client).keys.Sublist collection.keys :=
  List.filter_sublist.map _

/-- A call creates one client and issues its identifier, or it keeps some of
the clients and, unless it is the cleanup, the counter. -/
theorem applyTo_keys (op : ClientOp F) (collection : ClientCollection F) :
    (∃ addr,
      op.created = some addr ∧
        (op.applyTo collection).keys =
          (addr,
            if collection.nextUid = 0 then 1 else collection.nextUid) ::
            collection.keys ∧
        (op.applyTo collection).nextUid =
          (let uid := if collection.nextUid = 0 then 1 else collection.nextUid
           if uid + 1 = 0 then 1 else uid + 1)) ∨
    (op.created = none ∧
      (op.applyTo collection).keys.Sublist collection.keys ∧
      (op ≠ .cleanup → (op.applyTo collection).nextUid = collection.nextUid)) := by
  cases op with
  | create fd bev resources =>
      simp only [ClientOp.created, ClientOp.applyTo]
      cases allocated : resources.memory with
      | none =>
          exact Or.inr ⟨ite_self _, List.Sublist.refl _, fun _ => rfl⟩
      | some addr =>
          by_cases refused : bev.isNone ∨ fd < 0
          · simp only [if_pos refused]
            exact Or.inr ⟨trivial, List.Sublist.refl _, fun _ => trivial⟩
          · simp only [if_neg refused]
            exact Or.inl ⟨addr, rfl, rfl, trivial⟩
  | ref client =>
      exact Or.inr ⟨rfl, keys_write_sublist (fun _ => rfl) fun _ => rfl,
        fun _ => rfl⟩
  | unref client =>
      refine Or.inr ⟨rfl, ?_⟩
      simp only [ClientOp.applyTo]
      cases collection.entries.find? (fun entry => entry.addr = client) with
      | none => exact ⟨List.Sublist.refl _, fun _ => rfl⟩
      | some entry =>
          simp only
          split
          · exact ⟨List.Sublist.refl _, fun _ => rfl⟩
          · split
            · exact ⟨keys_delete_sublist _ _, fun _ => rfl⟩
            · exact ⟨keys_write_sublist (fun _ => rfl) fun _ => rfl,
                fun _ => rfl⟩
  | remove uid =>
      refine Or.inr ⟨rfl, ?_⟩
      simp only [ClientOp.applyTo]
      cases collection.entries.find? (fun entry => entry.uid = uid) with
      | none => exact ⟨List.Sublist.refl _, fun _ => rfl⟩
      | some entry =>
          simp only
          split
          · exact ⟨keys_delete_sublist _ _, fun _ => rfl⟩
          · exact ⟨keys_write_sublist (fun _ => rfl) fun _ => rfl,
              fun _ => rfl⟩
  | cleanup =>
      exact Or.inr ⟨rfl, List.nil_sublist _, fun other => absurd rfl other⟩

/-- The identifiers are those of the numbers, and the newest client has the
largest number. -/
structure Numbered (ops : List (ClientOp F)) : Prop where
  nextUid : (ClientCollection.after ops).nextUid = issuedUid (issued ops)
  uids :
    ∀ key ∈ (ClientCollection.after ops).keys,
      key.2 = issuedUid (birth ops key.1)
  born :
    ∀ key ∈ (ClientCollection.after ops).keys, birth ops key.1 < issued ops
  order :
    (ClientCollection.after ops).keys.Pairwise fun newer older =>
      birth ops older.1 < birth ops newer.1

theorem numbered_nil : Numbered ([] : List (ClientOp F)) where
  nextUid := rfl
  uids := fun _ member => absurd member List.not_mem_nil
  born := fun _ member => absurd member List.not_mem_nil
  order := .nil

theorem issued_cons {op : ClientOp F} (other : op ≠ .cleanup)
    (earlier : List (ClientOp F)) :
    issued (op :: earlier) =
      if op.created.isSome then issued earlier + 1 else issued earlier := by
  cases op with
  | cleanup => exact absurd rfl other
  | _ => rfl

/-- The number of a client does not change while it is in the table. -/
theorem birth_cons {op : ClientOp F} {earlier : List (ClientOp F)}
    {client : ClientId} (other : op.created ≠ some client) :
    birth (op :: earlier) client = birth earlier client :=
  if_neg other

/-- A client is created at an address where none is stored. -/
theorem created_not_mem_keys {op : ClientOp F}
    {earlier : List (ClientOp F)} {manager : YaClientManager F}
    (run : ManagerRun earlier manager) (live : op.Live manager)
    {addr : ClientId} (created : op.created = some addr) :
    ∀ key ∈ (ClientCollection.after earlier).keys, key.1 ≠ addr := by
  intro key member taken
  obtain ⟨entry, entryMember, rfl⟩ := List.mem_map.mp member
  have stored := run.refines.perm.mem_iff.mpr entryMember
  cases op with
  | create fd bev resources =>
      simp only [ClientOp.created] at created
      split at created
      · cases created
      · exact live addr created entry stored taken
  | _ => cases created

theorem birth_cons_of_none {op : ClientOp F} {earlier : List (ClientOp F)}
    (createsNone : op.created = none) (client : ClientId) :
    birth (op :: earlier) client = birth earlier client := by
  apply birth_cons
  rw [createsNone]
  exact (Option.some_ne_none client).symm

section Step

variable {op : ClientOp F} {earlier : List (ClientOp F)}
variable {manager : YaClientManager F} {addr : ClientId}

theorem birth_cons_of_mem (run : ManagerRun earlier manager)
    (live : op.Live manager) (created : op.created = some addr) :
    ∀ key ∈ (ClientCollection.after earlier).keys,
      birth (op :: earlier) key.1 = birth earlier key.1 := by
  intro key member
  apply birth_cons
  rw [created]
  intro same
  exact created_not_mem_keys run live created key member
    (Option.some.inj same).symm

theorem issued_cons_of_created (created : op.created = some addr) :
    issued (op :: earlier) = issued earlier + 1 := by
  have other : op ≠ .cleanup := by
    rintro rfl
    cases created
  rw [issued_cons other, created]
  rfl

theorem Numbered.create (numbered : Numbered earlier)
    (run : ManagerRun earlier manager) (live : op.Live manager)
    (created : op.created = some addr)
    (inserted : (ClientCollection.after (op :: earlier)).keys =
      (addr, issuedUid (issued earlier)) ::
        (ClientCollection.after earlier).keys)
    (nextUid : (ClientCollection.after (op :: earlier)).nextUid =
      issuedUid (issued earlier + 1)) :
    Numbered (op :: earlier) := by
  have count : issued (op :: earlier) = issued earlier + 1 :=
    issued_cons_of_created created
  have own : birth (op :: earlier) addr = issued earlier := if_pos created
  have old := birth_cons_of_mem run live created
  exact {
    nextUid := by rw [nextUid, count]
    uids := by
      intro key member
      rw [inserted] at member
      rcases List.mem_cons.mp member with rfl | earlierMember
      · rw [own]
      · rw [old key earlierMember, numbered.uids key earlierMember]
    born := by
      intro key member
      rw [inserted] at member
      rw [count]
      rcases List.mem_cons.mp member with rfl | earlierMember
      · rw [own]
        omega
      · have born := numbered.born key earlierMember
        rw [old key earlierMember]
        omega
    order := by
      rw [inserted]
      refine List.pairwise_cons.mpr ⟨?_, ?_⟩
      · intro key member
        rw [own, old key member]
        exact numbered.born key member
      · apply numbered.order.imp_of_mem
        intro newer older newerMember olderMember before
        rw [old newer newerMember, old older olderMember]
        exact before }

theorem Numbered.keep (numbered : Numbered earlier)
    (createsNone : op.created = none) (keeps : op ≠ .cleanup)
    (sublist : (ClientCollection.after (op :: earlier)).keys.Sublist
      (ClientCollection.after earlier).keys)
    (nextUid : (ClientCollection.after (op :: earlier)).nextUid =
      (ClientCollection.after earlier).nextUid) :
    Numbered (op :: earlier) := by
  have old := @birth_cons_of_none F op earlier createsNone
  have count : issued (op :: earlier) = issued earlier := by
    rw [issued_cons keeps, createsNone]
    rfl
  exact {
    nextUid := by rw [nextUid, count, numbered.nextUid]
    uids := by
      intro key member
      rw [old]
      exact numbered.uids key (sublist.mem member)
    born := by
      intro key member
      rw [old, count]
      exact numbered.born key (sublist.mem member)
    order := by
      apply (numbered.order.sublist sublist).imp
      intro newer older before
      rw [old, old]
      exact before }

theorem Numbered.step (numbered : Numbered earlier)
    (run : ManagerRun earlier manager) (live : op.Live manager) :
    Numbered (op :: earlier) := by
  obtain ⟨addr, created, keys, nextUid⟩ | ⟨createsNone, sublist, sameUid⟩ :=
    applyTo_keys op (ClientCollection.after earlier)
  · rw [numbered.nextUid, if_neg (issuedUid_ne_zero _)] at keys nextUid
    rw [issuedUid_succ] at nextUid
    exact numbered.create run live created keys nextUid
  · by_cases cleans : op = .cleanup
    · subst cleans
      exact {
        nextUid := rfl
        uids := fun _ member => absurd member List.not_mem_nil
        born := fun _ member => absurd member List.not_mem_nil
        order := .nil }
    · exact numbered.keep createsNone cleans sublist (sameUid cleans)

end Step

theorem ManagerRun.numbered {ops : List (ClientOp F)}
    {manager : YaClientManager F} (run : ManagerRun ops manager) :
    Numbered ops := by
  induction run with
  | init => exact numbered_nil
  | step op earlier live inductionHypothesis =>
      exact inductionHypothesis.step earlier live

/-! ## Uniqueness -/

/-- No two clients share an identifier, and a lookup by an identifier finds no
other client than the one that has it. -/
structure YaClientManager.UniqueUids (manager : YaClientManager F) : Prop where
  uids : (manager.clients.map YaClient.uid).Nodup
  lookup :
    ∀ uid found, yaClientFindByUid manager uid = some found →
      ∀ client ∈ manager.clients, client.uid = uid → client = found

private theorem uniqueUids_of_nodup {manager : YaClientManager F}
    (uids : (manager.clients.map YaClient.uid).Nodup) :
    manager.UniqueUids where
  uids := uids
  lookup := by
    intro uid found lookup client member same
    obtain ⟨active, isUid⟩ := hasActive_of_findByUid lookup
    exact List.inj_on_of_nodup_map uids member active.1 (same.trans isUid.symm)

/-- Whenever a client is created, every client in the table has been created
less than a period before. -/
def Timely (ops : List (ClientOp F)) : Prop :=
  ∀ op earlier manager,
    (op :: earlier) <:+ ops → ManagerRun earlier manager →
      op.created.isSome →
        ∀ client ∈ manager.clients,
          issued earlier < birth earlier client.addr + uidPeriod

/-- Every client in the table has been created at most a period ago. -/
def Young (ops : List (ClientOp F)) : Prop :=
  ∀ key ∈ (ClientCollection.after ops).keys,
    issued ops ≤ birth ops key.1 + uidPeriod

variable {ops earlier : List (ClientOp F)} {op : ClientOp F}
variable {manager before : YaClientManager F}

theorem mem_keys_iff (run : ManagerRun ops manager)
    (condition : ClientId → Prop) :
    (∀ key ∈ (ClientCollection.after ops).keys, condition key.1) ↔
      ∀ client ∈ manager.clients, condition client.addr := by
  constructor
  · intro holds client member
    exact holds _
      (List.mem_map_of_mem (run.refines.perm.mem_iff.mp member))
  · intro holds key member
    obtain ⟨entry, entryMember, rfl⟩ := List.mem_map.mp member
    exact holds entry (run.refines.perm.mem_iff.mpr entryMember)

theorem nodup_uids_iff (run : ManagerRun ops manager) :
    (manager.clients.map YaClient.uid).Nodup ↔
      ((ClientCollection.after ops).keys.map Prod.snd).Nodup := by
  rw [(run.refines.perm.map YaClient.uid).nodup_iff, keys, List.map_map]
  rfl

/-- Clients of the same age group have distinct identifiers. -/
theorem Young.uniqueUids (young : Young ops)
    (run : ManagerRun ops manager) : manager.UniqueUids := by
  apply uniqueUids_of_nodup
  have numbered := run.numbered
  rw [nodup_uids_iff run, List.Nodup, List.pairwise_map]
  apply numbered.order.imp_of_mem
  intro newer older newerMember olderMember order same
  rw [numbered.uids newer newerMember, numbered.uids older olderMember] at same
  have born := numbered.born newer newerMember
  have near := young older olderMember
  exact issuedUid_ne order (by omega) same.symm

theorem young_nil : Young ([] : List (ClientOp F)) :=
  fun _ member => absurd member List.not_mem_nil

/-- Clients that are not a period old when one is created are at most a period
old afterwards. -/
theorem Young.step (young : Young earlier) (run : ManagerRun earlier before)
    (live : op.Live before)
    (timely : op.created.isSome →
      ∀ key ∈ (ClientCollection.after earlier).keys,
        issued earlier < birth earlier key.1 + uidPeriod) :
    Young (op :: earlier) := by
  intro key member
  obtain ⟨addr, created, keys, -⟩ | ⟨createsNone, sublist, -⟩ :=
    applyTo_keys op (ClientCollection.after earlier)
  · rw [issued_cons_of_created created]
    have inserted := member
    rw [ClientCollection.after, keys] at inserted
    rcases List.mem_cons.mp inserted with rfl | old
    · rw [birth, if_pos created]
      simp only [uidPeriod]
      omega
    · have near := timely (by rw [created]; rfl) key old
      rw [birth_cons_of_mem run live created key old]
      exact near
  · have old := young key (sublist.mem member)
    rw [birth_cons_of_none createsNone]
    by_cases cleans : op = .cleanup
    · subst cleans
      exact Nat.zero_le _
    · rw [issued_cons cleans, createsNone]
      exact old

/-- A client that gets a fresh identifier meets none that is a period old. -/
theorem YaClientManager.UniqueUids.timely
    (unique : (op.apply before).UniqueUids)
    (young : Young earlier) (run : ManagerRun earlier before)
    (live : op.Live before) (creates : op.created.isSome) :
    ∀ key ∈ (ClientCollection.after earlier).keys,
      issued earlier < birth earlier key.1 + uidPeriod := by
  intro key member
  apply Nat.lt_of_le_of_ne (young key member)
  intro full
  obtain ⟨addr, -, keys, -⟩ | ⟨createsNone, -⟩ :=
    applyTo_keys op (ClientCollection.after earlier)
  · have numbered := run.numbered
    have distinct := (nodup_uids_iff (.step op run live)).mp unique.uids
    rw [ClientCollection.after, keys, List.map_cons,
      numbered.nextUid, if_neg (issuedUid_ne_zero _)] at distinct
    apply (List.nodup_cons.mp distinct).1
    rw [full, issuedUid_add_period, ← numbered.uids key member]
    exact List.mem_map.mpr ⟨key, member, rfl⟩
  · rw [createsNone] at creates
    cases creates

theorem Timely.of_cons (timely : Timely (op :: earlier)) : Timely earlier :=
  fun other before manager suffix =>
    timely other before manager (suffix.trans (List.suffix_cons op earlier))

theorem Timely.young (timely : Timely ops) (run : ManagerRun ops manager) :
    Young ops := by
  induction run with
  | init => exact young_nil
  | step op run live inductionHypothesis =>
      apply (inductionHypothesis timely.of_cons).step run live
      intro creates
      exact (mem_keys_iff run fun client =>
        issued _ < birth _ client + uidPeriod).mpr
          (timely op _ _ List.suffix_rfl run creates)

/-- In the states of a run no two clients share an identifier if and only if no
client stays in the table for a period. -/
theorem uniqueUids_iff (run : ManagerRun ops manager) :
    (∀ earlier before,
      earlier <:+ ops → ManagerRun earlier before → before.UniqueUids) ↔
    Timely ops := by
  constructor
  · intro unique
    have both : Young ops ∧ Timely ops := by
      induction run with
      | init =>
          refine ⟨young_nil, ?_⟩
          intro op earlier _ suffix
          cases List.suffix_nil.mp suffix
      | @step op earlier before run live inductionHypothesis =>
          obtain ⟨young, timely⟩ := inductionHypothesis
            fun others manager suffix =>
              unique others manager (suffix.trans (List.suffix_cons _ _))
          have fresh (creates : op.created.isSome) :=
            (unique _ _ List.suffix_rfl (.step op run live)).timely young run
              live creates
          refine ⟨young.step run live fresh, ?_⟩
          intro other others manager suffix otherRun creates
          rcases List.suffix_cons_iff.mp suffix with same | earlierSuffix
          · cases same
            exact (mem_keys_iff otherRun fun client =>
              issued _ < birth _ client + uidPeriod).mp (fresh creates)
          · exact timely other others manager earlierSuffix otherRun creates
    exact both.2
  · intro timely earlier before suffix earlierRun
    have timelyEarlier : Timely earlier :=
      fun other others manager inner =>
        timely other others manager (inner.trans suffix)
    exact (timelyEarlier.young earlierRun).uniqueUids earlierRun

private theorem issued_le_length (ops : List (ClientOp F)) :
    issued ops ≤ ops.length := by
  induction ops with
  | nil => exact Nat.le_refl 0
  | cons op earlier inductionHypothesis =>
      by_cases cleans : op = .cleanup
      · rw [cleans]
        exact Nat.zero_le _
      · rw [issued_cons cleans, List.length_cons]
        split <;> omega

theorem timely_of_length_le (short : ops.length ≤ uidPeriod) : Timely ops := by
  intro op earlier manager suffix run creates client member
  have shorter := suffix.length_le
  have few := issued_le_length earlier
  rw [List.length_cons] at shorter
  omega

/-- Two clients are created, and the first one is marked as disconnected. -/
theorem uniqueUids_iff_two :
    ∃ manager : YaClientManager Rat,
      ManagerRun [.remove 1, .create 6 (some 32) (bareResources 9),
          .create 5 (some 16) (bareResources 8)] manager ∧
        manager.UniqueUids := by
  have first :=
    ManagerRun.step (F := Rat) (.create 5 (some 16) (bareResources 8)) .init
      fun _ _ _ member => nomatch refines_init.perm.mem_iff.mp member
  have second :=
    ManagerRun.step (.create 6 (some 32) (bareResources 9)) first (by
      intro addr allocated client member same
      have stored := first.refines.perm.mem_iff.mp member
      simp [ClientCollection.after, ClientOp.applyTo, bareResources] at stored
      rw [stored] at same
      cases same
      cases allocated)
  have marked := ManagerRun.step (.remove 1) second trivial
  have timely :
      Timely (F := Rat) [.remove 1, .create 6 (some 32) (bareResources 9),
        .create 5 (some 16) (bareResources 8)] :=
    timely_of_length_le (by decide)
  exact ⟨_, marked,
    (uniqueUids_iff marked).mpr timely _ _ List.suffix_rfl marked⟩

/-! ## The counter goes round -/

theorem issued_createMany (count : Nat) :
    issued (createMany (F := F) count) = count := by
  induction count with
  | zero => rfl
  | succ count inductionHypothesis =>
      have creates :
          issued (createMany (F := F) (count + 1)) =
            issued (createMany (F := F) count) + 1 := rfl
      rw [creates, inductionHypothesis]

private theorem birth_createMany {count client : Nat}
    (stored : client < count) :
    birth (createMany (F := F) count) client = client := by
  induction count with
  | zero => cases stored
  | succ count inductionHypothesis =>
      have unfolded :
          birth (createMany (F := F) (count + 1)) client =
            if some count = some client then issued (createMany (F := F) count)
            else birth (createMany (F := F) count) client := rfl
      rw [unfolded, issued_createMany]
      split
      · rename_i newest
        exact Option.some.inj newest
      · rename_i older
        apply inductionHypothesis
        have different : count ≠ client := fun same => older (by rw [same])
        omega

private theorem active_createMany (count : Nat) :
    ∀ entry ∈ (ClientCollection.after (createMany (F := F) count)).entries,
      entry.state = .active := by
  induction count with
  | zero => exact fun _ member => absurd member List.not_mem_nil
  | succ count inductionHypothesis =>
      intro entry member
      rcases List.mem_cons.mp member with rfl | old
      · rfl
      · exact inductionHypothesis entry old

private theorem createMany_client {count : Nat} {client : ClientId}
    (run : ManagerRun (createMany count) manager) (stored : client < count) :
    ∃ entry,
      manager.HasActive entry ∧ entry.addr = client ∧
        entry.uid = issuedUid client := by
  have known :
      client ∈ (ClientCollection.after (createMany (F := F) count)).entries.map
        YaClient.addr := by
    rw [after_createMany]
    simpa using stored
  obtain ⟨entry, member, isClient⟩ := List.mem_map.mp known
  refine ⟨entry,
    ⟨run.refines.perm.mem_iff.mpr member, active_createMany count entry member⟩,
    isClient, ?_⟩
  have uid := run.numbered.uids _ (List.mem_map_of_mem member)
  simp only [isClient, birth_createMany stored] at uid
  exact uid

/-- The newest client is the one that is found by its identifier. -/
theorem createMany_findByUid {count : Nat}
    (run : ManagerRun (createMany (count + 1)) manager) :
    ∃ newest,
      yaClientFindByUid manager (issuedUid count) = some newest ∧
        newest.addr = count := by
  obtain ⟨before, earlier⟩ := managerRun_createMany (F := F) count
  have uid := earlier.numbered.nextUid
  rw [issued_createMany] at uid
  rw [run.refines.findByUid, createMany, ClientCollection.after]
  simp only [ClientOp.applyTo, bareResources, uid,
    if_neg (issuedUid_ne_zero count)]
  rw [if_neg (by simp), List.find?_cons_of_pos]
  · exact ⟨_, rfl, rfl⟩
  · simp [YaClient.hasUid]

/-- After 2^32 creations the first and the last client are in the table and
have the identifier 1, and the last one is found by it. -/
theorem uids_wrap :
    ∃ (manager : YaClientManager Rat) (first found : YaClient Rat),
      ManagerRun (createMany (2 ^ 32)) manager ∧
        manager.HasActive first ∧ first.addr = 0 ∧ first.uid = 1 ∧
        yaClientFindByUid manager 1 = some found ∧ found.addr = 2 ^ 32 - 1 ∧
        ¬ manager.UniqueUids := by
  obtain ⟨manager, run⟩ := managerRun_createMany (F := Rat) (2 ^ 32)
  have created : (0 : ClientId) < 2 ^ 32 := by decide
  obtain ⟨first, active, isFirst, uid⟩ := createMany_client run created
  obtain ⟨found, lookup, isLast⟩ :
      ∃ newest,
        yaClientFindByUid manager (issuedUid (2 ^ 32 - 1)) = some newest ∧
          newest.addr = 2 ^ 32 - 1 :=
    createMany_findByUid run
  have one : issuedUid (2 ^ 32 - 1) = 1 := by decide
  rw [one] at lookup
  refine ⟨manager, first, found, run, active, isFirst, uid, lookup, isLast, ?_⟩
  intro unique
  have same := unique.lookup 1 found lookup first active.1 uid
  rw [same, isLast] at isFirst
  cases isFirst

end MouseHero
