import MouseHero.Client.Uids

/-!
# Reference counts

What the calls on a client add up to, without the table: its count, which
starts with one and never falls below zero, and whether it has been removed.
A client is in the table from its creation until the first call that leaves it
removed with the count zero.
-/

namespace MouseHero

open ClientCollection YaClientManager

variable {F : Type}

/-! ## Tallies -/

/-- What the calls since its creation say about a client. -/
structure Tally where
  uid : UInt32
  count : Nat
  removed : Bool
  deriving DecidableEq, Repr

/-- The client has been removed and nobody refers to it. -/
def Tally.Spent (tally : Tally) : Prop :=
  tally.removed = true ∧ tally.count = 0

/-- The effect of a call on the tally of a client. -/
def ClientOp.score (client : ClientId) (tally : Tally) :
    ClientOp F → Tally
  | ref other =>
      if other = client then { tally with count := tally.count + 1 } else tally
  | unref other =>
      if other = client then { tally with count := tally.count - 1 } else tally
  | remove uid =>
      if tally.uid = uid then { tally with removed := true } else tally
  | create _ _ _ => tally
  | cleanup => tally

/-- The tally of the client that was created last at an address. -/
def tally : List (ClientOp F) → ClientId → Option Tally
  | [], _ => none
  | op :: earlier, client =>
      if op.created = some client then
        some { uid := issuedUid (issued earlier), count := 1, removed := false }
      else
        (tally earlier client).map fun tally => op.score client tally

/-- The last call has left the client spent, or found it so. -/
def SpentAfter (ops : List (ClientOp F)) (client : ClientId) : Prop :=
  ∃ final, tally ops client = some final ∧ final.Spent

/-- No call since the creation of the client has left it spent. -/
def Outstanding : List (ClientOp F) → ClientId → Prop
  | [], _ => False
  | op :: earlier, client =>
      (op.created = some client ∨ Outstanding earlier client) ∧
        ¬ SpentAfter (op :: earlier) client

/-- The tally that the fields of a client stand for. -/
def YaClient.tally (client : YaClient F) : Tally where
  uid := client.uid
  count := client.refCount.toNat
  removed := client.state = .disconnected

/-- The clients are those that the calls have left, with their tallies, and
a client that has not been removed is among them. -/
structure Settled (ops : List (ClientOp F)) (clients : List (YaClient F)) :
    Prop where
  unspent :
    ∀ client ∈ clients,
      ¬ (client.state = .disconnected ∧ client.refCount = 0)
  tallies :
    ∀ client ∈ clients, tally ops client.addr = some client.tally
  freed :
    ∀ client,
      (∃ entry ∈ clients, entry.addr = client) ↔ Outstanding ops client
  kept :
    ∀ client final,
      tally ops client = some final → final.removed = false →
        ∃ entry ∈ clients, entry.addr = client

/-! ## A call on the list of clients -/

def YaClient.spent (client : YaClient F) : Bool :=
  client.state = .disconnected && client.refCount = 0

theorem YaClient.spent_iff (client : YaClient F) :
    client.spent = true ↔ client.tally.Spent := by
  simp only [spent, tally, Tally.Spent, Bool.and_eq_true, decide_eq_true_eq]
  rw [← UInt32.toNat_inj]
  rfl

/-- What a call writes to a client. -/
def ClientOp.touch (entry : YaClient F) : ClientOp F → YaClient F
  | ref client =>
      if entry.addr = client then
        { entry with refCount := entry.refCount + 1 }
      else entry
  | unref client =>
      if entry.addr = client ∧ entry.refCount ≠ 0 then
        { entry with refCount := entry.refCount - 1 }
      else entry
  | remove uid =>
      if entry.uid = uid then { entry with state := .disconnected } else entry
  | create _ _ _ => entry
  | cleanup => entry

/-- The clients that are left when a call has written to them. -/
def ClientOp.sweep (op : ClientOp F) (entries : List (YaClient F)) :
    List (YaClient F) :=
  (entries.map fun entry => op.touch entry).filter fun entry => !entry.spent

theorem ClientOp.touch_addr (op : ClientOp F) (entry : YaClient F) :
    (op.touch entry).addr = entry.addr := by
  cases op <;> simp only [touch] <;> split <;> rfl

theorem sweep_eq_map {op : ClientOp F} {entries : List (YaClient F)}
    {change : YaClient F → YaClient F}
    (touches : ∀ entry ∈ entries, op.touch entry = change entry)
    (unspent : ∀ entry ∈ entries, (change entry).spent = false) :
    op.sweep entries = entries.map change := by
  rw [ClientOp.sweep, List.map_congr_left touches, List.filter_eq_self]
  intro entry member
  obtain ⟨original, originalMember, rfl⟩ := List.mem_map.mp member
  rw [unspent original originalMember]
  rfl

theorem sweep_eq_filter {op : ClientOp F} {entries : List (YaClient F)}
    {client : ClientId}
    (spent : ∀ entry ∈ entries,
      (op.touch entry).spent = decide (entry.addr = client))
    (others : ∀ entry ∈ entries, entry.addr ≠ client → op.touch entry = entry) :
    op.sweep entries = entries.filter fun entry => !(entry.addr = client) := by
  rw [ClientOp.sweep, List.filter_map]
  have same :
      entries.filter ((fun entry => !entry.spent) ∘ fun entry => op.touch entry) =
        entries.filter fun entry => !(entry.addr = client) := by
    apply List.filter_congr
    intro entry member
    simp only [Function.comp_apply, spent entry member]
  rw [same]
  have unchanged :
      ∀ entry ∈ entries.filter fun entry => !(entry.addr = client),
        op.touch entry = id entry := by
    intro entry member
    obtain ⟨inEntries, different⟩ := List.mem_filter.mp member
    apply others entry inEntries
    simpa using different
  rw [List.map_congr_left unchanged, List.map_id]

section Sweep

variable {manager : YaClientManager F} {collection : ClientCollection F}
variable {op : ClientOp F}

theorem sweep_eq_self {entries : List (YaClient F)}
    (unspent : ∀ entry ∈ entries, entry.spent = false)
    (untouched : ∀ entry ∈ entries, op.touch entry = entry) :
    op.sweep entries = entries := by
  have unchanged : ∀ entry ∈ entries, op.touch entry = id entry := untouched
  rw [sweep_eq_map unchanged unspent, List.map_id]

private theorem spent_ref {entry : YaClient F}
    (bounded : entry.refCount.toNat < 2 ^ 32 - 1) :
    YaClient.spent { entry with refCount := entry.refCount + 1 } = false := by
  have positive : entry.refCount + 1 ≠ 0 := by
    intro zero
    have words := congrArg UInt32.toNat zero
    rw [UInt32.toNat_add] at words
    simp only [UInt32.reduceToNat] at words
    omega
  simp [YaClient.spent, positive]

private theorem applyTo_unref_sweep (refines : Refines manager collection)
    (client : ClientId)
    (unspent : ∀ entry ∈ collection.entries, entry.spent = false) :
    ((ClientOp.unref client).applyTo collection).entries =
      (ClientOp.unref client).sweep collection.entries := by
  simp only [ClientOp.applyTo]
  cases found :
      collection.entries.find? (fun entry => entry.addr = client) with
  | none =>
      symm
      apply sweep_eq_self unspent
      intro entry member
      have other := List.find?_eq_none.mp found entry member
      simp only [decide_eq_true_eq] at other
      exact if_neg fun touched => other touched.1
  | some entry =>
      have member := List.mem_of_find?_eq_some found
      have isClient : entry.addr = client := by
        simpa using List.find?_some found
      have only : ∀ other ∈ collection.entries,
          other.addr = client → other = entry :=
        fun other otherMember same =>
          refines.eq_of_addr otherMember member (same.trans isClient.symm)
      simp only
      by_cases unreferenced : entry.refCount = 0
      · rw [if_pos unreferenced]
        symm
        apply sweep_eq_self unspent
        intro other otherMember
        apply if_neg
        rintro ⟨same, referenced⟩
        rw [only other otherMember same] at referenced
        exact referenced unreferenced
      · rw [if_neg unreferenced]
        by_cases freed : entry.refCount = 1 ∧ entry.state = .disconnected
        · rw [if_pos freed]
          symm
          apply sweep_eq_filter
          · intro other otherMember
            by_cases same : other.addr = client
            · rw [only other otherMember same, ClientOp.touch,
                if_pos ⟨isClient, unreferenced⟩]
              simp [YaClient.spent, freed.1, freed.2, isClient]
            · rw [ClientOp.touch, if_neg fun touched => same touched.1,
                unspent other otherMember, decide_eq_false same]
          · intro other _ different
            exact if_neg fun touched => different touched.1
        · rw [if_neg freed]
          symm
          apply sweep_eq_map
          · intro other otherMember
            by_cases same : other.addr = client
            · have referenced : other.refCount ≠ 0 := by
                rw [only other otherMember same]
                exact unreferenced
              rw [ClientOp.touch, if_pos same, if_pos ⟨same, referenced⟩]
            · rw [ClientOp.touch, if_neg same,
                if_neg fun touched => same touched.1]
          · intro other otherMember
            by_cases same : other.addr = client
            · rw [if_pos same, only other otherMember same]
              have last : entry.refCount - 1 = 0 ↔ entry.refCount = 1 := by
                grind
              simp only [YaClient.spent, last, Bool.and_eq_false_iff,
                decide_eq_false_iff_not]
              by_cases disconnected : entry.state = .disconnected
              · exact Or.inr fun one => freed ⟨one, disconnected⟩
              · exact Or.inl disconnected
            · rw [if_neg same]
              exact unspent other otherMember

private theorem applyTo_remove_sweep (refines : Refines manager collection)
    (uid : UInt32)
    (unspent : ∀ entry ∈ collection.entries, entry.spent = false)
    (uids : (collection.entries.map YaClient.uid).Nodup) :
    ((ClientOp.remove uid).applyTo collection).entries =
      (ClientOp.remove uid).sweep collection.entries := by
  simp only [ClientOp.applyTo]
  cases found : collection.entries.find? (fun entry => entry.uid = uid) with
  | none =>
      symm
      apply sweep_eq_self unspent
      intro entry member
      have other := List.find?_eq_none.mp found entry member
      exact if_neg (by simpa using other)
  | some entry =>
      have member := List.mem_of_find?_eq_some found
      have isUid : entry.uid = uid := by simpa using List.find?_some found
      have same_iff : ∀ other ∈ collection.entries,
          (other.addr = entry.addr ↔ other.uid = uid) := by
        intro other otherMember
        constructor
        · intro same
          rw [refines.eq_of_addr otherMember member same, isUid]
        · intro same
          rw [List.inj_on_of_nodup_map uids otherMember member
            (same.trans isUid.symm)]
      simp only
      by_cases unreferenced : entry.refCount = 0
      · rw [if_pos unreferenced]
        symm
        apply sweep_eq_filter
        · intro other otherMember
          by_cases same : other.addr = entry.addr
          · rw [refines.eq_of_addr otherMember member same, ClientOp.touch,
              if_pos isUid]
            simp [YaClient.spent, unreferenced]
          · rw [ClientOp.touch,
              if_neg fun is => same ((same_iff other otherMember).mpr is),
              unspent other otherMember, decide_eq_false same]
        · intro other otherMember different
          exact if_neg fun is =>
            different ((same_iff other otherMember).mpr is)
      · rw [if_neg unreferenced]
        symm
        apply sweep_eq_map
        · intro other otherMember
          simp only [ClientOp.touch, same_iff other otherMember]
        · intro other otherMember
          by_cases same : other.addr = entry.addr
          · rw [if_pos same, refines.eq_of_addr otherMember member same]
            simp [YaClient.spent, unreferenced]
          · rw [if_neg same]
            exact unspent other otherMember

/-- A call that creates no client writes to the clients and leaves out those
that are spent. -/
theorem applyTo_eq_sweep (refines : Refines manager collection)
    (createsNone : op.created = none) (keeps : op ≠ .cleanup)
    (unspent : ∀ entry ∈ collection.entries, entry.spent = false)
    (bounded : ∀ entry ∈ collection.entries,
      entry.refCount.toNat < 2 ^ 32 - 1)
    (uids : (collection.entries.map YaClient.uid).Nodup) :
    (op.applyTo collection).entries = op.sweep collection.entries := by
  cases op with
  | create fd bev resources =>
      have same :
          (ClientOp.create fd bev resources).applyTo collection =
            collection := by
        simp only [ClientOp.created] at createsNone
        simp only [ClientOp.applyTo]
        cases allocated : resources.memory with
        | none => rfl
        | some addr =>
            rw [allocated] at createsNone
            by_cases refused : bev.isNone ∨ fd < 0
            · exact if_pos refused
            · rw [if_neg refused] at createsNone
              cases createsNone
      rw [same, sweep_eq_self unspent fun _ _ => rfl]
  | ref client =>
      symm
      apply sweep_eq_map fun _ _ => rfl
      intro entry member
      simp only [ClientOp.touch]
      split
      · exact spent_ref (bounded entry member)
      · exact unspent entry member
  | unref client => exact applyTo_unref_sweep refines client unspent
  | remove uid => exact applyTo_remove_sweep refines uid unspent uids
  | cleanup => exact absurd rfl keeps

end Sweep

theorem touch_tally (op : ClientOp F) {entry : YaClient F}
    (bounded : entry.refCount.toNat < 2 ^ 32 - 1) :
    (op.touch entry).tally = op.score entry.addr entry.tally := by
  cases op with
  | create | cleanup => rfl
  | ref client =>
      simp only [ClientOp.touch, ClientOp.score, eq_comm (a := client)]
      split
      · have sum : (entry.refCount + 1).toNat = entry.refCount.toNat + 1 := by
          rw [UInt32.toNat_add]
          simp only [UInt32.reduceToNat]
          omega
        simp only [YaClient.tally, sum]
      · rfl
  | unref client =>
      simp only [ClientOp.touch, ClientOp.score, eq_comm (a := client)]
      by_cases same : entry.addr = client
      · simp only [same, true_and, if_true]
        by_cases unreferenced : entry.refCount = 0
        · simp [unreferenced, YaClient.tally]
        · have positive : entry.refCount.toNat ≠ 0 := fun zero =>
            unreferenced (UInt32.toNat_inj.mp zero)
          have difference :
              (entry.refCount - 1).toNat = entry.refCount.toNat - 1 := by
            rw [UInt32.toNat_sub]
            simp only [UInt32.reduceToNat]
            omega
          simp only [unreferenced, ne_eq, not_false_eq_true, if_true,
            YaClient.tally, difference]
      · simp [same]
  | remove uid =>
      by_cases same : entry.uid = uid
      · simp [ClientOp.touch, ClientOp.score, YaClient.tally, same]
      · simp [ClientOp.touch, ClientOp.score, YaClient.tally, same]

/-! ## Runs -/

/-- Nobody cleans up, no count reaches the largest word, and the identifiers
are distinct in every state. -/
structure Disciplined (ops : List (ClientOp F)) : Prop where
  keeps : .cleanup ∉ ops
  bounded :
    ∀ earlier client counted,
      earlier <:+ ops → tally earlier client = some counted →
        counted.count < 2 ^ 32 - 1
  distinct :
    ∀ earlier manager,
      earlier <:+ ops → ManagerRun earlier manager →
        (manager.clients.map YaClient.uid).Nodup

variable {ops earlier : List (ClientOp F)} {op : ClientOp F}
variable {manager before : YaClientManager F}

theorem Disciplined.of_suffix (disciplined : Disciplined ops)
    (suffix : earlier <:+ ops) : Disciplined earlier where
  keeps := fun member => disciplined.keeps (suffix.mem member)
  bounded := fun others client counted inner =>
    disciplined.bounded others client counted (inner.trans suffix)
  distinct := fun others manager inner =>
    disciplined.distinct others manager (inner.trans suffix)

theorem settled_nil : Settled ([] : List (ClientOp F)) [] where
  unspent := fun _ member => absurd member List.not_mem_nil
  tallies := fun _ member => absurd member List.not_mem_nil
  freed := fun _ =>
    iff_of_false (fun ⟨_, member, _⟩ => absurd member List.not_mem_nil) id
  kept := fun _ _ none => nomatch none

theorem Settled.spent_eq_false {clients : List (YaClient F)}
    (settled : Settled ops clients) :
    ∀ client ∈ clients, client.spent = false := by
  intro client member
  simpa [YaClient.spent] using settled.unspent client member

theorem Settled.create {clients : List (YaClient F)} {newest : YaClient F}
    (settled : Settled earlier clients)
    (created : op.created = some newest.addr)
    (fresh : ∀ client ∈ clients, client.addr ≠ newest.addr)
    (referenced : newest.refCount = 1) (active : newest.state = .active)
    (uid : newest.uid = issuedUid (issued earlier)) :
    Settled (op :: earlier) (newest :: clients) := by
  have own : tally (op :: earlier) newest.addr = some newest.tally := by
    rw [MouseHero.tally, if_pos created]
    simp [YaClient.tally, uid, referenced, active]
  have sameTally {client : ClientId} (other : client ≠ newest.addr) :
      tally (op :: earlier) client = tally earlier client := by
    have creates : op.created ≠ some client := by
      rw [created]
      exact fun same => other (Option.some.inj same).symm
    rw [MouseHero.tally, if_neg creates]
    cases op with
    | create =>
        cases tally earlier client with
        | none => rfl
        | some counted => rfl
    | _ => cases created
  have newUnspent : ¬ newest.tally.Spent := by
    simp [Tally.Spent, YaClient.tally, active]
  exact {
    unspent := by
      intro client member
      rcases List.mem_cons.mp member with rfl | old
      · simp [active]
      · exact settled.unspent client old
    tallies := by
      intro client member
      rcases List.mem_cons.mp member with rfl | old
      · exact own
      · rw [sameTally (fresh client old)]
        exact settled.tallies client old
    freed := by
      intro client
      by_cases isNewest : client = newest.addr
      · subst isNewest
        refine iff_of_true ⟨newest, List.mem_cons_self, rfl⟩
          ⟨Or.inl created, ?_⟩
        rintro ⟨final, counted, spent⟩
        rw [own] at counted
        cases counted
        exact newUnspent spent
      · have before := settled.freed client
        constructor
        · rintro ⟨entry, member, rfl⟩
          rcases List.mem_cons.mp member with rfl | old
          · exact absurd rfl isNewest
          · refine ⟨Or.inr (before.mp ⟨entry, old, rfl⟩), ?_⟩
            rintro ⟨final, counted, spent⟩
            rw [sameTally isNewest, settled.tallies entry old] at counted
            cases counted
            rw [← YaClient.spent_iff, settled.spent_eq_false entry old] at spent
            cases spent
        · rintro ⟨isCreated | outstanding, -⟩
          · rw [created] at isCreated
            exact absurd (Option.some.inj isCreated).symm isNewest
          · obtain ⟨entry, member, same⟩ := before.mpr outstanding
            exact ⟨entry, List.mem_cons_of_mem _ member, same⟩
    kept := by
      intro client final counted notRemoved
      by_cases isNewest : client = newest.addr
      · exact ⟨newest, List.mem_cons_self, isNewest.symm⟩
      · rw [sameTally isNewest] at counted
        obtain ⟨entry, member, same⟩ :=
          settled.kept client final counted notRemoved
        exact ⟨entry, List.mem_cons_of_mem _ member, same⟩ }

private theorem score_removed (op : ClientOp F) (client : ClientId) (counted : Tally)
    (notRemoved : (op.score client counted).removed = false) :
    counted.removed = false := by
  cases op with
  | create | cleanup => exact notRemoved
  | ref | unref =>
      simp only [ClientOp.score] at notRemoved
      split at notRemoved <;> exact notRemoved
  | remove =>
      simp only [ClientOp.score] at notRemoved
      split at notRemoved
      · cases notRemoved
      · exact notRemoved

/-- A call on the clients leaves out exactly those that it leaves spent. -/
theorem Settled.sweep {clients : List (YaClient F)}
    (settled : Settled earlier clients) (createsNone : op.created = none)
    (bounded : ∀ entry ∈ clients, entry.refCount.toNat < 2 ^ 32 - 1) :
    Settled (op :: earlier) (op.sweep clients) := by
  have scored (client : ClientId) :
      tally (op :: earlier) client =
        (tally earlier client).map fun counted => op.score client counted := by
    rw [MouseHero.tally, createsNone]
    exact if_neg nofun
  have touched : ∀ entry ∈ clients,
      tally (op :: earlier) entry.addr = some (op.touch entry).tally := by
    intro entry member
    rw [scored, settled.tallies entry member, touch_tally op (bounded entry member)]
    rfl
  have left : ∀ entry, entry ∈ op.sweep clients ↔
      ∃ original ∈ clients,
        op.touch original = entry ∧ ¬ entry.tally.Spent := by
    intro entry
    rw [ClientOp.sweep, List.mem_filter, List.mem_map]
    simp only [Bool.not_eq_true', ← Bool.not_eq_true, YaClient.spent_iff]
    grind
  exact {
    unspent := by
      intro entry member
      obtain ⟨original, -, -, unspent⟩ := (left entry).mp member
      rw [← YaClient.spent_iff] at unspent
      simpa [YaClient.spent] using unspent
    tallies := by
      intro entry member
      obtain ⟨original, originalMember, rfl, -⟩ := (left entry).mp member
      rw [op.touch_addr]
      exact touched original originalMember
    freed := by
      intro client
      constructor
      · rintro ⟨entry, member, rfl⟩
        obtain ⟨original, originalMember, rfl, unspent⟩ := (left entry).mp member
        rw [op.touch_addr]
        refine ⟨Or.inr ((settled.freed _).mp ⟨original, originalMember, rfl⟩), ?_⟩
        rintro ⟨final, counted, spent⟩
        rw [touched original originalMember] at counted
        cases counted
        exact unspent spent
      · rintro ⟨isCreated | outstanding, unspent⟩
        · rw [createsNone] at isCreated
          cases isCreated
        · obtain ⟨original, member, rfl⟩ := (settled.freed client).mpr outstanding
          refine ⟨op.touch original, (left _).mpr ⟨original, member, rfl, ?_⟩,
            op.touch_addr original⟩
          exact fun spent => unspent ⟨_, touched original member, spent⟩
    kept := by
      intro client final counted notRemoved
      rw [scored] at counted
      obtain ⟨earlierTally, earlierCounted, rfl⟩ :=
        Option.map_eq_some_iff.mp counted
      obtain ⟨original, member, rfl⟩ :=
        settled.kept client earlierTally earlierCounted
          (score_removed op client earlierTally notRemoved)
      refine ⟨op.touch original, (left _).mpr ⟨original, member, rfl, ?_⟩,
        op.touch_addr original⟩
      intro spent
      have same := touched original member
      rw [scored, earlierCounted] at same
      rw [← Option.some.inj same, Tally.Spent, notRemoved] at spent
      cases spent.1 }

theorem ManagerRun.settled (run : ManagerRun ops manager)
    (disciplined : Disciplined ops) :
    Settled ops (ClientCollection.after ops).entries := by
  induction run with
  | init => exact settled_nil
  | @step op earlier before run live inductionHypothesis =>
      have suffix : earlier <:+ op :: earlier := List.suffix_cons op earlier
      have settled := inductionHypothesis (disciplined.of_suffix suffix)
      have keeps : op ≠ .cleanup := by
        rintro rfl
        exact disciplined.keeps List.mem_cons_self
      have refines := run.refines
      have uids := disciplined.distinct earlier before suffix run
      rw [(refines.perm.map YaClient.uid).nodup_iff] at uids
      have bounded : ∀ entry ∈ (ClientCollection.after earlier).entries,
          entry.refCount.toNat < 2 ^ 32 - 1 := fun entry member =>
        disciplined.bounded earlier entry.addr entry.tally suffix
          (settled.tallies entry member)
      cases created : op.created with
      | none =>
          rw [ClientCollection.after, applyTo_eq_sweep refines created keeps
            settled.spent_eq_false bounded uids]
          exact settled.sweep created bounded
      | some addr =>
          have fresh := created_not_mem_keys run live created
          have nextUid := run.numbered.nextUid
          cases op with
          | create fd bev resources =>
              simp only [ClientOp.created] at created
              split at created
              · cases created
              · rename_i accepted
                rw [ClientCollection.after]
                simp only [ClientOp.applyTo, created, if_neg accepted, nextUid,
                  if_neg (issuedUid_ne_zero _)]
                apply settled.create _ _ rfl rfl rfl
                · simp only [ClientOp.created, if_neg accepted, created]
                · intro client member
                  exact fresh _ (List.mem_map_of_mem member)
          | _ => cases created

private theorem score_count_le (op : ClientOp F) (client : ClientId)
    (counted : Tally) : (op.score client counted).count ≤ counted.count + 1 := by
  cases op with
  | create | cleanup => exact Nat.le_succ _
  | ref | remove | unref =>
      simp only [ClientOp.score]
      split
      · simp only
        omega
      · omega

private theorem count_le_length (ops : List (ClientOp F)) (client : ClientId)
    (counted : Tally) (known : tally ops client = some counted) :
    counted.count ≤ ops.length := by
  induction ops generalizing counted with
  | nil => cases known
  | cons op earlier inductionHypothesis =>
      rw [MouseHero.tally] at known
      split at known
      · cases known
        exact Nat.succ_pos _
      · obtain ⟨before, beforeKnown, rfl⟩ := Option.map_eq_some_iff.mp known
        have few := inductionHypothesis before beforeKnown
        have step := score_count_le op client before
        rw [List.length_cons]
        omega

/-- A run of fewer calls than there are words is disciplined. -/
theorem disciplined_of_length_lt (keeps : .cleanup ∉ ops)
    (short : ops.length < 2 ^ 32 - 1) : Disciplined ops where
  keeps := keeps
  bounded := by
    intro earlier client counted suffix known
    have few := count_le_length earlier client counted known
    have shorter := suffix.length_le
    omega
  distinct := by
    intro earlier manager suffix run
    have shorter := suffix.length_le
    have timely : Timely earlier :=
      timely_of_length_le (by simp only [uidPeriod]; omega)
    exact ((timely.young run).uniqueUids run).uids

/-- After any calls on clients in the table, the clients are those that no
call has left removed with the count zero, the counts are those of the calls,
and a client that has not been removed is in the table.  The next call frees
exactly the clients that it leaves removed with the count zero. -/
theorem referenceDiscipline (run : ManagerRun ops manager)
    (disciplined : Disciplined ops) :
    Settled ops manager.clients ∧
      ∀ op, op.Live manager → Disciplined (op :: ops) →
        ∀ client ∈ manager.clients,
          (∀ other ∈ (op.apply manager).clients, other.addr ≠ client.addr) ↔
            SpentAfter (op :: ops) client.addr := by
  have settled {ops : List (ClientOp F)} {manager : YaClientManager F}
      (run : ManagerRun ops manager) (disciplined : Disciplined ops) :
      Settled ops manager.clients := by
    have entries := run.settled disciplined
    have same := run.refines.perm
    exact {
      unspent := fun client member =>
        entries.unspent client (same.mem_iff.mp member)
      tallies := fun client member =>
        entries.tallies client (same.mem_iff.mp member)
      freed := fun client => by
        rw [← entries.freed client]
        simp only [same.mem_iff]
      kept := fun client final counted notRemoved => by
        obtain ⟨entry, member, is⟩ :=
          entries.kept client final counted notRemoved
        exact ⟨entry, same.mem_iff.mpr member, is⟩ }
  refine ⟨settled run disciplined, ?_⟩
  intro op live next client member
  have outstanding :=
    ((settled run disciplined).freed client.addr).mp ⟨client, member, rfl⟩
  have after := (settled (.step op run live) next).freed client.addr
  constructor
  · intro gone
    by_contra unspent
    obtain ⟨entry, entryMember, same⟩ :=
      after.mpr ⟨Or.inr outstanding, unspent⟩
    exact gone entry entryMember same
  · intro spent entry entryMember same
    exact (after.mp ⟨entry, entryMember, same⟩).2 spent

/-- A client that is released before it is removed stays until then. -/
theorem referenceDiscipline_removed :
    ∃ manager : YaClientManager Rat,
      ManagerRun [.unref 8, .create 5 (some 16) (bareResources 8)] manager ∧
        Settled [.unref 8, .create 5 (some 16) (bareResources 8)]
          manager.clients ∧
        ∀ client ∈ manager.clients,
          ∀ other ∈ ((ClientOp.remove 1).apply manager).clients,
            other.addr ≠ client.addr := by
  have created :=
    ManagerRun.step (F := Rat) (.create 5 (some 16) (bareResources 8)) .init
      fun _ _ _ member => nomatch refines_init.perm.mem_iff.mp member
  have entries : (ClientCollection.after (F := Rat)
      [.create 5 (some 16) (bareResources 8)]).entries.map YaClient.addr =
        [8] := rfl
  have stored :
      8 ∈ (ClientCollection.after (F := Rat)
        [.create 5 (some 16) (bareResources 8)]).entries.map YaClient.addr := by
    rw [entries]
    exact List.mem_singleton_self 8
  obtain ⟨entry, member, addr⟩ := List.mem_map.mp stored
  have released :=
    ManagerRun.step (.unref 8) created
      ⟨entry, created.refines.perm.mem_iff.mpr member, addr⟩
  have discipline :=
    referenceDiscipline released
      (disciplined_of_length_lt (fun member => by simp at member) (by decide))
  refine ⟨_, released, discipline.1, ?_⟩
  intro client clientMember
  have isEight : client.addr = 8 := by
    have known := List.mem_map_of_mem
      (released.refines.perm.mem_iff.mp clientMember) (f := YaClient.addr)
    simpa [ClientCollection.after, ClientOp.applyTo, bareResources,
      ClientCollection.write] using known
  refine (discipline.2 (.remove 1) trivial
    (disciplined_of_length_lt (fun member => by simp at member) (by decide))
    client clientMember).mpr ?_
  rw [isEight]
  exact ⟨_, rfl, rfl, rfl⟩

end MouseHero
