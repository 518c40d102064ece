import MouseHero.Library.MemoryBlocks
import Mathlib.Data.List.Nodup

/-!
# A heap of blocks

Blocks of memory at addresses that are never used a second time.  A heap owns
a block on top of another heap when it is that heap with the block added: what
is allocated, moved and written meanwhile leaves the blocks underneath alone,
and giving the block back leaves nothing behind.
-/

namespace MouseHero

/-- The blocks in use by their addresses, and the next address. -/
structure BlockHeap where
  next : Nat
  block : Nat → Option MemoryBlock
  unused : ∀ address, next ≤ address → block address = none

namespace BlockHeap

/-- Put a block at the next address. -/
def allocate (heap : BlockHeap) (block : MemoryBlock) : BlockHeap where
  next := heap.next + 1
  block := Function.update heap.block heap.next (some block)
  unused := by
    intro address behind
    rw [Function.update_of_ne (by omega)]
    exact heap.unused address (by omega)

/-- Change what is stored at an address that has been used. -/
def replace (heap : BlockHeap) (address : Nat) (block : Option MemoryBlock) :
    BlockHeap where
  next := heap.next
  block :=
    if address < heap.next then Function.update heap.block address block else heap.block
  unused := by
    intro other behind
    split
    · rw [Function.update_of_ne (by omega)]
      exact heap.unused other behind
    · exact heap.unused other behind

/-- Give a block back, if there is one. -/
def release (heap : BlockHeap) (address : Nat) : Option BlockHeap :=
  (heap.block address).map fun _ => heap.replace address none

/-- Write bytes into a block, if it is there and they lie in it. -/
def storeAll (heap : BlockHeap) (address index : Nat) (bytes : List UInt8) :
    Option BlockHeap :=
  (heap.block address).bind fun block =>
    (block.storeAll index bytes).map fun written => heap.replace address (some written)

/-- Move a block, if there is one, to the next address with another size. -/
def reallocate (heap : BlockHeap) (address size : Nat) (fresh : Nat → UInt8) :
    Option BlockHeap :=
  (heap.block address).bind fun block =>
    (heap.allocate (block.resize size fresh)).release address

theorem lt_next {heap : BlockHeap} {address : Nat} {block : MemoryBlock}
    (stored : heap.block address = some block) : address < heap.next := by
  by_contra behind
  rw [heap.unused address (by omega)] at stored
  cases stored

theorem block_replace {heap : BlockHeap} {address : Nat} {old : MemoryBlock}
    (stored : heap.block address = some old) (block : Option MemoryBlock) :
    (heap.replace address block).block = Function.update heap.block address block :=
  if_pos (lt_next stored)

/-- The heap is the one underneath with a block of its own. -/
structure Owns (base heap : BlockHeap) (address : Nat) (block : MemoryBlock) : Prop where
  absent : base.block address = none
  same : heap.block = Function.update base.block address (some block)
  later : base.next ≤ heap.next

section Owns

variable {base heap : BlockHeap} {address size : Nat} {block : MemoryBlock}

theorem Owns.stored (owns : base.Owns heap address block) :
    heap.block address = some block := by
  rw [owns.same, Function.update_self]

theorem owns_allocate (base : BlockHeap) (block : MemoryBlock) :
    base.Owns (base.allocate block) base.next block where
  absent := base.unused base.next (Nat.le_refl _)
  same := rfl
  later := Nat.le_succ _

theorem Owns.storeAll (owns : base.Owns heap address block) {index : Nat}
    {bytes : List UInt8} {written : MemoryBlock}
    (writes : block.storeAll index bytes = some written) :
    ∃ after, heap.storeAll address index bytes = some after ∧
      base.Owns after address written := by
  refine ⟨heap.replace address (some written), ?_, owns.absent, ?_, owns.later⟩
  · rw [BlockHeap.storeAll, owns.stored, Option.bind_some, writes, Option.map_some]
  · rw [block_replace owns.stored, owns.same, Function.update_idem]

theorem Owns.release (owns : base.Owns heap address block) :
    ∃ after, heap.release address = some after ∧ after.block = base.block := by
  refine ⟨heap.replace address none, ?_, ?_⟩
  · rw [BlockHeap.release, owns.stored, Option.map_some]
  · rw [block_replace owns.stored, owns.same, Function.update_idem, ← owns.absent,
      Function.update_eq_self]

/-- A block that is moved is not at its old address any more. -/
theorem Owns.reallocate (owns : base.Owns heap address block) (size : Nat)
    (fresh : Nat → UInt8) :
    ∃ after, heap.reallocate address size fresh = some after ∧
      base.Owns after heap.next (block.resize size fresh) := by
  have inUse := lt_next owns.stored
  have apart : address ≠ heap.next := by omega
  have stillStored :
      (heap.allocate (block.resize size fresh)).block address = some block :=
    (Function.update_of_ne apart ..).trans owns.stored
  refine ⟨(heap.allocate (block.resize size fresh)).replace address none, ?_,
    base.unused _ owns.later, ?_, ?_⟩
  · rw [BlockHeap.reallocate, owns.stored, Option.bind_some, BlockHeap.release,
      stillStored, Option.map_some]
  · rw [block_replace stillStored]
    calc Function.update
          (Function.update heap.block heap.next (some (block.resize size fresh)))
          address none
        = Function.update (Function.update heap.block address none) heap.next
            (some (block.resize size fresh)) := Function.update_comm apart.symm ..
      _ = Function.update base.block heap.next (some (block.resize size fresh)) := by
          rw [owns.same, Function.update_idem, ← owns.absent, Function.update_eq_self]
  · exact Nat.le_trans owns.later (Nat.le_succ _)

end Owns

/-! ## Several blocks -/

/-- The heap is the one underneath with the blocks added. -/
structure Adds (base heap : BlockHeap) (blocks : List (Nat × MemoryBlock)) :
    Prop where
  distinct : (blocks.map Prod.fst).Nodup
  absent : ∀ entry ∈ blocks, base.block entry.1 = none
  stored : ∀ entry ∈ blocks, heap.block entry.1 = some entry.2
  same : ∀ address, address ∉ blocks.map Prod.fst →
    heap.block address = base.block address

section Adds

variable {base middle heap : BlockHeap} {address : Nat} {block : MemoryBlock}
variable {first rest : List (Nat × MemoryBlock)}

theorem adds_nil (same : heap.block = base.block) : base.Adds heap [] where
  distinct := List.nodup_nil
  absent := fun _ member => absurd member List.not_mem_nil
  stored := fun _ member => absurd member List.not_mem_nil
  same := fun _ _ => congrFun same _

theorem Owns.adds (owns : base.Owns heap address block) :
    base.Adds heap [(address, block)] where
  distinct := List.nodup_cons.mpr ⟨List.not_mem_nil, List.nodup_nil⟩
  absent := by
    intro entry member
    rw [List.mem_singleton.mp member]
    exact owns.absent
  stored := by
    intro entry member
    rw [List.mem_singleton.mp member]
    exact owns.stored
  same := by
    intro other notIn
    rw [owns.same]
    apply Function.update_of_ne
    exact fun here => notIn (List.mem_singleton.mpr here)

theorem Adds.trans (lower : base.Adds middle rest)
    (upper : middle.Adds heap first) : base.Adds heap (first ++ rest) := by
  have apart : ∀ entry ∈ first, entry.1 ∉ rest.map Prod.fst := by
    intro entry member inRest
    obtain ⟨other, otherMember, same⟩ := List.mem_map.mp inRest
    have stored := lower.stored other otherMember
    rw [same, upper.absent entry member] at stored
    cases stored
  have kept : ∀ entry ∈ rest, entry.1 ∉ first.map Prod.fst := by
    intro entry member inFirst
    obtain ⟨other, otherMember, same⟩ := List.mem_map.mp inFirst
    exact apart other otherMember (same ▸ List.mem_map_of_mem member)
  constructor
  · rw [List.map_append, List.nodup_append]
    refine ⟨upper.distinct, lower.distinct, ?_⟩
    intro one oneMember other otherMember same
    obtain ⟨entry, entryMember, rfl⟩ := List.mem_map.mp oneMember
    exact apart entry entryMember (same ▸ otherMember)
  · intro entry member
    rcases List.mem_append.mp member with inFirst | inRest
    · rw [← lower.same entry.1 (apart entry inFirst)]
      exact upper.absent entry inFirst
    · exact lower.absent entry inRest
  · intro entry member
    rcases List.mem_append.mp member with inFirst | inRest
    · exact upper.stored entry inFirst
    · rw [upper.same entry.1 (kept entry inRest)]
      exact lower.stored entry inRest
  · intro other notIn
    rw [List.map_append, List.mem_append, not_or] at notIn
    rw [upper.same other notIn.1, lower.same other notIn.2]

/-- A block that is changed leaves the others as they are. -/
theorem Adds.storeAll (adds : base.Adds heap ((address, block) :: rest))
    {index : Nat} {bytes : List UInt8} {written : MemoryBlock}
    (writes : block.storeAll index bytes = some written) :
    ∃ after, heap.storeAll address index bytes = some after ∧
      base.Adds after ((address, written) :: rest) := by
  have stored := adds.stored _ List.mem_cons_self
  have distinct := adds.distinct
  rw [List.map_cons, List.nodup_cons] at distinct
  refine ⟨heap.replace address (some written), ?_, adds.distinct, ?_, ?_, ?_⟩
  · rw [BlockHeap.storeAll, stored, Option.bind_some, writes, Option.map_some]
  · intro entry member
    rcases List.mem_cons.mp member with rfl | inRest
    · exact adds.absent (address, block) List.mem_cons_self
    · exact adds.absent entry (List.mem_cons_of_mem _ inRest)
  · intro entry member
    rw [block_replace stored]
    rcases List.mem_cons.mp member with rfl | inRest
    · exact Function.update_self ..
    · have other : entry.1 ≠ address := by
        intro here
        have inside := List.mem_map_of_mem (f := Prod.fst) inRest
        rw [here] at inside
        exact distinct.1 inside
      rw [Function.update_of_ne other]
      exact adds.stored entry (List.mem_cons_of_mem _ inRest)
  · intro other notIn
    have different : other ≠ address :=
      fun here => notIn (List.mem_cons.mpr (Or.inl here))
    rw [block_replace stored, Function.update_of_ne different]
    exact adds.same other notIn

/-- A block that is given back leaves the others as they are. -/
theorem Adds.release
    (adds : base.Adds heap (first ++ (address, block) :: rest)) :
    ∃ after, heap.release address = some after ∧ base.Adds after (first ++ rest) := by
  have member : (address, block) ∈ first ++ (address, block) :: rest :=
    List.mem_append_right _ List.mem_cons_self
  have stored := adds.stored _ member
  have sublist : (first ++ rest).Sublist (first ++ (address, block) :: rest) :=
    (List.sublist_cons_self ..).append_left first
  have distinct := adds.distinct
  rw [List.map_append, List.map_cons, List.nodup_middle, List.nodup_cons,
    ← List.map_append] at distinct
  refine ⟨heap.replace address none, ?_, distinct.2, ?_, ?_, ?_⟩
  · rw [BlockHeap.release, stored, Option.map_some]
  · exact fun entry inList => adds.absent entry (sublist.subset inList)
  · intro entry inList
    have other : entry.1 ≠ address := by
      intro here
      have inside := List.mem_map_of_mem (f := Prod.fst) inList
      rw [here] at inside
      exact distinct.1 inside
    rw [block_replace stored, Function.update_of_ne other]
    exact adds.stored entry (sublist.subset inList)
  · intro other notIn
    rw [block_replace stored]
    by_cases same : other = address
    · rw [same, Function.update_self, adds.absent _ member]
    · rw [Function.update_of_ne same]
      apply adds.same
      rw [List.map_append, List.map_cons, List.mem_append, List.mem_cons]
      rw [List.map_append, List.mem_append] at notIn
      exact fun inList => notIn (inList.imp_right fun here => here.resolve_left same)

end Adds

end BlockHeap

end MouseHero
