import Mathlib.Logic.Function.Basic

/-!
# Blocks of memory

A block has a size and bytes, which are arbitrary until they are written.  A
store outside the block has no result.  A block holds bytes when it begins with
them; bytes that are written behind those it holds are held as well.
-/

namespace MouseHero

/-- A block of memory. -/
structure MemoryBlock where
  size : Nat
  bytes : Nat → UInt8

namespace MemoryBlock

/-- Write one byte, if it lies in the block. -/
def store (block : MemoryBlock) (index : Nat) (byte : UInt8) : Option MemoryBlock :=
  if index < block.size then
    some { block with bytes := Function.update block.bytes index byte }
  else
    none

/-- Write bytes one after another. -/
def storeAll (block : MemoryBlock) (index : Nat) : List UInt8 → Option MemoryBlock
  | [] => some block
  | byte :: bytes =>
      (block.store index byte).bind fun next => next.storeAll (index + 1) bytes

/-- A larger block that begins with the bytes of this one. -/
def resize (block : MemoryBlock) (size : Nat) (fresh : Nat → UInt8) : MemoryBlock where
  size := size
  bytes := fun index => if index < block.size then block.bytes index else fresh index

/-- All bytes of the block. -/
def contents (block : MemoryBlock) : List UInt8 :=
  (List.range block.size).map block.bytes

/-- Bytes can be written wherever there is room for them. -/
theorem storeAll_isSome {block : MemoryBlock} {index : Nat} {bytes : List UInt8}
    (fits : index + bytes.length ≤ block.size) :
    ∃ after, block.storeAll index bytes = some after ∧ after.size = block.size := by
  induction bytes generalizing block index with
  | nil => exact ⟨block, rfl, rfl⟩
  | cons byte bytes inductionHypothesis =>
      rw [List.length_cons] at fits
      obtain ⟨after, rest, sameSize⟩ := @inductionHypothesis
        { block with bytes := Function.update block.bytes index byte } (index + 1)
        (by simp only; omega)
      refine ⟨after, ?_, sameSize⟩
      rw [storeAll, store, if_pos (by omega)]
      exact rest

/-- Bytes that are written lie in the block. -/
theorem inside_of_storeAll {block after : MemoryBlock} {index : Nat}
    {bytes : List UInt8} (stores : block.storeAll index bytes = some after) :
    after.size = block.size ∧ (bytes = [] ∨ index + bytes.length ≤ block.size) := by
  induction bytes generalizing block index with
  | nil =>
      cases stores
      exact ⟨rfl, Or.inl rfl⟩
  | cons byte bytes inductionHypothesis =>
      rw [storeAll, store] at stores
      by_cases inside : index < block.size
      · rw [if_pos inside, Option.bind_some] at stores
        obtain ⟨sameSize, rest⟩ := inductionHypothesis stores
        refine ⟨sameSize, Or.inr ?_⟩
        rw [List.length_cons]
        rcases rest with none | fits
        · rw [none, List.length_nil]
          omega
        · simp only at fits
          omega
      · rw [if_neg inside, Option.bind_none] at stores
        cases stores

/-- The block begins with the bytes. -/
structure Holds (block : MemoryBlock) (held : List UInt8) : Prop where
  inside : held.length ≤ block.size
  same : ∀ index (inHeld : index < held.length), block.bytes index = held[index]

section Holds

variable {block : MemoryBlock} {held more : List UInt8} {size : Nat}

theorem holds_nil (block : MemoryBlock) : block.Holds [] where
  inside := Nat.zero_le _
  same := fun _ inHeld => absurd inHeld (Nat.not_lt_zero _)

theorem Holds.of_append (holds : block.Holds (held ++ more)) : block.Holds held where
  inside := by
    have bound := holds.inside
    rw [List.length_append] at bound
    omega
  same := by
    intro index inHeld
    have inBoth : index < (held ++ more).length := by
      rw [List.length_append]
      omega
    rw [holds.same index inBoth, List.getElem_append_left inHeld]

theorem Holds.store {byte : UInt8} (holds : block.Holds held)
    (fits : held.length < block.size) :
    ∃ after, block.store held.length byte = some after ∧ after.size = block.size ∧
      after.Holds (held ++ [byte]) := by
  refine ⟨{ block with bytes := Function.update block.bytes held.length byte }, ?_, rfl,
    ?_, ?_⟩
  · exact if_pos fits
  · rw [List.length_append, List.length_singleton]
    exact fits
  · intro index inBoth
    rw [List.length_append, List.length_singleton] at inBoth
    by_cases isLast : index = held.length
    · subst isLast
      simp
    · have inHeld : index < held.length := by omega
      rw [List.getElem_append_left inHeld, ← holds.same index inHeld]
      exact Function.update_of_ne isLast ..

theorem Holds.storeAll (holds : block.Holds held)
    (fits : held.length + more.length ≤ block.size) :
    ∃ after, block.storeAll held.length more = some after ∧ after.size = block.size ∧
      after.Holds (held ++ more) := by
  induction more generalizing block held with
  | nil => exact ⟨block, rfl, rfl, by rwa [List.append_nil]⟩
  | cons byte more inductionHypothesis =>
      rw [List.length_cons] at fits
      obtain ⟨next, stored, sameSize, nextHolds⟩ :=
        @Holds.store _ _ byte holds (by omega)
      have nextFits : (held ++ [byte]).length + more.length ≤ next.size := by
        rw [List.length_append, List.length_singleton, sameSize]
        omega
      obtain ⟨after, rest, afterSize, afterHolds⟩ :=
        inductionHypothesis nextHolds nextFits
      rw [List.length_append, List.length_singleton] at rest
      refine ⟨after, ?_, afterSize.trans sameSize, ?_⟩
      · rw [MemoryBlock.storeAll, stored]
        exact rest
      · rwa [List.append_assoc] at afterHolds

theorem Holds.resize (holds : block.Holds held) (larger : block.size ≤ size)
    (fresh : Nat → UInt8) : (block.resize size fresh).Holds held where
  inside := Nat.le_trans holds.inside larger
  same := by
    intro index inHeld
    rw [← holds.same index inHeld]
    exact if_pos (Nat.lt_of_lt_of_le inHeld holds.inside)

/-- A smaller block, if what is held fits into it. -/
theorem Holds.shrink (holds : block.Holds held) (fits : held.length ≤ size)
    (fresh : Nat → UInt8) : (block.resize size fresh).Holds held where
  inside := fits
  same := by
    intro index inHeld
    rw [← holds.same index inHeld]
    exact if_pos (Nat.lt_of_lt_of_le inHeld holds.inside)

theorem Holds.contents_eq (holds : block.Holds held) :
    ∃ rest, block.contents = held ++ rest := by
  refine ⟨block.contents.drop held.length, ?_⟩
  have front : block.contents.take held.length = held := by
    apply List.ext_getElem
    · rw [List.length_take, contents, List.length_map, List.length_range]
      exact Nat.min_eq_left holds.inside
    · intro index first second
      rw [List.getElem_take]
      simp only [contents, List.getElem_map, List.getElem_range]
      exact holds.same index second
  calc block.contents
      = block.contents.take held.length ++ block.contents.drop held.length :=
        (List.take_append_drop ..).symm
    _ = held ++ block.contents.drop held.length := by rw [front]

theorem Holds.take_contents (holds : block.Holds held) :
    block.contents.take held.length = held := by
  obtain ⟨rest, same⟩ := holds.contents_eq
  rw [same, List.take_left]

end Holds

end MemoryBlock

end MouseHero
