import MouseHero.Library.BigEndian
import MouseHero.Library.FaultState

/-!
# Byte buffers

The operations of libevent's `evbuffer` that the server uses, on the list of
bytes a buffer holds, and the undefined behaviours a computation of the
server can run into.
-/

namespace MouseHero

/-- Undefined behaviour of the C code, at the point where it happens. -/
inductive Fault where
  | nullDereference
  | outOfBoundsRead
  | outOfBoundsWrite
  | useAfterFree
  | doubleFree
  /-- A parameter was read through the pointer type of another event. -/
  | paramType
  deriving DecidableEq, Repr

/-- `evbuffer_pullup`: the contiguous bytes behind the returned pointer.  A
negative size stands for the whole buffer. -/
def evbufferPullup (buffer : List UInt8) (size : Int) :
    Option (List UInt8) :=
  let size := if size < 0 then buffer.length else size.toNat
  if size = 0 ∨ buffer.length < size then none else some (buffer.take size)

/-- `evbuffer_drain`: remove bytes from the front, all of them when there are
fewer. -/
def evbufferDrain (buffer : List UInt8) (length : Nat) : List UInt8 :=
  buffer.drop length

/-- `evbuffer_copyout_from` a position in the buffer into a zeroed 32-bit word:
only the bytes that are available from there on are written. -/
def evbufferCopyout32 (buffer : List UInt8) (start : Nat) : List UInt8 :=
  let available := (buffer.drop start).take 4
  available ++ List.replicate (4 - available.length) 0

/-- The word in network byte order at a position in the buffer. -/
def wordAt (buffer : List UInt8) (start : Nat) : UInt32 :=
  UInt32.ofNat (BigEndian.ofBytes (evbufferCopyout32 buffer start))

/-- `to_uint32`.  Behind the end of the buffer `evbuffer_ptr_set` finds no
position, which is not checked: `evbuffer_copyout_from` then follows the null
chain that it has left. -/
def toUint32 (buffer : List UInt8) (start : Nat) : Except Fault UInt32 :=
  if buffer.length < start then .error .nullDereference
  else .ok (wordAt buffer start)

/-- The value of a `uint32_t` as an `int`. -/
theorem toInt_toInt32_eq_bmod (value : UInt32) :
    value.toInt32.toInt = (value.toNat : Int).bmod (2 ^ 32) := by
  have same : value.toInt32 = Int32.ofNat value.toNat := by
    rw [← UInt32.toInt32_ofNat', UInt32.ofNat_toNat]
  rw [same, Int32.toInt_ofNat']
  rfl

/-- The value of an `int` as a `size_t`. -/
def sizeOfInt (value : Int) : Nat :=
  (value % 2 ^ 64).toNat

theorem evbufferPullup_of_pos {buffer : List UInt8} {size : Nat}
    (positive : 0 < size) (available : size ≤ buffer.length) :
    evbufferPullup buffer size = some (buffer.take size) := by
  have nonnegative : ¬ (size : Int) < 0 := by omega
  have enough : ¬ (size = 0 ∨ buffer.length < size) := by omega
  simp [evbufferPullup, nonnegative, enough]

theorem evbufferPullup_append {front rest : List UInt8}
    (nonempty : 0 < front.length) :
    evbufferPullup (front ++ rest) front.length = some front := by
  rw [evbufferPullup_of_pos nonempty (by simp), List.take_left]

@[simp]
theorem evbufferDrain_append (front rest : List UInt8) :
    evbufferDrain (front ++ rest) front.length = rest :=
  List.drop_left

theorem wordAt_stored (before rest : List UInt8) (word : Nat) :
    wordAt (before ++ BigEndian.toBytes 4 word ++ rest) before.length =
      UInt32.ofNat word := by
  have window :
      ((before ++ BigEndian.toBytes 4 word ++ rest).drop before.length).take 4 =
        BigEndian.toBytes 4 word := by
    rw [List.append_assoc, List.drop_left, List.take_left' (by simp)]
  simp only [wordAt, evbufferCopyout32, window, BigEndian.length_toBytes,
    Nat.sub_self, List.replicate_zero, List.append_nil,
    BigEndian.ofBytes_toBytes]
  apply UInt32.toNat_inj.mp
  simp

theorem sizeOfInt_of_nonneg {value : Int}
    (nonnegative : 0 ≤ value) (bound : value < 2 ^ 64) :
    sizeOfInt value = value.toNat := by
  rw [sizeOfInt, Int.emod_eq_of_lt nonnegative bound]

end MouseHero
