import Mathlib.Data.Nat.Basic
import Mathlib.Tactic.Ring

/-!
# Big-endian byte strings

Natural numbers as byte strings of a fixed width, most significant byte
first.  `toBytes` keeps the low `width` bytes of its argument, as the store of
a machine word does; on byte strings of that width it inverts `ofBytes`.
-/

namespace MouseHero.BigEndian

/-- The number a byte string denotes, most significant byte first. -/
def ofBytes : List UInt8 → Nat
  | [] => 0
  | byte :: rest => byte.toNat * 256 ^ rest.length + ofBytes rest

/-- The low `width` bytes of a number, most significant byte first. -/
def toBytes : (width value : Nat) → List UInt8
  | 0, _ => []
  | width + 1, value =>
      UInt8.ofNat (value / 256 ^ width) :: toBytes width value

@[simp]
theorem length_toBytes (width value : Nat) :
    (toBytes width value).length = width := by
  induction width with
  | zero => rfl
  | succ width inductionHypothesis =>
      simp [toBytes, inductionHypothesis]

/-- Storing and loading a word truncates it to its width. -/
@[simp]
theorem ofBytes_toBytes (width value : Nat) :
    ofBytes (toBytes width value) = value % 256 ^ width := by
  induction width with
  | zero =>
      simp [toBytes, ofBytes, Nat.mod_one]
  | succ width inductionHypothesis =>
      have leading :
          (UInt8.ofNat (value / 256 ^ width)).toNat =
            value / 256 ^ width % 256 := by
        simp
      rw [toBytes, ofBytes, length_toBytes, inductionHypothesis, leading,
        Nat.pow_succ, Nat.mod_mul]
      ring

theorem ofBytes_toBytes_of_lt {width value : Nat}
    (bound : value < 256 ^ width) :
    ofBytes (toBytes width value) = value := by
  rw [ofBytes_toBytes, Nat.mod_eq_of_lt bound]

theorem ofBytes_lt (bytes : List UInt8) :
    ofBytes bytes < 256 ^ bytes.length := by
  induction bytes with
  | nil => simp [ofBytes]
  | cons byte rest inductionHypothesis =>
      have leading : byte.toNat + 1 ≤ 256 := byte.toNat_lt
      calc
        ofBytes (byte :: rest)
            < byte.toNat * 256 ^ rest.length + 256 ^ rest.length := by
              simp only [ofBytes]
              omega
        _ = (byte.toNat + 1) * 256 ^ rest.length := by ring
        _ ≤ 256 * 256 ^ rest.length :=
              Nat.mul_le_mul_right _ leading
        _ = 256 ^ (byte :: rest).length := by
              rw [List.length_cons, Nat.pow_succ, Nat.mul_comm]

theorem ofBytes_append (high low : List UInt8) :
    ofBytes (high ++ low) =
      ofBytes high * 256 ^ low.length + ofBytes low := by
  induction high with
  | nil => simp [ofBytes]
  | cons byte rest inductionHypothesis =>
      rw [List.cons_append, ofBytes, ofBytes, inductionHypothesis,
        List.length_append, Nat.pow_add]
      ring

theorem toBytes_mod (width value : Nat) :
    toBytes width (value % 256 ^ width) = toBytes width value := by
  induction width generalizing value with
  | zero => rfl
  | succ width inductionHypothesis =>
      have leading :
          value % 256 ^ (width + 1) / 256 ^ width =
            value / 256 ^ width % 256 := by
        rw [Nat.pow_succ, Nat.mod_mul_right_div_self]
      have sameByte :
          UInt8.ofNat (value / 256 ^ width % 256) =
            UInt8.ofNat (value / 256 ^ width) := by
        apply UInt8.toNat_inj.mp
        simp
      have divides : 256 ^ width ∣ 256 ^ (width + 1) :=
        ⟨256, Nat.pow_succ 256 width⟩
      rw [toBytes, toBytes, leading, sameByte,
        ← inductionHypothesis (value % 256 ^ (width + 1)),
        Nat.mod_mod_of_dvd _ divides, inductionHypothesis]

theorem toBytes_ofBytes (bytes : List UInt8) :
    toBytes bytes.length (ofBytes bytes) = bytes := by
  induction bytes with
  | nil => rfl
  | cons byte rest inductionHypothesis =>
      have low := ofBytes_lt rest
      have positive : 0 < 256 ^ rest.length :=
        Nat.pow_pos (by decide)
      have leading :
          (byte.toNat * 256 ^ rest.length + ofBytes rest) /
            256 ^ rest.length = byte.toNat := by
        rw [Nat.mul_comm, Nat.mul_add_div positive, Nat.div_eq_of_lt low,
          Nat.add_zero]
      have remaining :
          (byte.toNat * 256 ^ rest.length + ofBytes rest) %
            256 ^ rest.length = ofBytes rest := by
        rw [Nat.mul_comm, Nat.mul_add_mod, Nat.mod_eq_of_lt low]
      rw [List.length_cons, toBytes, ofBytes, leading, UInt8.ofNat_toNat,
        ← toBytes_mod, remaining, inductionHypothesis]

end MouseHero.BigEndian
