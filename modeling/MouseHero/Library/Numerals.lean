import Mathlib.Algebra.Group.Nat.Defs

/-!
# Printed numerals

The bytes `printf` writes for `%d` of a number and for `%02x` of a byte.
-/

namespace MouseHero

namespace Numerals

/-- The byte of a character of the basic character set. -/
def byteOfChar (char : Char) : UInt8 :=
  UInt8.ofNat char.toNat

/-- `%d` of a number that is not negative. -/
def decimal (number : Nat) : List UInt8 :=
  (Nat.toDigits 10 number).map byteOfChar

/-- `%d`. -/
def signedDecimal (number : Int) : List UInt8 :=
  if number < 0 then byteOfChar '-' :: decimal number.natAbs
  else decimal number.natAbs

/-- `%02x`. -/
def hexByte (byte : UInt8) : List UInt8 :=
  [byteOfChar (Nat.digitChar (byte.toNat / 16)),
    byteOfChar (Nat.digitChar (byte.toNat % 16))]

/-! ## Decimal numerals -/

theorem charOfByte_byteOfChar {char : Char} (isDigit : char.isDigit) :
    Char.ofNat (byteOfChar char).toNat = char := by
  have small : char.toNat < 256 := by
    have atMost := (Char.isDigit_iff_toNat.mp isDigit).2
    exact Nat.lt_of_le_of_lt atMost (by decide)
  rw [byteOfChar, UInt8.toNat_ofNat_of_lt' small, Char.ofNat_toNat]

theorem map_charOfByte_decimal (number : Nat) :
    (decimal number).map (fun byte => Char.ofNat byte.toNat) =
      Nat.toDigits 10 number := by
  rw [decimal, List.map_map]
  refine (List.map_congr_left ?_).trans (List.map_id _)
  intro char member
  exact charOfByte_byteOfChar
    (Nat.isDigit_of_mem_toDigits (by decide) (by decide) member)

theorem decimal_injective {first second : Nat}
    (same : decimal first = decimal second) : first = second := by
  have digits : Nat.toDigits 10 first = Nat.toDigits 10 second := by
    rw [← map_charOfByte_decimal, same, map_charOfByte_decimal]
  rw [← @Nat.ofDigitChars_ten_toDigits first, digits,
    Nat.ofDigitChars_ten_toDigits]

@[simp]
theorem length_decimal (number : Nat) :
    (decimal number).length = (Nat.toDigits 10 number).length :=
  List.length_map ..

theorem length_decimal_pos (number : Nat) : 0 < (decimal number).length := by
  rw [length_decimal]
  exact Nat.length_toDigits_pos

theorem length_decimal_mono {first second : Nat} (less : first ≤ second) :
    (decimal first).length ≤ (decimal second).length := by
  have positive := length_decimal_pos second
  have bound := (Nat.length_toDigits_le_iff (by decide) positive).mp
    (Nat.le_of_eq (length_decimal second).symm)
  rw [length_decimal first]
  exact (Nat.length_toDigits_le_iff (by decide) positive).mpr
    (Nat.lt_of_le_of_lt less bound)

theorem length_signedDecimal_le {number : Int} {digits : Nat}
    (positive : 0 < digits) (bound : number.natAbs < 10 ^ digits) :
    (signedDecimal number).length ≤ digits + 1 := by
  have short : (decimal number.natAbs).length ≤ digits := by
    rw [length_decimal]
    exact (Nat.length_toDigits_le_iff (by decide) positive).mpr bound
  rw [signedDecimal]
  split
  · rw [List.length_cons]
    omega
  · omega

/-! ## Hexadecimal numerals -/

@[simp]
theorem length_hexByte (byte : UInt8) : (hexByte byte).length = 2 :=
  rfl

theorem digitChar_ne_nul {digit : Nat} (small : digit < 16) :
    byteOfChar (Nat.digitChar digit) ≠ 0 := by
  decide +revert

theorem nul_notMem_hexByte (byte : UInt8) : 0 ∉ hexByte byte := by
  have bound : byte.toNat < 256 := byte.toNat_lt
  intro member
  rcases List.mem_cons.mp member with isHigh | isLow
  · exact digitChar_ne_nul (by omega) isHigh.symm
  · exact digitChar_ne_nul (Nat.mod_lt _ (by decide)) (List.mem_singleton.mp isLow).symm

end Numerals

end MouseHero
