import MouseHero.Library.BigEndian

/-!
# The MessagePack format

The encodings of the MessagePack types used on the wire, as relations between
a value and the byte strings that denote it.  A value may have several
encodings; a writer chooses one of them, a reader has to accept each.
-/

namespace MouseHero.MessagePack

open BigEndian

/-- The unsigned formats: leading byte and number of payload bytes. -/
def unsignedFormats : List (UInt8 × Nat) :=
  [(0xcc, 1), (0xcd, 2), (0xce, 4), (0xcf, 8)]

/-- The two's complement formats: leading byte and number of payload bytes. -/
def signedFormats : List (UInt8 × Nat) :=
  [(0xd0, 1), (0xd1, 2), (0xd2, 4), (0xd3, 8)]

/-- `bytes` is an encoding of the integer `value`. -/
inductive IntEncoding : Int → List UInt8 → Prop
  | positiveFixint (value : Nat) :
      value < 128 →
      IntEncoding value [UInt8.ofNat value]
  | negativeFixint (value : Nat) :
      0 < value →
      value ≤ 32 →
      IntEncoding (-value) [UInt8.ofNat (256 - value)]
  | unsigned (marker : UInt8) (width value : Nat) :
      (marker, width) ∈ unsignedFormats →
      value < 256 ^ width →
      IntEncoding value (marker :: toBytes width value)
  | signed (marker : UInt8) (width : Nat) (value : Int) :
      (marker, width) ∈ signedFormats →
      -(256 ^ width : Nat) ≤ 2 * value →
      2 * value < (256 ^ width : Nat) →
      IntEncoding value
        (marker :: toBytes width (value % (256 ^ width : Nat)).toNat)

/-- The sized array headers: leading byte and number of count bytes. -/
def arrayFormats : List (UInt8 × Nat) :=
  [(0xdc, 2), (0xdd, 4)]

/-- `bytes` announces an array of `count` elements. -/
inductive ArrayHeader : Nat → List UInt8 → Prop
  | fixarray (count : Nat) :
      count < 16 →
      ArrayHeader count [UInt8.ofNat (0x90 + count)]
  | sized (marker : UInt8) (width count : Nat) :
      (marker, width) ∈ arrayFormats →
      count < 256 ^ width →
      ArrayHeader count (marker :: toBytes width count)

/-- The sized map headers: leading byte and number of count bytes. -/
def mapFormats : List (UInt8 × Nat) :=
  [(0xde, 2), (0xdf, 4)]

/-- `bytes` announces a map of `count` pairs. -/
inductive MapHeader : Nat → List UInt8 → Prop
  | fixmap (count : Nat) :
      count < 16 →
      MapHeader count [UInt8.ofNat (0x80 + count)]
  | sized (marker : UInt8) (width count : Nat) :
      (marker, width) ∈ mapFormats →
      count < 256 ^ width →
      MapHeader count (marker :: toBytes width count)

/-- The sized string headers: leading byte and number of length bytes. -/
def stringFormats : List (UInt8 × Nat) :=
  [(0xd9, 1), (0xda, 2), (0xdb, 4)]

/-- `bytes` announces a string of `count` bytes. -/
inductive StringHeader : Nat → List UInt8 → Prop
  | fixstr (count : Nat) :
      count < 32 →
      StringHeader count [UInt8.ofNat (0xa0 + count)]
  | sized (marker : UInt8) (width count : Nat) :
      (marker, width) ∈ stringFormats →
      count < 256 ^ width →
      StringHeader count (marker :: toBytes width count)

/-- `bytes` is an encoding of the string `text`. -/
def StringEncoding (text bytes : List UInt8) : Prop :=
  ∃ header, StringHeader text.length header ∧ bytes = header ++ text

/-- A number on the wire: an integer, or the bit pattern of a float. -/
inductive Number where
  | integer (value : Int)
  | single (bits : Nat)
  | double (bits : Nat)
  deriving DecidableEq, Repr

/-- `bytes` is an encoding of the number `value`. -/
inductive NumberEncoding : Number → List UInt8 → Prop
  | integer (value : Int) (bytes : List UInt8) :
      IntEncoding value bytes →
      NumberEncoding (.integer value) bytes
  | single (bits : Nat) :
      bits < 256 ^ 4 →
      NumberEncoding (.single bits) (0xca :: toBytes 4 bits)
  | double (bits : Nat) :
      bits < 256 ^ 8 →
      NumberEncoding (.double bits) (0xcb :: toBytes 8 bits)

theorem IntEncoding.length_pos {value : Int} {bytes : List UInt8}
    (encoding : IntEncoding value bytes) :
    0 < bytes.length := by
  cases encoding <;> simp

theorem IntEncoding.length_le {value : Int} {bytes : List UInt8}
    (encoding : IntEncoding value bytes) :
    bytes.length ≤ 9 := by
  cases encoding with
  | positiveFixint => simp
  | negativeFixint => simp
  | unsigned marker width value format =>
      simp only [unsignedFormats, List.mem_cons, Prod.mk.injEq,
        List.not_mem_nil, or_false] at format
      simp only [List.length_cons, length_toBytes]
      omega
  | signed marker width value format =>
      simp only [signedFormats, List.mem_cons, Prod.mk.injEq,
        List.not_mem_nil, or_false] at format
      simp only [List.length_cons, length_toBytes]
      omega

end MouseHero.MessagePack
