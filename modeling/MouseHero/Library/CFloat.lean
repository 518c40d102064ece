import MouseHero.Library.MessagePack
import Mathlib.Algebra.Order.Floor.Defs
import Mathlib.Data.Rat.Floor

/-!
# C floating-point arithmetic as an interface

The operations on `float` and `double` that a C program performs, over an
arbitrary carrier for the values of both types.  `single` rounds to `float`;
an operation on `float` operands is the one on `double` followed by it.  An
instance fixes what the operations compute.
-/

namespace MouseHero

/-- A carrier for C's floating-point values. -/
class CFloat (F : Type) where
  /-- Rounding to `float`. -/
  single : F → F
  /-- Conversion from an integer type to `double`. -/
  ofInt : Int → F
  /-- Conversion from an integer type to `float`. -/
  singleOfInt : Int → F
  /-- The `float` with the given bit pattern. -/
  ofSingle : Nat → F
  /-- The `double` with the given bit pattern. -/
  ofDouble : Nat → F
  /-- The bit pattern of a `float`. -/
  toSingle : F → UInt32
  /-- A decimal constant of type `double`. -/
  constant : Rat → F
  add : F → F → F
  sub : F → F → F
  mul : F → F → F
  div : F → F → F
  lt : F → F → Bool
  le : F → F → Bool
  fabs : F → F
  floor : F → F
  ceil : F → F
  sqrt : F → F
  pow : F → F → F
  fmax : F → F → F
  /-- Conversion to `int`: truncation towards zero. -/
  toInt : F → Int

namespace CFloat

variable {F : Type} [CFloat F]

/-- The `float` a number on the wire converts to. -/
def ofNumber : MessagePack.Number → F
  | .integer value => singleOfInt value
  | .single bits => ofSingle bits
  | .double bits => single (ofDouble bits)

/-! ## Operations on `float` operands -/

def addf (left right : F) : F := single (add left right)

def subf (left right : F) : F := single (sub left right)

def mulf (left right : F) : F := single (mul left right)

def sqrtf (value : F) : F := single (sqrt value)

def powf (base exponent : F) : F := single (pow base exponent)

/-- A decimal constant of type `float`. -/
def constantf (value : Rat) : F := single (constant value)

/-! ## Exact arithmetic -/

/-- The value of a finite IEEE number with the given field widths. -/
def ieeeValue (exponentBits fractionBits bits : Nat) : Rat :=
  let fraction := bits % 2 ^ fractionBits
  let exponent := bits / 2 ^ fractionBits % 2 ^ exponentBits
  let bias := 2 ^ (exponentBits - 1) - 1
  let magnitude : Rat :=
    if exponent = 0 then fraction else 2 ^ fractionBits + fraction
  let scale : Int :=
    (max exponent 1 : Nat) - ((bias + fractionBits : Nat) : Int)
  let value := magnitude * 2 ^ scale
  if bits / 2 ^ (exponentBits + fractionBits) % 2 = 1 then -value else value

/-- The bit pattern of the normal number next to a positive value, towards
zero. -/
def normalBits (value : Rat) : Nat :=
  let estimate : Int := (Nat.log2 value.num.natAbs : Int) - Nat.log2 value.den
  let exponent := if value < 2 ^ estimate then estimate - 1 else estimate
  (exponent + 127).toNat * 2 ^ 23 +
    ⌊value * 2 ^ (23 - exponent)⌋.toNat % 2 ^ 23

/-- The rational numbers, without rounding.  A square root is computed on
numerator and denominator, a power for natural exponents. -/
instance exact : CFloat Rat where
  single value := value
  ofInt value := value
  singleOfInt value := value
  ofSingle := ieeeValue 8 23
  ofDouble := ieeeValue 11 52
  toSingle value :=
    UInt32.ofNat <|
      if value = 0 then 0
      else if value < 0 then 2 ^ 31 + normalBits (-value)
      else normalBits value
  constant value := value
  add left right := left + right
  sub left right := left - right
  mul left right := left * right
  div left right := left / right
  lt left right := decide (left < right)
  le left right := decide (left ≤ right)
  fabs value := if value < 0 then -value else value
  floor value := (⌊value⌋ : Int)
  ceil value := (-⌊-value⌋ : Int)
  sqrt value := Nat.sqrt value.num.toNat / Nat.sqrt value.den
  pow base exponent := base ^ ⌊exponent⌋.toNat
  fmax left right := max left right
  toInt value := if value < 0 then -⌊-value⌋ else ⌊value⌋

end CFloat

end MouseHero
