import MouseHero.Library.MessagePack
import MouseHero.Library.Utf8

/-!
# MessagePack values

Whole values of the format, without binary data and extensions, as a tree of
arrays and maps, and the byte strings that denote them.  The numbers can be
restricted to those that a reader is able to represent.
-/

namespace MouseHero.MessagePack

/-- A value.  Texts are sequences of characters, and the pairs of a map have an
order. -/
inductive Value where
  | nil
  | boolean (value : Bool)
  | number (value : Number)
  | text (chars : List Char)
  | array (values : List Value)
  | map (pairs : List (Value × Value))

/-- The integer as a value. -/
def Value.integer (value : Int) : Value :=
  .number (.integer value)

/-- The keys and values of a map in the order of the format. -/
def Value.spread (pairs : List (Value × Value)) : List Value :=
  pairs.flatMap fun pair => [pair.1, pair.2]

@[simp]
theorem Value.spread_nil : Value.spread [] = [] :=
  rfl

@[simp]
theorem Value.spread_cons (pair : Value × Value) (pairs : List (Value × Value)) :
    Value.spread (pair :: pairs) = pair.1 :: pair.2 :: Value.spread pairs :=
  rfl

mutual

/-- `bytes` denotes the value.  No key of a map is there twice. -/
inductive Encodes (allowed : Number → Prop) : Value → List UInt8 → Prop
  | nil : Encodes allowed .nil [0xc0]
  | boolean (value : Bool) :
      Encodes allowed (.boolean value) [if value then 0xc3 else 0xc2]
  | number {value : Number} {bytes : List UInt8} (isAllowed : allowed value)
      (encoding : NumberEncoding value bytes) : Encodes allowed (.number value) bytes
  | text {chars : List Char} {bytes : List UInt8}
      (encoding : StringEncoding (utf8 chars) bytes) : Encodes allowed (.text chars) bytes
  | array {values : List Value} {header body : List UInt8}
      (announced : ArrayHeader values.length header)
      (elements : EncodesAll allowed values body) :
      Encodes allowed (.array values) (header ++ body)
  | map {pairs : List (Value × Value)} {header body : List UInt8}
      (announced : MapHeader pairs.length header) (distinct : (pairs.map Prod.fst).Nodup)
      (elements : EncodesAll allowed (Value.spread pairs) body) :
      Encodes allowed (.map pairs) (header ++ body)

/-- `bytes` denotes the values, one after the other. -/
inductive EncodesAll (allowed : Number → Prop) : List Value → List UInt8 → Prop
  | nil : EncodesAll allowed [] []
  | cons {value : Value} {values : List Value} {front rest : List UInt8}
      (first : Encodes allowed value front) (others : EncodesAll allowed values rest) :
      EncodesAll allowed (value :: values) (front ++ rest)

end

section Encodings

variable {allowed : Number → Prop} {value : Value} {rest : List UInt8}

theorem Encodes.integer {value : Int} {bytes : List UInt8}
    (isAllowed : allowed (.integer value)) (encoding : IntEncoding value bytes) :
    Encodes allowed (.integer value) bytes :=
  .number isAllowed (.integer value bytes encoding)

theorem EncodesAll.noPairs : EncodesAll allowed (Value.spread []) [] :=
  .nil

/-- A key and its value in front of the other pairs of a map. -/
theorem EncodesAll.pair {key : Value} {pairs : List (Value × Value)}
    {keyBytes valueBytes : List UInt8} (isKey : Encodes allowed key keyBytes)
    (isValue : Encodes allowed value valueBytes)
    (others : EncodesAll allowed (Value.spread pairs) rest) :
    EncodesAll allowed (Value.spread ((key, value) :: pairs))
      (keyBytes ++ (valueBytes ++ rest)) :=
  .cons isKey (.cons isValue others)

/-- Values that are written one by one. -/
theorem encodesAll_map {Item : Type} {items : List Item} {toValue : Item → Value}
    {toBytes : Item → List UInt8}
    (encodes : ∀ item ∈ items, Encodes allowed (toValue item) (toBytes item)) :
    EncodesAll allowed (items.map toValue) (items.map toBytes).flatten := by
  induction items with
  | nil => exact .nil
  | cons item items inductionHypothesis =>
      obtain ⟨first, others⟩ := List.forall_mem_cons.mp encodes
      exact .cons first (inductionHypothesis others)

end Encodings

end MouseHero.MessagePack
