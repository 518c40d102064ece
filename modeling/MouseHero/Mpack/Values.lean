import MouseHero.Library.MessagePackValues
import MouseHero.Mpack.Formats
import MouseHero.Mpack.Writer

/-!
# Values on the wire

What the writer functions append are encodings of values, and a reader that goes
through the tags gets every value back from each of its encodings.
-/

namespace MouseHero

open FaultM BigEndian MessagePack

/-! ## Writers -/

theorem mpackWriteU64_encoding (value : UInt64) :
    IntEncoding value.toNat (mpackWriteU64 value) := by
  have range := value.toNat_lt
  simp only [mpackWriteU64, UInt64.le_iff_toNat_le, UInt64.reduceToNat]
  split
  · exact intEncoding_positiveFixint (by assumption)
  split
  · exact intEncoding_unsigned (by decide) (by omega)
  split
  · exact intEncoding_unsigned (by decide) (by omega)
  split
  · exact intEncoding_unsigned (by decide) (by omega)
  · exact intEncoding_unsigned (by decide) (by omega)

theorem mpackStartMap_header (count : UInt32) :
    MapHeader count.toNat (mpackStartMap count) := by
  have range := count.toNat_lt
  simp only [mpackStartMap, UInt32.le_iff_toNat_le, UInt32.reduceToNat]
  split
  · exact .fixmap _ (by omega)
  split
  · rw [storeWord_of_lt (by omega)]
    exact .sized 0xde 2 _ (by decide) (by omega)
  · rw [storeWord_of_lt (by omega)]
    exact .sized 0xdf 4 _ (by decide) (by omega)

section Writers

variable {allowed : Number → Prop}

theorem mpackWriteU32_encodes (value : UInt32)
    (isAllowed : allowed (.integer value.toNat)) :
    Encodes allowed (.integer value.toNat) (mpackWriteU32 value) :=
  .integer isAllowed (mpackWriteU32_encoding value)

theorem mpackWriteU64_encodes (value : UInt64)
    (isAllowed : allowed (.integer value.toNat)) :
    Encodes allowed (.integer value.toNat) (mpackWriteU64 value) :=
  .integer isAllowed (mpackWriteU64_encoding value)

/-- A string that is UTF-8. -/
theorem mpackWriteCstr_encodes {cstr : List UInt8} {chars : List Char}
    (isText : cstr = utf8 chars) (fits : cstr.length < 2 ^ 32) :
    Encodes allowed (.text chars) (mpackWriteCstr cstr) :=
  .text (isText ▸ mpackWriteStr_encoding fits)

theorem mpackStartArray_encodes {values : List Value} {body : List UInt8}
    (elements : EncodesAll allowed values body) (fits : values.length < 2 ^ 32) :
    Encodes allowed (.array values)
      (mpackStartArray (UInt32.ofNat values.length) ++ body) := by
  have header := mpackStartArray_header (UInt32.ofNat values.length)
  rw [UInt32.toNat_ofNat_of_lt' fits] at header
  exact .array header elements

theorem mpackStartMap_encodes {pairs : List (Value × Value)} {body : List UInt8}
    (elements : EncodesAll allowed (Value.spread pairs) body)
    (distinct : (pairs.map Prod.fst).Nodup) (fits : pairs.length < 2 ^ 32) :
    Encodes allowed (.map pairs) (mpackStartMap (UInt32.ofNat pairs.length) ++ body) := by
  have header := mpackStartMap_header (UInt32.ofNat pairs.length)
  rw [UInt32.toNat_ofNat_of_lt' fits] at header
  exact .map header distinct elements

end Writers

/-! ## Reading tags -/

private theorem tagLayout_fixstr {count : Nat} (small : count < 32) :
    tagLayout (UInt8.ofNat (0xa0 + count)) = .immediate (.str count) := by
  have byte : (UInt8.ofNat (0xa0 + count)).toNat = 0xa0 + count := by
    simp only [UInt8.toNat_ofNat']
    omega
  have encoded : (0xa0 + count) % 0x20 = count := by omega
  simp only [tagLayout, byte]
  rw [if_neg (by omega), if_neg (by omega), if_neg (by omega), if_pos (by omega),
    encoded]

theorem mpackReadTag_str {count : Nat} {bytes : List UInt8}
    (header : StringHeader count bytes) : Reads mpackReadTag (.str count) bytes := by
  cases header with
  | fixstr count small => exact mpackReadTag_immediate (tagLayout_fixstr small)
  | sized marker width count format bound =>
      have layout : tagLayout marker = .sized width .str := by
        simp only [stringFormats, List.mem_cons, Prod.mk.injEq, List.not_mem_nil,
          or_false] at format
        rcases format with ⟨rfl, rfl⟩ | ⟨rfl, rfl⟩ | ⟨rfl, rfl⟩ <;> rfl
      exact mpackReadTag_sized _ _ layout bound

/-! ## Reading values -/

/-- The text of a string, or an empty one. -/
def decodeText (bytes : List UInt8) : List Char :=
  (bytes.toByteArray.utf8Decode?.map Array.toList).getD []

theorem decodeText_utf8 (chars : List Char) : decodeText (utf8 chars) = chars := by
  have decodes : (utf8 chars).toByteArray.utf8Decode? = some chars.toArray :=
    List.utf8Decode?_utf8Encode
  rw [decodeText, decodes]
  rfl

/-- The values are the keys and values of a map in turn. -/
def pairUp : List Value → List (Value × Value)
  | key :: value :: rest => (key, value) :: pairUp rest
  | _ => []

theorem pairUp_spread (pairs : List (Value × Value)) : pairUp (Value.spread pairs) = pairs := by
  induction pairs with
  | nil => rfl
  | cons pair pairs inductionHypothesis =>
      rw [Value.spread_cons, pairUp, inductionHypothesis]

theorem length_spread (pairs : List (Value × Value)) :
    (Value.spread pairs).length = 2 * pairs.length := by
  induction pairs with
  | nil => rfl
  | cons pair pairs inductionHypothesis =>
      rw [Value.spread_cons, List.length_cons, List.length_cons, inductionHypothesis,
        List.length_cons]
      omega

def readEach (read : ReaderM Value) : Nat → ReaderM (List Value)
  | 0 => pure []
  | count + 1 => do
      let value ← read
      let values ← readEach read count
      return value :: values

/-- Read a value that is at most so deep. -/
def readValue : Nat → ReaderM Value
  | 0 => pure .nil
  | depth + 1 => do
      match ← mpackReadTag with
      | .nil => pure .nil
      | .bool value => pure (.boolean value)
      | .int value => pure (.integer value)
      | .uint value => pure (.integer value)
      | .float bits => pure (.number (.single bits))
      | .double bits => pure (.number (.double bits))
      | .bin _ => pure .nil
      | .str length => do
          let bytes ← mpackReadBytes length
          pure (.text (decodeText bytes))
      | .array count => do
          let values ← readEach (readValue depth) count
          pure (.array values)
      | .map count => do
          let values ← readEach (readValue depth) (2 * count)
          pure (.map (pairUp values))

theorem readValue_number {value : Number} {bytes : List UInt8}
    (encoding : NumberEncoding value bytes) (depth : Nat) :
    Reads (readValue (depth + 1)) (.number value) bytes := by
  cases encoding with
  | integer value bytes encoding =>
      obtain ⟨tag, carries, reads⟩ := mpackReadTag_integer encoding
      rw [← List.append_nil bytes]
      refine reads.bind ?_
      cases tag with
      | int => cases carries; exact Reads.pure _
      | uint => cases carries; exact Reads.pure _
      | _ => cases carries
  | single bits bound =>
      rw [← List.append_nil (_ :: _)]
      exact (mpackReadTag_sized 0xca .float rfl bound).bind (Reads.pure _)
  | double bits bound =>
      rw [← List.append_nil (_ :: _)]
      exact (mpackReadTag_sized 0xcb .double rfl bound).bind (Reads.pure _)

section Reading

variable {allowed : Number → Prop}

theorem Encodes.length_pos {value : Value} {bytes : List UInt8}
    (encodes : Encodes allowed value bytes) : 0 < bytes.length := by
  cases encodes with
  | nil => exact Nat.one_pos
  | boolean => exact Nat.one_pos
  | number _ encoding =>
      cases encoding with
      | integer value bytes encoding => exact encoding.length_pos
      | single => exact Nat.succ_pos _
      | double => exact Nat.succ_pos _
  | text encoding =>
      obtain ⟨header, announced, rfl⟩ := encoding
      cases announced <;> simp
  | array announced => cases announced <;> simp
  | map announced => cases announced <;> simp

mutual

/-- Every value is read back from each of its encodings. -/
theorem readValue_encodes {value : Value} {bytes : List UInt8}
    (encodes : Encodes allowed value bytes) (depth : Nat) (enough : bytes.length ≤ depth) :
    Reads (readValue depth) value bytes := by
  obtain ⟨deeper, rfl⟩ : ∃ deeper, depth = deeper + 1 :=
    Nat.exists_eq_add_one.mpr (Nat.lt_of_lt_of_le (Encodes.length_pos encodes) enough)
  cases encodes with
  | nil => exact (mpackReadTag_immediate rfl).bind (Reads.pure _)
  | boolean value =>
      have reads : Reads mpackReadTag (.bool value) [if value then 0xc3 else 0xc2] :=
        mpackReadTag_immediate (by cases value <;> rfl)
      exact reads.bind (Reads.pure _)
  | number _ encoding => exact readValue_number encoding deeper
  | @text chars _ encoding =>
      obtain ⟨header, announced, rfl⟩ := encoding
      exact (mpackReadTag_str announced).bind
        ((mpackReadBytes_reads (utf8 chars)).mapTo
          (congrArg Value.text (decodeText_utf8 chars)))
  | @array values header body announced elements =>
      have positive : 0 < header.length := by cases announced <;> simp
      rw [List.length_append] at enough
      exact (mpackReadTag_array announced).bind
        (readEach_encodes elements deeper (by omega)).map
  | @map pairs header body announced distinct elements =>
      have positive : 0 < header.length := by cases announced <;> simp
      rw [List.length_append] at enough
      have reads := readEach_encodes elements deeper (by omega)
      rw [length_spread] at reads
      exact (mpackReadTag_map announced).bind
        (reads.mapTo (congrArg Value.map (pairUp_spread pairs)))

theorem readEach_encodes {values : List Value} {bytes : List UInt8}
    (encodes : EncodesAll allowed values bytes) (depth : Nat) (enough : bytes.length ≤ depth) :
    Reads (readEach (readValue depth) values.length) values bytes := by
  cases encodes with
  | nil => exact Reads.pure _
  | @cons value values front rest first others =>
      rw [List.length_append] at enough
      exact (readValue_encodes first depth (by omega)).bind
        (readEach_encodes others depth (by omega)).map

end

end Reading

end MouseHero
