import MouseHero.Library.CFloat

/-!
# The MessagePack writer

The functions of the vendored `mpack` library that write into a growable
buffer, as the bytes each one appends.  Every function picks the shortest
encoding of its value.
-/

namespace MouseHero

open BigEndian MessagePack

/-- Store an integer as a word of `width` bytes. -/
def storeWord (width : Nat) (value : Int) : List UInt8 :=
  toBytes width (value % (256 ^ width : Nat)).toNat

/-- `mpack_write_u32`. -/
def mpackWriteU32 (value : UInt32) : List UInt8 :=
  if value ≤ 127 then storeWord 1 value.toNat
  else if value ≤ 0xff then 0xcc :: storeWord 1 value.toNat
  else if value ≤ 0xffff then 0xcd :: storeWord 2 value.toNat
  else 0xce :: storeWord 4 value.toNat

/-- `mpack_write_i32`. -/
def mpackWriteI32 (value : Int32) : List UInt8 :=
  if -32 ≤ value.toInt then
    if value.toInt ≤ 127 then storeWord 1 value.toInt
    else if value.toInt ≤ 0xff then 0xcc :: storeWord 1 value.toInt
    else if value.toInt ≤ 0xffff then 0xcd :: storeWord 2 value.toInt
    else 0xce :: storeWord 4 value.toInt
  else if -0x80 ≤ value.toInt then 0xd0 :: storeWord 1 value.toInt
  else if -0x8000 ≤ value.toInt then 0xd1 :: storeWord 2 value.toInt
  else 0xd2 :: storeWord 4 value.toInt

/-- `mpack_write_bool`. -/
def mpackWriteBool (value : Bool) : List UInt8 :=
  [if value then 0xc3 else 0xc2]

/-- `mpack_write_float`. -/
def mpackWriteFloat {F : Type} [CFloat F] (value : F) : List UInt8 :=
  0xca :: storeWord 4 (CFloat.toSingle value).toNat

/-- `mpack_write_u64`. -/
def mpackWriteU64 (value : UInt64) : List UInt8 :=
  if value ≤ 127 then storeWord 1 value.toNat
  else if value ≤ 0xff then 0xcc :: storeWord 1 value.toNat
  else if value ≤ 0xffff then 0xcd :: storeWord 2 value.toNat
  else if value ≤ 0xffffffff then 0xce :: storeWord 4 value.toNat
  else 0xcf :: storeWord 8 value.toNat

/-- `mpack_start_map`. -/
def mpackStartMap (count : UInt32) : List UInt8 :=
  if count ≤ 15 then [UInt8.ofNat (0x80 + count.toNat)]
  else if count ≤ 0xffff then 0xde :: storeWord 2 count.toNat
  else 0xdf :: storeWord 4 count.toNat

/-- `mpack_start_array`. -/
def mpackStartArray (count : UInt32) : List UInt8 :=
  if count ≤ 15 then [UInt8.ofNat (0x90 + count.toNat)]
  else if count ≤ 0xffff then 0xdc :: storeWord 2 count.toNat
  else 0xdd :: storeWord 4 count.toNat

/-- `mpack_write_str`: `count` bytes of the string at `data`. -/
def mpackWriteStr (data : List UInt8) (count : UInt32) : List UInt8 :=
  let header :=
    if count ≤ 31 then [UInt8.ofNat (0xa0 + count.toNat)]
    else if count ≤ 0xff then 0xd9 :: storeWord 1 count.toNat
    else if count ≤ 0xffff then 0xda :: storeWord 2 count.toNat
    else 0xdb :: storeWord 4 count.toNat
  header ++ data.take count.toNat

/-- `mpack_write_cstr` of the bytes in front of the NUL. -/
def mpackWriteCstr (cstr : List UInt8) : List UInt8 :=
  mpackWriteStr cstr (UInt32.ofNat cstr.length)

/-- The bytes of a literal of the source. -/
def literal (text : String) : List UInt8 :=
  text.toList.map fun char => UInt8.ofNat char.toNat

/-! ## The writers produce encodings -/

@[simp]
theorem length_storeWord (width : Nat) (value : Int) :
    (storeWord width value).length = width :=
  length_toBytes _ _

theorem storeWord_of_lt {width value : Nat} (bound : value < 256 ^ width) :
    storeWord width value = toBytes width value := by
  have residue : ((value : Int) % (256 ^ width : Nat)).toNat = value := by
    rw [Int.emod_eq_of_lt (by omega) (by exact_mod_cast bound)]
    omega
  rw [storeWord, residue]

private theorem storeWord_byte {value : Nat} (bound : value < 256) :
    storeWord 1 value = [UInt8.ofNat value] := by
  rw [storeWord_of_lt bound]
  simp [toBytes]

/-- The unsigned formats a non-negative integer is written in. -/
theorem intEncoding_unsigned {marker : UInt8} {width value : Nat}
    (format : (marker, width) ∈ unsignedFormats)
    (bound : value < 256 ^ width) :
    IntEncoding value (marker :: storeWord width value) := by
  rw [storeWord_of_lt bound]
  exact .unsigned marker width value format bound

theorem intEncoding_positiveFixint {value : Nat} (small : value ≤ 127) :
    IntEncoding value (storeWord 1 value) := by
  rw [storeWord_byte (by omega)]
  exact .positiveFixint value (by omega)

private theorem intEncoding_negativeFixint {value : Int}
    (negative : value < 0) (small : -32 ≤ value) :
    IntEncoding value (storeWord 1 value) := by
  obtain ⟨magnitude, rfl⟩ : ∃ magnitude : Nat, value = -magnitude :=
    ⟨value.natAbs, by omega⟩
  have residue : (-magnitude : Int) % (256 ^ 1 : Nat) = (256 - magnitude : Nat) := by
    omega
  have encoded :
      storeWord 1 (-magnitude) = [UInt8.ofNat (256 - magnitude)] := by
    rw [storeWord, residue]
    simp [toBytes]
  rw [encoded]
  exact .negativeFixint magnitude (by omega) (by omega)

theorem mpackWriteU32_encoding (value : UInt32) :
    IntEncoding value.toNat (mpackWriteU32 value) := by
  have range := value.toNat_lt
  simp only [mpackWriteU32, UInt32.le_iff_toNat_le, UInt32.reduceToNat]
  split
  · exact intEncoding_positiveFixint (by assumption)
  split
  · exact intEncoding_unsigned (by decide) (by omega)
  split
  · exact intEncoding_unsigned (by decide) (by omega)
  · exact intEncoding_unsigned (by decide) (by omega)

theorem mpackWriteI32_encoding (value : Int32) :
    IntEncoding value.toInt (mpackWriteI32 value) := by
  have lower := value.le_toInt
  have upper := value.toInt_lt
  unfold mpackWriteI32
  generalize value.toInt = number at *
  by_cases nonnegative : 0 ≤ number
  · obtain ⟨natural, rfl⟩ := Int.eq_ofNat_of_zero_le nonnegative
    rw [if_pos (by omega)]
    split
    · exact intEncoding_positiveFixint (by omega)
    split
    · exact intEncoding_unsigned (by decide) (by omega)
    split
    · exact intEncoding_unsigned (by decide) (by omega)
    · exact intEncoding_unsigned (by decide) (by omega)
  · split
    · rw [if_pos (by omega)]
      exact intEncoding_negativeFixint (by omega) (by assumption)
    split
    · exact .signed 0xd0 1 number (by decide) (by omega) (by omega)
    split
    · exact .signed 0xd1 2 number (by decide) (by omega) (by omega)
    · exact .signed 0xd2 4 number (by decide) (by omega) (by omega)

theorem mpackStartArray_header (count : UInt32) :
    ArrayHeader count.toNat (mpackStartArray count) := by
  have range := count.toNat_lt
  simp only [mpackStartArray, UInt32.le_iff_toNat_le, UInt32.reduceToNat]
  split
  · exact .fixarray _ (by omega)
  split
  · rw [storeWord_of_lt (by omega)]
    exact .sized 0xdc 2 _ (by decide) (by omega)
  · rw [storeWord_of_lt (by omega)]
    exact .sized 0xdd 4 _ (by decide) (by omega)

/-- A string is written whole when its length fits the count. -/
theorem mpackWriteStr_encoding {text : List UInt8}
    (fits : text.length < 2 ^ 32) :
    StringEncoding text (mpackWriteStr text (UInt32.ofNat text.length)) := by
  have count : (UInt32.ofNat text.length).toNat = text.length := by
    simp only [UInt32.toNat_ofNat']
    omega
  simp only [mpackWriteStr, UInt32.le_iff_toNat_le, UInt32.reduceToNat,
    count, List.take_length]
  refine ⟨_, ?_, rfl⟩
  split
  · exact .fixstr _ (by omega)
  split
  · rw [storeWord_of_lt (by omega)]
    exact .sized 0xd9 1 _ (by decide) (by omega)
  split
  · rw [storeWord_of_lt (by omega)]
    exact .sized 0xda 2 _ (by decide) (by omega)
  · rw [storeWord_of_lt (by omega)]
    exact .sized 0xdb 4 _ (by decide) (by omega)

end MouseHero
