import MouseHero.Mpack.Reader
import Mathlib.Tactic.Ring

/-!
# The reader accepts every encoding of the format

Each expect function, started on an encoding of its type followed by any
bytes, returns the encoded value and stops right behind the encoding.  Such
facts compose: two functions in sequence read the concatenation.
-/

namespace MouseHero

open FaultM MessagePack BigEndian

/-- On `bytes`, whatever follows, the computation returns `value` and consumes
`bytes` alone. -/
def Reads {Result : Type} (computation : ReaderM Result) (value : Result)
    (bytes : List UInt8) : Prop :=
  ∀ (rest : List UInt8) (left : Nat), bytes.length ≤ left →
    computation ⟨bytes ++ rest, left, .ok⟩ =
      (.ok value, ⟨rest, left - bytes.length, .ok⟩)

theorem Reads.pure {Result : Type} (value : Result) :
    Reads (Pure.pure value) value [] :=
  fun _ _ _ => rfl

theorem Reads.bind {Result Next : Type}
    {first : ReaderM Result} {next : Result → ReaderM Next}
    {value : Result} {final : Next} {front back : List UInt8}
    (firstReads : Reads first value front)
    (nextReads : Reads (next value) final back) :
    Reads (first >>= next) final (front ++ back) := by
  intro rest left available
  simp only [List.length_append] at available ⊢
  rw [List.append_assoc, bind_of_ok (firstReads _ left (by omega)),
    nextReads rest _ (by omega), Nat.sub_sub]

/-- The last read of a sequence whose result is wrapped up. -/
theorem Reads.mapTo {Result Next : Type}
    {first : ReaderM Result} {wrap : Result → Next}
    {value : Result} {final : Next} {bytes : List UInt8}
    (firstReads : Reads first value bytes) (wrapped : wrap value = final) :
    Reads (first >>= fun result => Pure.pure (wrap result)) final bytes := by
  subst wrapped
  have both :
      Reads (first >>= fun result => Pure.pure (wrap result)) (wrap value)
        (bytes ++ []) :=
    firstReads.bind (Reads.pure (wrap value))
  rwa [List.append_nil] at both

theorem Reads.map {Result Next : Type}
    {first : ReaderM Result} {wrap : Result → Next}
    {value : Result} {bytes : List UInt8}
    (firstReads : Reads first value bytes) :
    Reads (first >>= fun result => Pure.pure (wrap result)) (wrap value)
      bytes :=
  firstReads.mapTo rfl

theorem Reads.getState {Result : Type}
    {next : MpackReader → ReaderM Result} {value : Result}
    {bytes : List UInt8}
    (nextReads :
      ∀ reader, reader.error = .ok → Reads (next reader) value bytes) :
    Reads (FaultM.getState >>= next) value bytes := by
  intro rest left available
  rw [bind_of_ok (getState_apply _)]
  exact nextReads _ rfl rest left available

/-! ## Tags -/

theorem mpackReaderEnsure_of_le {count left : Nat} {data : List UInt8}
    {error : MpackError} (available : count ≤ left) :
    mpackReaderEnsure count ⟨data, left, error⟩ =
      (.ok true, ⟨data, left, error⟩) := by
  simp [mpackReaderEnsure, available]

theorem loadBytes_front (bytes rest : List UInt8) (left : Nat)
    (error : MpackError) :
    loadBytes 0 bytes.length ⟨bytes ++ rest, left, error⟩ =
      (.ok bytes, ⟨bytes ++ rest, left, error⟩) := by
  simp [loadBytes]

private theorem loadBytes_second (marker : UInt8) (bytes rest : List UInt8)
    (left : Nat) (error : MpackError) :
    loadBytes 1 bytes.length ⟨marker :: bytes ++ rest, left, error⟩ =
      (.ok bytes, ⟨marker :: bytes ++ rest, left, error⟩) := by
  simp [loadBytes]
  omega

@[simp]
theorem advance_front {front rest : List UInt8} {left : Nat}
    {error : MpackError} :
    advance front.length ⟨front ++ rest, left, error⟩ =
      (.ok ⟨⟩, ⟨rest, left - front.length, error⟩) := by
  simp [advance]

theorem mpackParseTag_immediate
    {type : UInt8} {rest : List UInt8} {left : Nat} {tag : MpackTag}
    (layout : tagLayout type = .immediate tag) (available : 1 ≤ left) :
    mpackParseTag ⟨type :: rest, left, .ok⟩ =
      (.ok (some (tag, 1)), ⟨type :: rest, left, .ok⟩) := by
  have loaded := loadBytes_front [type] rest left .ok
  rw [List.length_singleton, List.singleton_append] at loaded
  rw [mpackParseTag, bind_of_ok (mpackReaderEnsure_of_le available)]
  simp only [if_true]
  rw [bind_of_ok loaded]
  simp [layout]

theorem mpackParseTag_sized
    {marker : UInt8} {payload rest : List UInt8} {left width : Nat}
    {make : Nat → MpackTag}
    (layout : tagLayout marker = .sized width make)
    (size : payload.length = width) (available : width + 1 ≤ left) :
    mpackParseTag ⟨marker :: payload ++ rest, left, .ok⟩ =
      (.ok (some (make (ofBytes payload), width + 1)),
        ⟨marker :: payload ++ rest, left, .ok⟩) := by
  have first := loadBytes_front [marker] (payload ++ rest) left .ok
  have second := loadBytes_second marker payload rest left .ok
  simp only [List.length_singleton, List.cons_append, List.nil_append, size]
    at first second ⊢
  rw [mpackParseTag,
    bind_of_ok (mpackReaderEnsure_of_le (show 1 ≤ left by omega))]
  simp only [if_true]
  rw [bind_of_ok first]
  simp only [List.headD_cons, layout]
  rw [bind_of_ok (mpackReaderEnsure_of_le available)]
  simp only [if_true]
  rw [bind_of_ok second]
  rfl

theorem mpackReadTag_of_parse
    {front rest : List UInt8} {left : Nat} {tag : MpackTag}
    (parsed :
      mpackParseTag ⟨front ++ rest, left, .ok⟩ =
        (.ok (some (tag, front.length)), ⟨front ++ rest, left, .ok⟩)) :
    mpackReadTag ⟨front ++ rest, left, .ok⟩ =
      (.ok tag, ⟨rest, left - front.length, .ok⟩) := by
  rw [mpackReadTag, bind_of_ok (getState_apply _)]
  simp only [ne_eq, not_true_eq_false, if_false]
  rw [bind_of_ok parsed]
  simp only
  rw [bind_of_ok advance_front]
  rfl

theorem mpackReadTag_immediate {type : UInt8} {tag : MpackTag}
    (layout : tagLayout type = .immediate tag) :
    Reads mpackReadTag tag [type] :=
  fun _ _ available =>
    mpackReadTag_of_parse (mpackParseTag_immediate layout available)

theorem mpackReadTag_sized
    {width value : Nat} (marker : UInt8) (make : Nat → MpackTag)
    (layout : tagLayout marker = .sized width make)
    (bound : value < 256 ^ width) :
    Reads mpackReadTag (make value) (marker :: toBytes width value) := by
  intro rest left available
  apply mpackReadTag_of_parse
  have room : width + 1 ≤ left := by simpa using available
  rw [mpackParseTag_sized layout (length_toBytes width value) room]
  simp [ofBytes_toBytes_of_lt bound]

/-! ## Integers -/

/-- The integer a tag carries. -/
def MpackTag.integer? : MpackTag → Option Int
  | .uint value => some value
  | .int value => some value
  | _ => none

/-- Reading a stored word back as two's complement undoes the wrap. -/
theorem signedWord_emod
    {width : Nat} {value : Int}
    (lower : -(256 ^ width : Nat) ≤ 2 * value)
    (upper : 2 * value < (256 ^ width : Nat)) :
    signedWord width (value % (256 ^ width : Nat)).toNat = value := by
  unfold signedWord
  generalize 256 ^ width = modulus at *
  by_cases negative : value < 0
  · have residue : value % modulus = value + modulus := by
      rw [← Int.add_emod_right, Int.emod_eq_of_lt (by omega) (by omega)]
    rw [residue, if_neg (by omega)]
    omega
  · rw [Int.emod_eq_of_lt (by omega) (by omega), if_pos (by omega)]
    omega

private theorem tagLayout_positiveFixint {value : Nat} (small : value < 128) :
    tagLayout (UInt8.ofNat value) = .immediate (.uint value) := by
  have byte : (UInt8.ofNat value).toNat = value := by
    simp only [UInt8.toNat_ofNat']
    omega
  simp [tagLayout, byte, small]

private theorem tagLayout_negativeFixint {value : Nat}
    (positive : 0 < value) (small : value ≤ 32) :
    tagLayout (UInt8.ofNat (256 - value)) = .immediate (.int (-value)) := by
  have byte : (UInt8.ofNat (256 - value)).toNat = 256 - value := by
    simp only [UInt8.toNat_ofNat']
    omega
  have encoded : ((256 - value : Nat) : Int) - 256 = -value := by omega
  simp only [tagLayout, byte]
  rw [if_neg (by omega), if_neg (by omega), if_neg (by omega),
    if_neg (by omega), if_pos (by omega), encoded]

private theorem tagLayout_unsigned {marker : UInt8} {width : Nat}
    (format : (marker, width) ∈ unsignedFormats) :
    tagLayout marker = .sized width .uint := by
  simp only [unsignedFormats, List.mem_cons, Prod.mk.injEq,
    List.not_mem_nil, or_false] at format
  rcases format with ⟨rfl, rfl⟩ | ⟨rfl, rfl⟩ | ⟨rfl, rfl⟩ | ⟨rfl, rfl⟩ <;>
    rfl

private theorem tagLayout_signed {marker : UInt8} {width : Nat}
    (format : (marker, width) ∈ signedFormats) :
    tagLayout marker =
      .sized width fun value => .int (signedWord width value) := by
  simp only [signedFormats, List.mem_cons, Prod.mk.injEq,
    List.not_mem_nil, or_false] at format
  rcases format with ⟨rfl, rfl⟩ | ⟨rfl, rfl⟩ | ⟨rfl, rfl⟩ | ⟨rfl, rfl⟩ <;>
    rfl

/-- The tag read from an integer encoding carries the encoded integer. -/
theorem mpackReadTag_integer {value : Int} {bytes : List UInt8}
    (encoding : IntEncoding value bytes) :
    ∃ tag, tag.integer? = some value ∧ Reads mpackReadTag tag bytes := by
  cases encoding with
  | positiveFixint value small =>
      exact ⟨.uint value, rfl,
        mpackReadTag_immediate (tagLayout_positiveFixint small)⟩
  | negativeFixint value positive small =>
      exact ⟨.int (-value), rfl,
        mpackReadTag_immediate (tagLayout_negativeFixint positive small)⟩
  | unsigned marker width value format bound =>
      exact ⟨.uint value, rfl,
        mpackReadTag_sized _ _ (tagLayout_unsigned format) bound⟩
  | signed marker width value format lower upper =>
      have residue :
          (value % (256 ^ width : Nat)).toNat < 256 ^ width := by
        have positive : (0 : Int) < (256 ^ width : Nat) := by
          exact_mod_cast Nat.pow_pos (by omega : 0 < 256)
        have := Int.emod_lt_of_pos value positive
        have := Int.emod_nonneg value (Int.ne_of_gt positive)
        omega
      have consumed :=
        mpackReadTag_sized _ _ (tagLayout_signed format) residue
      exact ⟨.int value, rfl, by
        simpa only [signedWord_emod lower upper] using consumed⟩

theorem expectFailure_apply {Result : Type} (value : Result)
    (reader : MpackReader) :
    expectFailure value reader = (.ok value, reader.flagError .type) :=
  rfl

theorem mpackExpectI32_encoding {value : Int} {bytes : List UInt8}
    (encoding : IntEncoding value bytes)
    (lower : -2 ^ 31 ≤ value) (upper : value < 2 ^ 31) :
    Reads mpackExpectI32 (Int32.ofInt value) bytes := by
  intro rest left available
  obtain ⟨tag, carries, consumed⟩ := mpackReadTag_integer encoding
  rw [mpackExpectI32, bind_of_ok (consumed rest left available)]
  cases tag with
  | uint read =>
      cases carries
      have small : read < 2 ^ 31 := by omega
      simp only
      rw [if_pos small]
      rfl
  | int read =>
      cases carries
      simp only
      rw [if_pos ⟨lower, upper⟩]
      rfl
  | _ => cases carries

theorem mpackExpectI32_outOfRange
    {value : Int} {bytes : List UInt8} {left : Nat} (rest : List UInt8)
    (encoding : IntEncoding value bytes) (available : bytes.length ≤ left)
    (outside : 2 ^ 31 ≤ value) :
    mpackExpectI32 ⟨bytes ++ rest, left, .ok⟩ =
      (.ok 0, ⟨rest, 0, .type⟩) := by
  obtain ⟨tag, carries, consumed⟩ := mpackReadTag_integer encoding
  rw [mpackExpectI32, bind_of_ok (consumed rest left available)]
  cases tag with
  | uint read =>
      cases carries
      have large : ¬ read < 2 ^ 31 := by omega
      simp only
      rw [if_neg large]
      simp [expectFailure_apply, MpackReader.flagError]
  | int read =>
      cases carries
      have large : ¬ (-2 ^ 31 ≤ value ∧ value < 2 ^ 31) := by omega
      simp only
      rw [if_neg large]
      simp [expectFailure_apply, MpackReader.flagError]
  | _ => cases carries

theorem mpackExpectI32_error {reader : MpackReader}
    (failed : reader.error ≠ .ok) :
    mpackExpectI32 reader = (.ok 0, reader) := by
  have tag : mpackReadTag reader = (.ok .nil, reader) := by
    rw [mpackReadTag, bind_of_ok (getState_apply _)]
    simp [failed]
  rw [mpackExpectI32, bind_of_ok tag]
  simp [expectFailure_apply, MpackReader.flagError, failed]

theorem mpackExpectU32_encoding {value : Int} {bytes : List UInt8}
    (encoding : IntEncoding value bytes)
    (nonnegative : 0 ≤ value) (upper : value < 2 ^ 32) :
    Reads mpackExpectU32 (UInt32.ofNat value.toNat) bytes := by
  intro rest left available
  obtain ⟨tag, carries, consumed⟩ := mpackReadTag_integer encoding
  rw [mpackExpectU32, bind_of_ok (consumed rest left available)]
  cases tag with
  | uint read =>
      cases carries
      have small : read < 2 ^ 32 := by omega
      simp only
      rw [if_pos small]
      rfl
  | int read =>
      cases carries
      simp only
      rw [if_pos ⟨nonnegative, upper⟩]
      rfl
  | _ => cases carries

/-! ## Numbers -/

theorem mpackExpectFloat_encoding {F : Type} [CFloat F]
    {number : Number} {bytes : List UInt8}
    (encoding : NumberEncoding number bytes) :
    Reads (mpackExpectFloat (F := F)) (CFloat.ofNumber number) bytes := by
  intro rest left available
  cases encoding with
  | integer value bytes integer =>
      obtain ⟨tag, carries, consumed⟩ := mpackReadTag_integer integer
      rw [mpackExpectFloat, bind_of_ok (consumed rest left available)]
      cases tag with
      | uint read => cases carries; rfl
      | int read => cases carries; rfl
      | _ => cases carries
  | single bits bound =>
      have consumed := mpackReadTag_sized 0xca .float rfl bound
      rw [mpackExpectFloat, bind_of_ok (consumed rest left available)]
      rfl
  | double bits bound =>
      have consumed := mpackReadTag_sized 0xcb .double rfl bound
      rw [mpackExpectFloat, bind_of_ok (consumed rest left available)]
      rfl

/-! ## Arrays -/

private theorem tagLayout_fixarray {count : Nat} (small : count < 16) :
    tagLayout (UInt8.ofNat (0x90 + count)) = .immediate (.array count) := by
  have byte : (UInt8.ofNat (0x90 + count)).toNat = 0x90 + count := by
    simp only [UInt8.toNat_ofNat']
    omega
  have encoded : (0x90 + count) % 0x10 = count := by omega
  simp only [tagLayout, byte]
  rw [if_neg (by omega), if_neg (by omega), if_pos (by omega), encoded]

theorem mpackReadTag_array {count : Nat} {bytes : List UInt8}
    (header : ArrayHeader count bytes) :
    Reads mpackReadTag (.array count) bytes := by
  cases header with
  | fixarray count small =>
      exact mpackReadTag_immediate (tagLayout_fixarray small)
  | sized marker width count format bound =>
      have layout : tagLayout marker = .sized width .array := by
        simp only [arrayFormats, List.mem_cons, Prod.mk.injEq,
          List.not_mem_nil, or_false] at format
        rcases format with ⟨rfl, rfl⟩ | ⟨rfl, rfl⟩ <;> rfl
      exact mpackReadTag_sized _ _ layout bound

theorem mpackExpectArray_header {count : Nat} {bytes : List UInt8}
    (header : ArrayHeader count bytes) :
    Reads mpackExpectArray count bytes := by
  intro rest left available
  have consumed := mpackReadTag_array header rest left available
  rw [mpackExpectArray, bind_of_ok consumed]
  rfl

/-! ## Strings -/

theorem mpackExpectNative_reads (front : List UInt8) :
    Reads (mpackExpectNative front.length) (ofBytes front) front := by
  intro rest left available
  have loaded := loadBytes_front front rest left .ok
  rw [mpackExpectNative, bind_of_ok (getState_apply _)]
  simp only [ne_eq, not_true_eq_false, if_false]
  rw [bind_of_ok (mpackReaderEnsure_of_le available)]
  simp only [if_true]
  rw [bind_of_ok loaded, bind_of_ok advance_front]
  rfl

theorem mpackExpectNative_toBytes {width value : Nat}
    (bound : value < 256 ^ width) :
    Reads (mpackExpectNative width) value (toBytes width value) := by
  have consumed := mpackExpectNative_reads (toBytes width value)
  simpa only [length_toBytes, ofBytes_toBytes_of_lt bound] using consumed

theorem mpackExpectStr_header {count : Nat} {bytes : List UInt8}
    (header : StringHeader count bytes) :
    Reads mpackExpectStr count bytes := by
  cases header with
  | fixstr count small =>
      have byte : ofBytes [UInt8.ofNat (0xa0 + count)] = 0xa0 + count := by
        simp only [ofBytes, UInt8.toNat_ofNat', List.length_nil, pow_zero]
        omega
      have type := mpackExpectNative_reads [UInt8.ofNat (0xa0 + count)]
      rw [byte] at type
      have kind : (0xa0 + count) / 0x20 = 5 := by omega
      have encoded : (0xa0 + count) % 0x20 = count := by omega
      rw [← List.append_nil [UInt8.ofNat (0xa0 + count)]]
      refine type.bind ?_
      simp only [kind, if_true, encoded]
      exact Reads.pure count
  | sized marker width count format bound =>
      have type := mpackExpectNative_reads [marker]
      refine type.bind ?_
      simp only [stringFormats, List.mem_cons, Prod.mk.injEq,
        List.not_mem_nil, or_false] at format
      rcases format with ⟨rfl, rfl⟩ | ⟨rfl, rfl⟩ | ⟨rfl, rfl⟩ <;>
        exact mpackExpectNative_toBytes bound

theorem mpackReadBytes_reads (front : List UInt8) :
    Reads (mpackReadBytes front.length) front front := by
  intro rest left available
  have loaded := loadBytes_front front rest left .ok
  rw [mpackReadBytes, bind_of_ok (getState_apply _)]
  simp only [Nat.not_lt.mpr available, if_false]
  rw [bind_of_ok loaded, bind_of_ok advance_front]
  rfl

end MouseHero
