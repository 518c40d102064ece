import MouseHero.Input.Keymap
import MouseHero.Library.FirstWins

/-!
# The reverse keymap

`xkb_mapper.c`: a cache from characters to keys with modifiers, which is built
from the keymap of the machine and searched for UTF-8 texts.  The keymap itself
belongs to libxkbcommon.
-/

namespace MouseHero

/-! ## Keymaps -/

/-- `XKB_KEYCODE_MAX`. -/
def XKB_KEYCODE_MAX : Nat := 2 ^ 32 - 2

/-- `XKB_KEY_NoSymbol`. -/
def XKB_KEY_NoSymbol : UInt32 := 0

/-- What `build_cache` asks of libxkbcommon.  `keyGetOneSym` is the answer for
a mask of modifiers. -/
structure XkbKeymap where
  minKeycode : Nat
  maxKeycode : Nat
  valid : maxKeycode ≤ XKB_KEYCODE_MAX
  modGetIndex : String → Option UInt32
  keyGetOneSym : UInt32 → Nat → UInt32
  keysymToUtf32 : UInt32 → UInt32

/-- `xkb_cache_entry_t`. -/
structure XkbCacheEntry where
  codepoint : UInt32
  evdevKey : Int
  modsMask : UInt32
  deriving DecidableEq, Repr

def XKB_KEYCODE_OFFSET : Int := 8

/-- The combinations of modifiers, in order: none, Shift, Level3, both. -/
def MOD_COMBOS : List UInt32 := [0, 1, 2, 3]

def MOD_COMBO_SHIFT : UInt32 := 1

def MOD_COMBO_LEVEL3 : UInt32 := 2

/-- `cache_capacity`. -/
def cacheCapacity : Nat := 512

namespace XkbKeymap

variable (keymap : XkbKeymap)

/-- The mask of a modifier that may not exist. -/
def modMask : Option UInt32 → UInt32
  | some index => 1 <<< index
  | none => 0

/-- `mod_mask`. -/
def comboMask (mods : UInt32) : UInt32 :=
  (if mods &&& MOD_COMBO_SHIFT ≠ 0 then modMask (keymap.modGetIndex "Shift")
    else 0) |||
    if mods &&& MOD_COMBO_LEVEL3 ≠ 0 then
      modMask ((keymap.modGetIndex "ISO_Level3_Shift").or
        (keymap.modGetIndex "Mode_switch"))
    else 0

/-- The codepoint of a key with modifiers, if it has one. -/
def produced (kc : Nat) (mods : UInt32) : Option UInt32 :=
  let keysym := keymap.keyGetOneSym (keymap.comboMask mods) kc
  if keysym ≠ XKB_KEY_NoSymbol then
    let cp := keymap.keysymToUtf32 keysym
    if 0 < cp ∧ cp < 0x110000 then some cp else none
  else none

/-- `cache_mods`. -/
def cacheMods (mods : UInt32) : UInt32 :=
  (if mods &&& MOD_COMBO_SHIFT ≠ 0 then 1 else 0) |||
    if mods &&& MOD_COMBO_LEVEL3 ≠ 0 then 2 else 0

/-- The entry for a key with modifiers. -/
def entry (kc : Nat) (mods : UInt32) (cp : UInt32) : XkbCacheEntry where
  codepoint := cp
  evdevKey := (Int32.ofNat kc).toInt - XKB_KEYCODE_OFFSET
  modsMask := cacheMods mods

/-- The body of the loops. -/
def scanKey (cache : List XkbCacheEntry) (kc : Nat) (mods : UInt32) :
    List XkbCacheEntry :=
  match keymap.produced kc mods with
  | none => cache
  | some cp =>
      let found := cache.any fun entry => entry.codepoint = cp
      if found = false ∧ cache.length < cacheCapacity then
        cache ++ [entry kc mods cp]
      else cache

/-- The keycodes of the outer loop. -/
def keycodes : List Nat :=
  List.range' keymap.minKeycode (keymap.maxKeycode + 1 - keymap.minKeycode)

/-- `build_cache`, when the allocation succeeds. -/
def buildCache : List XkbCacheEntry :=
  keymap.keycodes.foldl
    (fun cache kc =>
      MOD_COMBOS.foldl (fun cache mods => keymap.scanKey cache kc mods) cache)
    []

end XkbKeymap

/-! ## Searching -/

/-- The codepoint that `xkbmap_map_utf8_to_evdev` reads; the text is followed
by zeros. -/
def utf8CodePoint (utf8 : List UInt8) : Option UInt32 :=
  let u i := utf8.getD i 0
  let bits i mask := (u i &&& mask).toUInt32
  if u 0 &&& 0x80 = 0 then
    some (u 0).toUInt32
  else if u 0 &&& 0xE0 = 0xC0 then
    some (bits 0 0x1F <<< 6 ||| bits 1 0x3F)
  else if u 0 &&& 0xF0 = 0xE0 then
    some (bits 0 0x0F <<< 12 ||| bits 1 0x3F <<< 6 ||| bits 2 0x3F)
  else if u 0 &&& 0xF8 = 0xF0 then
    some (bits 0 0x07 <<< 18 ||| bits 1 0x3F <<< 12 ||| bits 2 0x3F <<< 6 |||
      bits 3 0x3F)
  else none

/-- `g_xkb`.  Until it is initialized there is no cache. -/
structure XkbMapper where
  initialized : Bool
  cache : List XkbCacheEntry
  empty : initialized = false → cache = []

/-- `xkbmap_map_utf8_to_evdev`. -/
def XkbMapper.mapUtf8ToEvdev (mapper : XkbMapper) (utf8 : List UInt8) :
    Option (Int × UInt32) :=
  if !mapper.initialized then none
  else
    match utf8CodePoint utf8 with
    | none => none
    | some cp =>
        match mapper.cache.find? fun entry => entry.codepoint = cp with
        | some entry => some (entry.evdevKey, entry.modsMask)
        | none => none

/-- `xkbmap_init_auto`, when the keymap has been loaded. -/
def xkbmapInitAuto (keymap : XkbKeymap) : XkbMapper where
  initialized := true
  cache := keymap.buildCache
  empty := nofun

/-- The first entry for the codepoint of the text answers. -/
theorem XkbMapper.mapUtf8ToEvdev_eq (mapper : XkbMapper) {utf8 : List UInt8}
    {cp : UInt32} (decodes : utf8CodePoint utf8 = some cp) :
    mapper.mapUtf8ToEvdev utf8 =
      (mapper.cache.find? fun entry => entry.codepoint = cp).map
        fun entry => (entry.evdevKey, entry.modsMask) := by
  simp only [mapUtf8ToEvdev, decodes]
  cases started : mapper.initialized with
  | false =>
      rw [mapper.empty started]
      rfl
  | true =>
      rw [Bool.not_true, if_neg Bool.false_ne_true]
      cases mapper.cache.find? fun entry => entry.codepoint = cp with
      | none => rfl
      | some entry => rfl

/-! ## Encoding -/

/-- The UTF-8 encoding of a number, with surrogates like other numbers. -/
def utf8Bytes (value : Nat) : List UInt8 :=
  if value ≤ 0x7F then
    [.ofNat value]
  else if value ≤ 0x7FF then
    [.ofNat (value / 64 % 0x20 + 0xC0), .ofNat (value % 0x40 + 0x80)]
  else if value ≤ 0xFFFF then
    [.ofNat (value / 4096 % 0x10 + 0xE0), .ofNat (value / 64 % 0x40 + 0x80),
      .ofNat (value % 0x40 + 0x80)]
  else
    [.ofNat (value / 262144 % 0x08 + 0xF0),
      .ofNat (value / 4096 % 0x40 + 0x80), .ofNat (value / 64 % 0x40 + 0x80),
      .ofNat (value % 0x40 + 0x80)]

theorem utf8Bytes_char (char : Char) :
    utf8Bytes char.toNat = String.utf8EncodeChar char :=
  rfl

section Bytes

variable {codepoint : Int32}

theorem utf8Byte_eq {marker bits : Int32} {width high : Nat}
    (isMarker : marker.toUInt32.toNat = 2 ^ width * high)
    (small : bits.toUInt32.toNat < 2 ^ width) :
    utf8Byte marker bits =
      .ofNat (bits.toUInt32.toNat + marker.toUInt32.toNat) := by
  apply UInt8.toNat_inj.mp
  rw [isMarker, Nat.add_comm, Nat.two_pow_add_eq_or_of_lt small, ← isMarker]
  simp [utf8Byte, charOfInt32]

theorem toNat_toUInt32_eq (nonnegative : 0 ≤ codepoint.toInt) :
    (codepoint.toUInt32.toNat : Int) = codepoint.toInt := by
  have positive : 0 ≤ codepoint := by
    rw [Int32.le_iff_toInt_le]
    exact nonnegative
  rw [Int32.toNat_toUInt32_of_le positive]
  exact Int.toNat_of_nonneg nonnegative

private theorem toNat_shiftRight (nonnegative : 0 ≤ codepoint.toInt) :
    (codepoint >>> 6).toUInt32.toNat = codepoint.toUInt32.toNat / 64 ∧
      (codepoint >>> 12).toUInt32.toNat = codepoint.toUInt32.toNat / 4096 ∧
      (codepoint >>> 18).toUInt32.toNat =
        codepoint.toUInt32.toNat / 262144 := by
  have positive : codepoint.toBitVec.msb = false := by
    rw [BitVec.msb_eq_toInt]
    simpa using nonnegative
  refine ⟨?_, ?_, ?_⟩
  all_goals
    change ((_ >>> _ : Int32).toBitVec).toNat = codepoint.toBitVec.toNat / _
    rw [Int32.toBitVec_shiftRight]
    simp
    rw [BitVec.sshiftRight_eq_of_msb_false positive]
    simp [Nat.shiftRight_eq_div_pow]

private theorem toNat_lowBits (value : Int32) :
    (value &&& 0x3F).toUInt32.toNat = value.toUInt32.toNat % 64 := by
  have mask : value.toUInt32.toNat &&& (63 : Int32).toUInt32.toNat =
      value.toUInt32.toNat % 2 ^ 6 :=
    Nat.and_two_pow_sub_one_eq_mod _ 6
  simpa using mask

private theorem utf8Byte_low (value : Int32) :
    utf8Byte 0x80 (value &&& 0x3F) =
      .ofNat (value.toUInt32.toNat % 64 + 0x80) := by
  have low := toNat_lowBits value
  have byte := @utf8Byte_eq 0x80 (value &&& 0x3F) 6 2 rfl (by omega)
  rwa [low] at byte

theorem encodeCodepointToUtf8_eq (positive : 0 < codepoint.toInt)
    (small : codepoint.toInt < 0x110000) :
    encodeCodepointToUtf8 codepoint = utf8Bytes codepoint.toUInt32.toNat := by
  have value := toNat_toUInt32_eq positive.le
  obtain ⟨six, twelve, eighteen⟩ := toNat_shiftRight positive.le
  rw [encodeCodepointToUtf8, utf8Bytes]
  simp only [utf8Byte_low, six, twelve]
  rw [← value] at positive small ⊢
  by_cases one : codepoint.toUInt32.toNat ≤ 0x7F
  · rw [if_pos (by omega), if_pos one, charOfInt32, UInt8.ofNat_uInt32ToNat]
  by_cases two : codepoint.toUInt32.toNat ≤ 0x7FF
  · have lead := @utf8Byte_eq 0xC0 (codepoint >>> 6) 6 3 rfl (by omega)
    have whole : codepoint.toUInt32.toNat / 64 % 0x20 =
        codepoint.toUInt32.toNat / 64 := Nat.mod_eq_of_lt (by omega)
    rw [if_neg (by omega), if_pos (by omega), if_neg one, if_pos two, lead, six,
      whole]
    rfl
  by_cases three : codepoint.toUInt32.toNat ≤ 0xFFFF
  · have lead := @utf8Byte_eq 0xE0 (codepoint >>> 12) 5 7 rfl (by omega)
    have whole : codepoint.toUInt32.toNat / 4096 % 0x10 =
        codepoint.toUInt32.toNat / 4096 := Nat.mod_eq_of_lt (by omega)
    rw [if_neg (by omega), if_neg (by omega), if_pos (by omega), if_neg one,
      if_neg two, if_pos three, lead, twelve, whole]
    rfl
  · have lead := @utf8Byte_eq 0xF0 (codepoint >>> 18) 4 15 rfl (by omega)
    have whole : codepoint.toUInt32.toNat / 262144 % 0x08 =
        codepoint.toUInt32.toNat / 262144 := Nat.mod_eq_of_lt (by omega)
    rw [if_neg (by omega), if_neg (by omega), if_neg (by omega),
      if_pos (by omega), if_neg one, if_neg two, if_neg three, lead, eighteen,
      whole]
    rfl

end Bytes

/-! ## Decoding -/

section Decoding

theorem toNat_payload {width marker bits : Nat} (mask : UInt8)
    (isMask : mask.toNat = 2 ^ width - 1) (narrow : width ≤ 8)
    (isMarker : 2 ^ width ∣ marker) (small : bits < 2 ^ width) :
    (UInt8.ofNat (bits + marker) &&& mask).toUInt32.toNat = bits := by
  have fits : 2 ^ width ∣ 2 ^ 8 := Nat.pow_dvd_pow 2 narrow
  rw [UInt8.toNat_toUInt32, UInt8.toNat_and, isMask,
    Nat.and_two_pow_sub_one_eq_mod, UInt8.toNat_ofNat', Nat.mod_mod_of_dvd _ fits]
  obtain ⟨high, rfl⟩ := isMarker
  rw [Nat.add_mul_mod_self_left, Nat.mod_eq_of_lt small]

theorem toNat_or_shiftLeft {high low : UInt32} {width : Nat}
    (narrow : width < 32) (smallHigh : high.toNat < 2 ^ (32 - width))
    (smallLow : low.toNat < 2 ^ width) :
    (high <<< UInt32.ofNat width ||| low).toNat =
      high.toNat * 2 ^ width + low.toNat := by
  have whole : high.toNat * 2 ^ width < 2 ^ 32 := by
    have bound := Nat.mul_lt_mul_of_pos_right smallHigh (Nat.two_pow_pos width)
    rwa [← Nat.pow_add, Nat.sub_add_cancel narrow.le] at bound
  have count : (UInt32.ofNat width).toNat % 32 = width := by
    have small : width < 2 ^ 32 := by omega
    rw [UInt32.toNat_ofNat', Nat.mod_eq_of_lt small, Nat.mod_eq_of_lt narrow]
  rw [UInt32.toNat_or, UInt32.toNat_shiftLeft, count, Nat.shiftLeft_eq,
    Nat.mod_eq_of_lt whole, Nat.mul_comm, Nat.two_pow_add_eq_or_of_lt smallLow]

private theorem leadByte_tests :
    (∀ bits < 0x80, UInt8.ofNat bits &&& 0x80 = 0) ∧
      (∀ bits < 0x20, UInt8.ofNat (bits + 0xC0) &&& 0x80 ≠ 0 ∧
        UInt8.ofNat (bits + 0xC0) &&& 0xE0 = 0xC0) ∧
      (∀ bits < 0x10, UInt8.ofNat (bits + 0xE0) &&& 0x80 ≠ 0 ∧
        UInt8.ofNat (bits + 0xE0) &&& 0xE0 ≠ 0xC0 ∧
        UInt8.ofNat (bits + 0xE0) &&& 0xF0 = 0xE0) ∧
      ∀ bits < 0x08, UInt8.ofNat (bits + 0xF0) &&& 0x80 ≠ 0 ∧
        UInt8.ofNat (bits + 0xF0) &&& 0xE0 ≠ 0xC0 ∧
        UInt8.ofNat (bits + 0xF0) &&& 0xF0 ≠ 0xE0 ∧
        UInt8.ofNat (bits + 0xF0) &&& 0xF8 = 0xF0 := by
  decide +kernel

theorem toNat_continuation (value : Nat) :
    (UInt8.ofNat (value % 0x40 + 0x80) &&& 0x3F).toUInt32.toNat =
      value % 0x40 :=
  @toNat_payload 6 0x80 (value % 0x40) 0x3F rfl (by decide) (by decide)
    (Nat.mod_lt _ (by decide))

private theorem toNat_continuations (value : Nat) :
    ((UInt8.ofNat (value / 64 % 0x40 + 0x80) &&& 0x3F).toUInt32 <<< 6 |||
      (UInt8.ofNat (value % 0x40 + 0x80) &&& 0x3F).toUInt32).toNat =
        value % 4096 := by
  have lowBits := toNat_continuation value
  have middleBits := toNat_continuation (value / 64)
  have joined := @toNat_or_shiftLeft _ _ 6 (by decide)
    (by rw [middleBits]; omega) (by rw [lowBits]; omega)
  rw [middleBits, lowBits] at joined
  refine joined.trans ?_
  omega

private theorem some_eq_ofNat {code : UInt32} {value : Nat} (same : code.toNat = value) :
    some code = some (UInt32.ofNat value) := by
  rw [← same, UInt32.ofNat_toNat]

private theorem utf8CodePoint_utf8Bytes {value : Nat} (small : value < 0x110000) :
    utf8CodePoint (utf8Bytes value) = some (UInt32.ofNat value) := by
  obtain ⟨ascii, two, three, four⟩ := leadByte_tests
  have lowBits := toNat_continuation value
  have highBits := toNat_continuation (value / 4096)
  have behind := toNat_continuations value
  rw [utf8Bytes]
  split
  · rw [utf8CodePoint]
    simp only [List.getD_cons_zero]
    rw [if_pos (ascii value (by omega))]
    apply some_eq_ofNat
    rw [UInt8.toNat_toUInt32, UInt8.toNat_ofNat', Nat.mod_eq_of_lt (by omega)]
  split
  · have tests := two (value / 64 % 0x20) (Nat.mod_lt _ (by decide))
    have lead := @toNat_payload 5 0xC0 (value / 64 % 0x20) 0x1F rfl (by decide)
      (by decide) (Nat.mod_lt _ (by decide))
    rw [utf8CodePoint]
    simp only [List.getD_cons_zero, List.getD_cons_succ]
    rw [if_neg tests.1, if_pos tests.2]
    apply some_eq_ofNat
    have joined := @toNat_or_shiftLeft _ _ 6 (by decide)
      (by rw [lead]; omega) (by rw [lowBits]; omega)
    refine joined.trans ?_
    rw [lead, lowBits]
    omega
  split
  · have tests := three (value / 4096 % 0x10) (Nat.mod_lt _ (by decide))
    have lead := @toNat_payload 4 0xE0 (value / 4096 % 0x10) 0x0F rfl (by decide)
      (by decide) (Nat.mod_lt _ (by decide))
    rw [utf8CodePoint]
    simp only [List.getD_cons_zero, List.getD_cons_succ]
    rw [if_neg tests.1, if_neg tests.2.1, if_pos tests.2.2, UInt32.or_assoc]
    apply some_eq_ofNat
    have joined := @toNat_or_shiftLeft _ _ 12 (by decide)
      (by rw [lead]; omega) (by rw [behind]; omega)
    refine joined.trans ?_
    rw [lead, behind]
    omega
  · have tests := four (value / 262144 % 0x08) (Nat.mod_lt _ (by decide))
    have lead := @toNat_payload 3 0xF0 (value / 262144 % 0x08) 0x07 rfl (by decide)
      (by decide) (Nat.mod_lt _ (by decide))
    rw [utf8CodePoint]
    simp only [List.getD_cons_zero, List.getD_cons_succ]
    rw [if_neg tests.1, if_neg tests.2.1, if_neg tests.2.2.1, if_pos tests.2.2.2,
      UInt32.or_assoc, UInt32.or_assoc]
    apply some_eq_ofNat
    have further := @toNat_or_shiftLeft _ _ 12 (by decide)
      (by rw [highBits]; omega) (by rw [behind]; omega)
    rw [highBits, behind] at further
    have joined := @toNat_or_shiftLeft _ _ 18 (by decide)
      (by rw [lead]; omega) (by rw [further]; omega)
    refine joined.trans ?_
    rw [lead, further]
    omega

theorem utf8CodePoint_encodeCodepointToUtf8 {codepoint : Int32}
    (positive : 0 < codepoint.toInt) (small : codepoint.toInt < 0x110000) :
    utf8CodePoint (encodeCodepointToUtf8 codepoint) = some codepoint.toUInt32 := by
  have value := toNat_toUInt32_eq positive.le
  rw [encodeCodepointToUtf8_eq positive small, utf8CodePoint_utf8Bytes (by omega),
    UInt32.ofNat_toNat]

end Decoding

end MouseHero
