import MouseHero.Input.Devices

/-!
# Key codes and characters

`keycode_map.c`, which knows the keys of the protocol, and `mapper.c`, which
looks up the characters in the keyboard layout.
-/

namespace MouseHero

/-! ## Keys of the protocol -/

/-- The codes that `map_ya_to_ckey` lists one by one. -/
def yaKeyCodes : List (Int32 × CKey) :=
  [(0xE000, .function),
    (0xE200, .shift), (0xE201, .control), (0xE202, .alt), (0xE203, .metaKey),
    (0xE204, .apps), (0xE210, .lShift), (0xE211, .rShift), (0xE212, .lControl),
    (0xE213, .rControl), (0xE214, .lMenu), (0xE215, .rMenu),
    (0xE220, .backspace), (0xE221, .tab), (0xE222, .returnKey),
    (0xE223, .escape), (0xE224, .insert), (0xE225, .delete),
    (0xE230, .home), (0xE231, .endKey), (0xE232, .pageUp), (0xE233, .pageDown),
    (0xE234, .leftArrow), (0xE235, .upArrow), (0xE236, .rightArrow),
    (0xE237, .downArrow),
    (0xE240, .capsLock), (0xE241, .numlock), (0xE242, .scrollLock),
    (0xE243, .printScr), (0xE244, .pause),
    (0xE40A, .multiply), (0xE40B, .add), (0xE40C, .separator),
    (0xE40D, .subtract), (0xE40E, .decimal), (0xE40F, .divide),
    (0xE260, .browserBack), (0xE261, .browserForward),
    (0xE262, .browserRefresh), (0xE263, .browserStop),
    (0xE264, .browserSearch), (0xE265, .browserFavorites),
    (0xE266, .browserHome),
    (0xE270, .mediaNextTrack), (0xE271, .mediaPrevTrack), (0xE272, .mediaStop),
    (0xE273, .mediaPlayPause), (0xE274, .volumeMute), (0xE275, .volumeDown),
    (0xE276, .volumeUp),
    (0xE280, .launchMail), (0xE281, .launchMediaSelect), (0xE282, .launchApp1),
    (0xE283, .launchApp2)]

/-- `ckey_from_protocol`. -/
def ckeyFromProtocol (code : Int32) : Option CKey :=
  match yaKeyCodes.lookup code with
  | some key => some key
  | none =>
      -- the two consecutive ranges
      if functionKey : 0xE300 ≤ code.toInt ∧ code.toInt ≤ 0xE317 then
        some (.f ⟨(code.toInt - 0xE300).toNat, by omega⟩)
      else if digit : 0xE400 ≤ code.toInt ∧ code.toInt ≤ 0xE409 then
        some (.numpad ⟨(code.toInt - 0xE400).toNat, by omega⟩)
      else none

/-! ## Characters -/

/-- The cast of an `int32_t` to `char`. -/
def charOfInt32 (value : Int32) : UInt8 :=
  value.toUInt32.toUInt8

/-- A byte of an encoding: the marker and the bits behind it. -/
def utf8Byte (marker bits : Int32) : UInt8 :=
  charOfInt32 (marker ||| bits)

/-- `encode_codepoint_to_utf8` into a zeroed buffer, read as a string. -/
def encodeCodepointToUtf8 (codepoint : Int32) : List UInt8 :=
  if 0 < codepoint.toInt ∧ codepoint.toInt < 0x80 then
    [charOfInt32 codepoint]
  else if codepoint.toInt < 0x800 then
    [utf8Byte 0xC0 (codepoint >>> 6), utf8Byte 0x80 (codepoint &&& 0x3F)]
  else if codepoint.toInt < 0x10000 then
    [utf8Byte 0xE0 (codepoint >>> 12),
      utf8Byte 0x80 (codepoint >>> 6 &&& 0x3F),
      utf8Byte 0x80 (codepoint &&& 0x3F)]
  else if codepoint.toInt < 0x110000 then
    [utf8Byte 0xF0 (codepoint >>> 18),
      utf8Byte 0x80 (codepoint >>> 12 &&& 0x3F),
      utf8Byte 0x80 (codepoint >>> 6 &&& 0x3F),
      utf8Byte 0x80 (codepoint &&& 0x3F)]
  else
    []

/-- `map_char_to_evdev_linux`: the key and its modifiers.  The source repeats the
encoder in it. -/
def mapCharToEvdevLinux (platform : Platform) (codepoint : Int32) :
    Except YAError (Int × UInt32) :=
  let utf8 := encodeCodepointToUtf8 codepoint
  if utf8 = [] then
    .error .invalidInput
  else
    match platform.xkbKeymap utf8 with
    | some mapped => .ok mapped
    | none => .error .notFound

private theorem utf8Byte_ne_zero {marker : Int32} (bits : Int32)
    (high : marker.toBitVec[7] = true) :
    utf8Byte marker bits ≠ 0 := by
  intro zero
  have bit := congrArg (fun byte => byte.toBitVec.getLsbD 7) zero
  simp [utf8Byte, charOfInt32, high] at bit

private theorem charOfInt32_ne_zero {codepoint : Int32}
    (positive : 0 < codepoint.toInt) (ascii : codepoint.toInt < 0x80) :
    charOfInt32 codepoint ≠ 0 := by
  intro zero
  have value := congrArg UInt8.toNat zero
  have nonnegative : 0 ≤ codepoint := by
    rw [Int32.le_iff_toInt_le]
    exact positive.le
  rw [charOfInt32, UInt32.toNat_toUInt8,
    Int32.toNat_toUInt32_of_le nonnegative, ← Int32.toNat_toInt] at value
  change _ = 0 at value
  omega

theorem cString_encodeCodepointToUtf8 {codepoint : Int32}
    (small : codepoint.toInt < 0x110000) :
    cString (encodeCodepointToUtf8 codepoint) ≠ [] := by
  have starts {first : UInt8} {rest : List UInt8} (nonzero : first ≠ 0) :
      cString (first :: rest) ≠ [] := by
    simp [cString, nonzero]
  unfold encodeCodepointToUtf8
  split
  · rename_i ascii
    exact starts (charOfInt32_ne_zero ascii.1 ascii.2)
  · split
    · exact starts (utf8Byte_ne_zero _ rfl)
    · split <;> exact starts (utf8Byte_ne_zero _ rfl)

end MouseHero
