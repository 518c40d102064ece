import MouseHero.Input.Keyboard
import MouseHero.Input.XkbMapper
import MouseHero.Server.Handler

/-!
# The right character

The characters of `handle_keyboard` reach the cache of the reverse keymap
unchanged, since the decoder undoes the encoder.  What the cache does not have
is pasted, as the standard UTF-8 encoding.
-/

namespace MouseHero

open FaultM

section Characters

variable {codepoint : Int32}

private theorem range_of_isChar (isCharacter : isChar codepoint = true) :
    0x20 ≤ codepoint.toInt ∧ codepoint.toInt < 0xE000 := by
  simp only [isChar, Bool.or_eq_true, Bool.and_eq_true, decide_eq_true_eq]
    at isCharacter
  omega

private theorem exists_char (positive : 0 < codepoint.toInt)
    (below : codepoint.toInt < 0xD800) :
    ∃ char : Char, (char.toNat : Int) = codepoint.toInt ∧
      encodeCodepointToUtf8 codepoint = String.utf8EncodeChar char := by
  have value := toNat_toUInt32_eq positive.le
  have valid : Nat.isValidChar codepoint.toUInt32.toNat :=
    Or.inl (by omega)
  refine ⟨⟨codepoint.toUInt32, valid⟩, value, ?_⟩
  rw [encodeCodepointToUtf8_eq positive (by omega), ← utf8Bytes_char]
  rfl

private theorem ofNat_ne_zero {value : Nat} (positive : 0 < value) (small : value < 256) :
    (0 : UInt8) ≠ .ofNat value := by
  intro zero
  have same := congrArg UInt8.toNat zero
  rw [UInt8.toNat_ofNat', Nat.mod_eq_of_lt small] at same
  exact positive.ne same

/-- In a zeroed buffer of five bytes, the text ends where the zeros begin. -/
theorem utf8EncodeChar_terminated {char : Char} (positive : 0 < char.toNat) :
    (0 : UInt8) ∉ String.utf8EncodeChar char ∧
      (String.utf8EncodeChar char).length < 5 := by
  rw [← utf8Bytes_char, utf8Bytes]
  by_cases one : char.toNat ≤ 0x7F
  · rw [if_pos one]
    simpa using ofNat_ne_zero positive (by omega)
  have low := @ofNat_ne_zero (char.toNat % 0x40 + 0x80) (by omega) (by omega)
  have middle := @ofNat_ne_zero (char.toNat / 64 % 0x40 + 0x80) (by omega)
    (by omega)
  rw [if_neg one]
  split
  · have lead := @ofNat_ne_zero (char.toNat / 64 % 0x20 + 0xC0) (by omega)
      (by omega)
    exact ⟨by simp only [List.mem_cons, List.not_mem_nil, or_false, lead,
      low, not_false_eq_true], by simp⟩
  split
  · have lead := @ofNat_ne_zero (char.toNat / 4096 % 0x10 + 0xE0) (by omega)
      (by omega)
    exact ⟨by simp only [List.mem_cons, List.not_mem_nil, or_false, lead,
      middle, low, not_false_eq_true], by simp⟩
  · have lead := @ofNat_ne_zero (char.toNat / 262144 % 0x08 + 0xF0) (by omega)
      (by omega)
    have high := @ofNat_ne_zero (char.toNat / 4096 % 0x40 + 0x80) (by omega)
      (by omega)
    exact ⟨by simp only [List.mem_cons, List.not_mem_nil, or_false, lead,
      high, middle, low, not_false_eq_true], by simp⟩

private theorem mapCharToEvdevLinux_eq {mapper : XkbMapper} {platform : Platform}
    (loaded : platform.xkbKeymap = mapper.mapUtf8ToEvdev)
    (positive : 0 < codepoint.toInt) (small : codepoint.toInt < 0x110000) :
    mapCharToEvdevLinux platform codepoint =
      match mapper.cache.find? fun entry =>
        entry.codepoint = codepoint.toUInt32 with
      | some entry => .ok (entry.evdevKey, entry.modsMask)
      | none => .error .notFound := by
  have text : encodeCodepointToUtf8 codepoint ≠ [] := by
    intro empty
    exact cString_encodeCodepointToUtf8 small (by rw [empty]; rfl)
  have decodes := utf8CodePoint_encodeCodepointToUtf8 positive small
  rw [mapCharToEvdevLinux, if_neg text, loaded, mapper.mapUtf8ToEvdev_eq decodes]
  cases mapper.cache.find? fun entry =>
      entry.codepoint = codepoint.toUInt32 with
  | none => rfl
  | some entry => rfl

end Characters

/-- What the mapper answers for a character is the first entry for it.  Without
one the standard encoding of the character is pasted. -/
theorem mapCharToEvdevLinux_firstEntry (mapper : XkbMapper) (devices : Devices)
    (loaded : devices.platform.xkbKeymap = mapper.mapUtf8ToEvdev)
    (codepoint : Int32) (isCharacter : isChar codepoint = true)
    (noSurrogate : ¬ (0xD800 ≤ codepoint.toInt ∧ codepoint.toInt ≤ 0xDFFF)) :
    match mapper.cache.find? fun entry => entry.codepoint = codepoint.toUInt32 with
    | some entry =>
        mapCharToEvdevLinux devices.platform codepoint =
          .ok (entry.evdevKey, entry.modsMask)
    | none =>
        mapCharToEvdevLinux devices.platform codepoint = .error .notFound ∧
          ∃ char : Char, (char.toNat : Int) = codepoint.toInt ∧
            (0 : UInt8) ∉ String.utf8EncodeChar char ∧
            (String.utf8EncodeChar char).length < 5 ∧
            ∀ userMods direction,
              inputCharLinuxUnified codepoint userMods direction devices =
                clipboardPasteText (some (String.utf8EncodeChar char)) devices := by
  obtain ⟨least, most⟩ := range_of_isChar isCharacter
  have mapped :=
    mapCharToEvdevLinux_eq loaded (least.trans_lt' (by decide)) (by omega)
  cases found : mapper.cache.find? fun entry =>
      entry.codepoint = codepoint.toUInt32 with
  | some entry =>
      rw [found] at mapped
      exact mapped
  | none =>
      rw [found] at mapped
      have below : codepoint.toInt < 0xD800 := by omega
      obtain ⟨char, value, encoded⟩ :=
        exists_char (least.trans_lt' (by decide)) below
      obtain ⟨noZero, short⟩ := @utf8EncodeChar_terminated char (by omega)
      refine ⟨mapped, char, value, noZero, short, ?_⟩
      intro userMods direction
      rw [inputCharLinuxUnified, bind_of_ok (getState_apply devices), mapped,
        encoded]

/-- A cache with the letter a only. -/
def letterMapper : XkbMapper where
  initialized := true
  cache := [⟨0x61, 30, 0⟩]
  empty := nofun

/-- A machine with this cache. -/
def letterDevices : Devices where
  platform :=
    { backendStatus := fun _ => INPUT_BACKEND_OK
      serviceStatus := fun _ => .success
      exitStatus := fun _ => 0
      clipboardText := fun _ => none
      xkbKeymap := letterMapper.mapUtf8ToEvdev }
  clipboardConfig := ⟨true, true⟩
  trace := []

theorem mapCharToEvdevLinux_letter :
    mapCharToEvdevLinux letterDevices.platform 0x61 = .ok (30, 0) ∧
      mapCharToEvdevLinux letterDevices.platform 0xE9 = .error .notFound :=
  ⟨mapCharToEvdevLinux_firstEntry letterMapper letterDevices rfl 0x61
      (by decide) (by decide),
    (mapCharToEvdevLinux_firstEntry letterMapper letterDevices rfl 0xE9
      (by decide) (by decide)).1⟩

end MouseHero
