import MouseHero.Event.Malformed
import MouseHero.Server.Command
import MouseHero.Server.Session

/-!
# Containment of frames

The lengths that `conn_readcb` and `udp_readcb` hand to the parsers, compared
with what the frame in front announces and with what the buffer holds.  All of
them are words that can wrap, so the comparison is made on the numbers they
stand for.
-/

namespace MouseHero

open FaultM

variable {F : Type} [CFloat F]

/-! ## The sizes in front of a buffer -/

/-- The body size is what is left of the total size, if the header fits. -/
theorem bodySize_sum (input : List UInt8) :
    (packageSize input).headerSize.toNat +
          (packageSize input).bodySize.toNat + 4 =
        (packageSize input).totalSize.toNat ↔
      (packageSize input).headerSize.toNat + 4 ≤
        (packageSize input).totalSize.toNat := by
  have total := (wordAt input 0).toNat_lt
  have header := (wordAt input 4).toNat_lt
  simp only [packageSize, UInt32.toNat_sub, UInt32.reduceToNat]
  omega

/-- The type of the header has a body parser. -/
def YAEventHeader.HasBody (F : Type) [CFloat F] (header : YAEventHeader) :
    Prop :=
  (getParser header.type header.direction : Option (ParserFn F)).isSome

/-- The lengths used on a buffer: those of the header and the body add up to
the total, they lie inside the buffer, and a body parser gets a length that is
not negative and no more than the bytes behind the header. -/
structure Contained (F : Type) [CFloat F] (input : List UInt8) : Prop where
  sum :
    (packageSize input).headerSize.toNat +
        (packageSize input).bodySize.toNat + 4 =
      (packageSize input).totalSize.toNat
  inside :
    8 + (packageSize input).headerSize.toNat +
        (packageSize input).bodySize.toNat ≤ input.length
  body :
    ∀ header payload rest,
      bodyStage (evbufferDrain input 8) (packageSize input) =
          .ok (.body header payload rest) →
      header.HasBody F →
      0 ≤ contentLen (packageSize input) ∧
        contentLen (packageSize input) ≤ rest.length

/-- The frame in front fits: the header in the total, the total in the buffer,
and a body that is parsed in `int`. -/
structure FrameFits (F : Type) [CFloat F] (input : List UInt8) : Prop where
  header :
    (packageSize input).headerSize.toNat + 4 ≤
      (packageSize input).totalSize.toNat
  total :
    (packageSize input).totalSize.toNat + 4 ≤ input.length
  body :
    ∀ header,
      yaParseEventHeader (evbufferDrain input 8)
          (packageSize input).headerSize = .ok (some header) →
      header.HasBody F →
      (packageSize input).totalSize.toNat <
        (packageSize input).headerSize.toNat + 4 + 2 ^ 31

/-- The stage in front of a body parser has parsed the header, and the body
is what follows it. -/
theorem bodyStage_body {buf payload rest : List UInt8} {size : YAPackageSize}
    {header : YAEventHeader}
    (reached : bodyStage buf size = .ok (.body header payload rest)) :
    yaParseEventHeader buf size.headerSize = .ok (some header) ∧
      rest = evbufferDrain buf size.headerSize.toNat := by
  rw [bodyStage] at reached
  cases parsed : yaParseEventHeader buf size.headerSize with
  | error reason =>
      rw [parsed] at reached
      cases reached
  | ok found =>
      rw [parsed] at reached
      simp only [except_ok_bind] at reached
      cases found with
      | none => cases reached
      | some parsedHeader =>
          simp only at reached
          split at reached
          · cases reached
          · split at reached
            · cases reached
            · cases reached
              exact ⟨rfl, rfl⟩

/-- A negative length leads to the body parser with all that is left. -/
theorem bodyStage_of_negative {buf : List UInt8} {size : YAPackageSize}
    {header : YAEventHeader}
    (parsed : yaParseEventHeader buf size.headerSize = .ok (some header))
    (negative : contentLen size < 0)
    (nonempty : 0 < (evbufferDrain buf size.headerSize.toNat).length) :
    bodyStage buf size =
      .ok (.body header (evbufferDrain buf size.headerSize.toNat)
        (evbufferDrain buf size.headerSize.toNat)) := by
  have pulled :
      evbufferPullup (evbufferDrain buf size.headerSize.toNat)
          (contentLen size) =
        some (evbufferDrain buf size.headerSize.toNat) := by
    simp only [evbufferPullup, negative, if_true]
    rw [if_neg (by omega), List.take_of_length_le (Nat.le_refl _)]
  rw [bodyStage, parsed]
  simp only [except_ok_bind]
  rw [if_neg (by omega), pulled]
  rfl

/-- Whenever a frame is taken to have arrived, the lengths used on it are
contained if and only if the frame fits. -/
theorem contained_iff (F : Type) [CFloat F] (input : List UInt8) :
    (frameArrived input → Contained F input) ↔
      (frameArrived input → FrameFits F input) := by
  apply imp_congr_right
  intro arrived
  have sum := bodySize_sum input
  constructor
  · intro contained
    have header := sum.mp contained.sum
    have inside := contained.inside
    refine ⟨header, ?_, ?_⟩
    · have whole := contained.sum
      omega
    · intro parsedHeader parsed hasBody
      by_contra long
      have whole := contained.sum
      have large : 2 ^ 31 ≤ (packageSize input).bodySize.toNat := by
        omega
      have range := (packageSize input).bodySize.toNat_lt
      have content := contentLen_eq_of_ge large
      have nonempty :
          0 < (evbufferDrain (evbufferDrain input 8)
            (packageSize input).headerSize.toNat).length := by
        simp only [evbufferDrain, List.length_drop]
        omega
      have reached := bodyStage_of_negative parsed (by omega) nonempty
      have positive := (contained.body _ _ _ reached hasBody).1
      omega
  · intro fits
    have whole := sum.mpr fits.header
    have total := fits.total
    refine ⟨whole, by omega, ?_⟩
    intro header payload rest reached hasBody
    obtain ⟨parsed, rfl⟩ := bodyStage_body reached
    have short := fits.body header parsed hasBody
    rw [contentLen_eq_of_lt (by omega)]
    simp only [evbufferDrain, List.length_drop]
    omega

/-- A total size that wraps in front of a click with one byte of body. -/
def wrappedFrame : List UInt8 :=
  [0xff, 0xff, 0xff, 0xff, 0, 0, 0, 5, 0x94, 1, 2, 1, 1, 0xc0]

/-- The body parser gets the length -10. -/
theorem wrappedFrame_notContained :
    frameArrived wrappedFrame = true ∧
      (∃ header payload rest,
        bodyStage (evbufferDrain wrappedFrame 8)
              (packageSize wrappedFrame) =
            .ok (.body header payload rest) ∧
          header.HasBody Rat) ∧
      contentLen (packageSize wrappedFrame) = -10 ∧
      ¬ (frameArrived wrappedFrame → Contained Rat wrappedFrame) := by
  have arrived : frameArrived wrappedFrame = true := by decide
  refine ⟨arrived, ⟨_, _, _, rfl, rfl⟩, by decide, ?_⟩
  intro contained
  have inside := (contained arrived).inside
  revert inside
  decide

/-! ## Datagrams -/

/-- The call of a body parser: the bytes behind its pointer, and its length. -/
structure ParserCall (F : Type) where
  header : YAEventHeader
  parser : ParserFn F
  payload : List UInt8
  len : Nat

/-- The call of a body parser that `udp_readcb` reaches, if it reaches one. -/
def udpParserCall (F : Type) [CFloat F] (datagram : List UInt8) :
    Option (ParserCall F) :=
  let input := datagram.take 2048
  let size := packageSize input
  if UInt32.ofNat input.length ≠ size.totalSize + 4 then
    none
  else
    match bodyStage (evbufferDrain input 8) size with
    | .ok (.body header payload _) =>
        (getParser header.type header.direction).map fun parser =>
          { header, parser, payload, len := sizeOfInt (contentLen size) }
    | _ => none

theorem yaParseEventHeader_inside {buf : List UInt8} {length : UInt32}
    {header : YAEventHeader}
    (parsed : yaParseEventHeader buf length = .ok (some header)) :
    0 < length.toNat ∧ length.toNat ≤ buf.length := by
  unfold yaParseEventHeader at parsed
  split at parsed
  · cases parsed
  rename_i enough
  refine ⟨?_, by omega⟩
  by_contra zero
  have none : length.toNat = 0 := by omega
  rw [none] at parsed
  cases parsed

/-- The payload of a positive length is the front of the buffer. -/
theorem bodyStage_payload {buf payload rest : List UInt8}
    {size : YAPackageSize} {header : YAEventHeader}
    (reached : bodyStage buf size = .ok (.body header payload rest)) :
    contentLen size ≠ 0 ∧
      evbufferPullup rest (contentLen size) = some payload := by
  obtain ⟨parsed, rfl⟩ := bodyStage_body reached
  rw [bodyStage, parsed] at reached
  simp only [except_ok_bind] at reached
  split at reached
  · cases reached
  rename_i nonzero
  refine ⟨nonzero, ?_⟩
  split at reached
  · cases reached
  · rename_i pulled
    cases reached
    exact pulled

/-- The length that a body parser gets from `udp_readcb` is positive, and the
bytes are those of the datagram behind the prefix and the header. -/
theorem udpParserCall_length {datagram : List UInt8} {call : ParserCall F}
    (reached : udpParserCall F datagram = some call) :
    0 < call.len ∧
      call.payload =
        (datagram.take 2048).drop
          (8 + (packageSize (datagram.take 2048)).headerSize.toNat) ∧
      call.len = call.payload.length := by
  simp only [udpParserCall] at reached
  split at reached
  · cases reached
  rename_i passed
  have received : (datagram.take 2048).length ≤ 2048 := List.length_take_le _ _
  generalize datagram.take 2048 = input at *
  split at reached
  · rename_i header payload rest stage
    obtain ⟨parser, -, rfl⟩ := Option.map_eq_some_iff.mp reached
    obtain ⟨parsed, rfl⟩ := bodyStage_body stage
    obtain ⟨nonzero, pulled⟩ := bodyStage_payload stage
    obtain ⟨headerPositive, headerInside⟩ := yaParseEventHeader_inside parsed
    -- The header lies behind the prefix, so that the total does not wrap.
    have total :
        (packageSize input).totalSize.toNat + 4 = input.length := by
      have same := congrArg UInt32.toNat (not_not.mp passed)
      have bound := (packageSize input).totalSize.toNat_lt
      simp only [UInt32.toNat_ofNat', UInt32.toNat_add,
        UInt32.reduceToNat] at same
      simp only [evbufferDrain, List.length_drop] at headerInside
      omega
    simp only [evbufferDrain, List.length_drop] at headerInside
    simp only [evbufferDrain, List.drop_drop] at pulled
    have sum := (bodySize_sum input).mpr (by omega)
    have content :
        contentLen (packageSize input) =
          (packageSize input).bodySize.toNat :=
      contentLen_eq_of_lt (by omega)
    have remaining :
        (input.drop (8 + (packageSize input).headerSize.toNat)).length =
          (packageSize input).bodySize.toNat := by
      rw [List.length_drop]
      omega
    have positive : 0 < (packageSize input).bodySize.toNat := by omega
    rw [content, evbufferPullup_of_pos positive (by omega),
      List.take_of_length_le (by omega)] at pulled
    cases pulled
    have isLength :
        sizeOfInt (contentLen (packageSize input)) =
          (packageSize input).bodySize.toNat := by
      rw [content, sizeOfInt_of_nonneg (by omega) (by omega)]
      simp
    refine ⟨?_, rfl, ?_⟩
    · simp only [isLength]
      exact positive
    · simp only [isLength]
      exact remaining.symm
  · cases reached

/-- A datagram with a click. -/
def clickDatagram : List UInt8 :=
  [0, 0, 0, 12, 0, 0, 0, 5, 0x94, 1, 2, 1, 1, 0x92, 0, 2]

theorem udpParserCall_length_click :
    ∃ call : ParserCall Rat,
      udpParserCall Rat clickDatagram = some call ∧
        0 < call.len ∧ call.payload = [0x92, 0, 2] ∧
        call.len = call.payload.length := by
  have reached :
      udpParserCall Rat clickDatagram =
        some {
          header := clickHeader
          parser := parseCommonRequest
          payload := [0x92, 0, 2]
          len := 3 } := by
    rfl
  exact ⟨_, reached, udpParserCall_length reached⟩

end MouseHero
