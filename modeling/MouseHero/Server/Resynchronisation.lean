import MouseHero.Server.Containment
import MouseHero.Server.Reassembly

/-!
# Frames that are refused

What a call of `conn_readcb` leaves of a buffer with a complete frame in
front.  The prefix, the header and the body are removed one after the other, so
that a frame whose header is refused loses only its prefix.
-/

namespace MouseHero

open FaultM

variable {F : Type} [CFloat F]

/-! ## A frame in front -/

/-- The frame is complete and its sizes are consistent. -/
structure FrameInFront (frame rest : List UInt8) : Prop where
  consistent :
    (packageSize (frame ++ rest)).headerSize.toNat + 4 ≤
      (packageSize (frame ++ rest)).totalSize.toNat
  complete :
    frame.length =
      (packageSize (frame ++ rest)).totalSize.toNat + 4

/-- The header of the frame is accepted. -/
def HeaderAccepted (frame rest : List UInt8) : Prop :=
  ∃ header,
    yaParseEventHeader (evbufferDrain frame 8)
        (packageSize (frame ++ rest)).headerSize = .ok (some header)

/-- A call removes the frame: it is tested as arrived, and it is nothing but a
prefix, or its header is accepted and its body has an `int` length, unless
nothing follows. -/
def FrameRemoved (frame rest : List UInt8) : Prop :=
  frameArrived (frame ++ rest) = true ∧
    (frame.length = 8 ∨
      HeaderAccepted frame rest ∧
        ((packageSize (frame ++ rest)).bodySize.toNat < 2 ^ 31 ∨
          rest = []))

theorem yaParseEventHeader_front {front : List UInt8} {length : UInt32}
    (inside : length.toNat ≤ front.length) (rest : List UInt8) :
    yaParseEventHeader (front ++ rest) length =
      yaParseEventHeader front length := by
  have enough : ¬ (front ++ rest).length < length.toNat := by
    rw [List.length_append]
    omega
  have same :
      evbufferPullup (front ++ rest) length.toNat =
        evbufferPullup front length.toNat := by
    by_cases zero : length.toNat = 0
    · rw [zero]
      rfl
    · rw [evbufferPullup_of_pos (by omega) (by omega),
        evbufferPullup_of_pos (by omega) inside,
        List.take_append_of_le_length inside]
  rw [yaParseEventHeader, yaParseEventHeader, if_neg enough,
    if_neg (by omega), same]

theorem append_eq_right_iff {front rest : List UInt8} :
    front ++ rest = rest ↔ front.length = 0 := by
  rw [List.append_left_eq_self, List.length_eq_zero_iff]

/-- Nothing is left of a frame in front, whose parts are all removed, and
nothing is missing, unless the length of the body is negative. -/
theorem drop_sizeOfInt_eq_iff {size : YAPackageSize} {body rest : List UInt8}
    (whole : body.length = size.bodySize.toNat) :
    evbufferDrain (body ++ rest) (sizeOfInt (contentLen size)) = rest ↔
      size.bodySize.toNat < 2 ^ 31 ∨ rest = [] := by
  have range := size.bodySize.toNat_lt
  by_cases small : size.bodySize.toNat < 2 ^ 31
  · have exactly :
        sizeOfInt (contentLen size) = body.length := by
      rw [contentLen_eq_of_lt small, sizeOfInt_of_nonneg (by omega) (by omega),
        whole]
      simp
    rw [exactly, evbufferDrain_append]
    exact iff_of_true rfl (Or.inl small)
  · have beyond :
        sizeOfInt (contentLen size) = body.length + (2 ^ 64 - 2 ^ 32) := by
      rw [contentLen_eq_of_ge (by omega), sizeOfInt, whole]
      omega
    rw [evbufferDrain, beyond, ← List.drop_drop, List.drop_left]
    constructor
    · intro same
      have lengths := congrArg List.length same
      rw [List.length_drop] at lengths
      exact Or.inr (List.eq_nil_of_length_eq_zero (by omega))
    · rintro (isSmall | rfl)
      · exact absurd isSmall small
      · rfl

/-- What `ya_parse_event` leaves behind a header that it accepts. -/
theorem yaParseEvent_leavesBody {buf body rest : List UInt8} {event : YAEvent F}
    {header : YAEventHeader} {parsed : ParsedEvent F} {size : YAPackageSize}
    (isHeader : yaParseEventHeader buf size.headerSize = .ok (some header))
    (behind : evbufferDrain buf size.headerSize.toNat = body ++ rest)
    (whole : body.length = size.bodySize.toNat)
    (returned : yaParseEvent buf event size = .ok parsed) :
    parsed.buf = rest ↔ size.bodySize.toNat < 2 ^ 31 ∨ rest = [] := by
  rw [yaParseEvent, bodyStage, isHeader] at returned
  simp only [except_ok_bind, behind] at returned
  by_cases noBody : contentLen size = 0
  · have empty := contentLen_eq_zero_iff.mp noBody
    simp only [noBody, if_true, except_pure, except_ok_bind,
      Except.ok.injEq] at returned
    cases returned
    rw [append_eq_right_iff]
    omega
  · have someBody : size.bodySize.toNat ≠ 0 :=
      fun empty => noBody (contentLen_eq_zero_iff.mpr empty)
    obtain ⟨front, pulled, -⟩ := evbufferPullup_body rest whole.symm (by omega)
    simp only [noBody, if_false, pulled, except_pure, except_ok_bind] at returned
    cases called : callParser (F := F) header (body ++ front)
        (sizeOfInt (contentLen size)) with
    | error reason =>
        rw [called] at returned
        cases returned
    | ok result =>
        have accepted := callParser_status called
        rw [called] at returned
        simp only [except_ok_bind, accepted, lt_irrefl, if_false,
          Except.ok.injEq] at returned
        cases returned
        exact drop_sizeOfInt_eq_iff whole

/-- What `ya_parse_event` leaves of a frame in front. -/
theorem yaParseEvent_leaves {frame rest : List UInt8} {event : YAEvent F}
    {parsed : ParsedEvent F} (inFront : FrameInFront frame rest)
    (returned :
      yaParseEvent (evbufferDrain (frame ++ rest) 8) event
          (packageSize (frame ++ rest)) =
        .ok parsed) :
    parsed.buf = rest ↔
      frame.length = 8 ∨
        HeaderAccepted frame rest ∧
          ((packageSize (frame ++ rest)).bodySize.toNat < 2 ^ 31 ∨
            rest = []) := by
  have sum := (bodySize_sum (frame ++ rest)).mpr inFront.consistent
  have complete := inFront.complete
  rw [HeaderAccepted]
  generalize packageSize (frame ++ rest) = size at *
  have drained : evbufferDrain (frame ++ rest) 8 = frame.drop 8 ++ rest := by
    rw [evbufferDrain, List.drop_append_of_le_length (by omega)]
  have behindPrefix : (frame.drop 8).length = frame.length - 8 :=
    List.length_drop
  have headerInside : size.headerSize.toNat ≤ (frame.drop 8).length := by omega
  have sameHeader := yaParseEventHeader_front headerInside rest
  rw [drained] at returned
  change _ ↔ _ ∨ (∃ header,
    yaParseEventHeader (frame.drop 8) size.headerSize = .ok (some header)) ∧ _
  cases parsedHeader : yaParseEventHeader (frame.drop 8) size.headerSize with
  | error reason =>
      rw [yaParseEvent, bodyStage, sameHeader, parsedHeader] at returned
      cases returned
  | ok found =>
      cases found with
      | none =>
          rw [yaParseEvent, bodyStage, sameHeader, parsedHeader] at returned
          cases returned
          simp only [reduceCtorEq, Except.ok.injEq, exists_false, false_and,
            or_false, append_eq_right_iff]
          omega
      | some header =>
          obtain ⟨positive, -⟩ := yaParseEventHeader_inside parsedHeader
          have notBare : frame.length ≠ 8 := by omega
          have bodyLeft :
              evbufferDrain (frame.drop 8 ++ rest) size.headerSize.toNat =
                (frame.drop 8).drop size.headerSize.toNat ++ rest := by
            rw [evbufferDrain, List.drop_append_of_le_length headerInside]
          have bodyLength :
              ((frame.drop 8).drop size.headerSize.toNat).length =
                size.bodySize.toNat := by
            rw [List.length_drop]
            omega
          simp only [notBare, false_or, Except.ok.injEq, Option.some.injEq,
            exists_eq', true_and]
          exact yaParseEvent_leavesBody (sameHeader.trans parsedHeader) bodyLeft
            bodyLength returned

private theorem readFrame_leaves {frame rest left : List UInt8}
    {handed : List (YAEvent F)} (inFront : FrameInFront frame rest)
    (read : readFrame (frame ++ rest) = .ok (left, handed)) :
    left = rest ↔ FrameRemoved frame rest := by
  rw [FrameRemoved]
  cases arrived : frameArrived (frame ++ rest) with
  | false =>
      rw [readFrame, arrived] at read
      cases read
      have complete := inFront.complete
      rw [append_eq_right_iff]
      simp only [Bool.false_eq_true, false_and, iff_false]
      omega
  | true =>
      rw [readFrame, arrived] at read
      simp only [if_true] at read
      split at read
      · cases read
      · rename_i parsed returned
        have leaves := yaParseEvent_leaves inFront returned
        split at read <;> cases read <;> simpa only [true_and] using leaves

/-! ## After a call -/

/-- The connection is at the boundary behind the frame, or it is closed. -/
def World.Resynchronised (world : World F) (bev : BevId) (rest : List UInt8) :
    Prop :=
  ∀ contents, world.bevs bev = some contents → contents.input = rest

/-- A call of `conn_readcb` on a buffer with a complete frame in front leaves
what follows the frame if and only if it removes the frame. -/
theorem connReadcb_resynchronised_iff {world after : World F} {bev : BevId}
    {client : ClientId} {frame rest : List UInt8}
    (reads : world.Reads bev client (frame ++ rest))
    (inFront : FrameInFront frame rest)
    (returned : connReadcb bev (some client) world = (.ok (), after)) :
    after.Resynchronised bev rest ↔ FrameRemoved frame rest := by
  obtain ⟨left, handed, read, readsLeft, -⟩ :=
    connReadcb_readFrame reads returned
  rw [← readFrame_leaves inFront read]
  obtain ⟨contents, stored, isLeft⟩ :=
    Option.map_eq_some_iff.mp readsLeft.buffer
  constructor
  · intro resynchronised
    rw [← isLeft]
    exact resynchronised contents stored
  · rintro rfl other isOther
    rw [stored] at isOther
    cases isOther
    exact isLeft

/-- A frame whose header is nil. -/
def nilFrame : List UInt8 :=
  [0, 0, 0, 5, 0, 0, 0, 1, 0xc0]

/-- A heartbeat behind a prefix without a header. -/
theorem connReadcb_resynchronised_iff_bare :
    ∃ after,
      connReadcb 16 (some 8)
          (World.connected.arrive 16
            ([0, 0, 0, 4, 0, 0, 0, 0] ++ heartbeatFrame.bytes)) =
        (.ok (), after) ∧
        (after.Resynchronised 16 heartbeatFrame.bytes ↔
          FrameRemoved [0, 0, 0, 4, 0, 0, 0, 0] heartbeatFrame.bytes) := by
  have reads :=
    connected_reads.arrive ([0, 0, 0, 4, 0, 0, 0, 0] ++ heartbeatFrame.bytes)
  have inFront :
      FrameInFront [0, 0, 0, 4, 0, 0, 0, 0] heartbeatFrame.bytes :=
    ⟨by decide, by decide⟩
  exact ⟨_, rfl, connReadcb_resynchronised_iff reads inFront rfl⟩

/-- Behind a frame whose header is nil the stream is read from the middle of
the frame. -/
theorem nilFrame_desynchronises :
    FrameInFront nilFrame heartbeatFrame.bytes ∧
      ¬ HeaderAccepted nilFrame heartbeatFrame.bytes ∧
      ∃ after,
        connReadcb 16 (some 8)
            (World.connected.arrive 16 (nilFrame ++ heartbeatFrame.bytes)) =
          (.ok (), after) ∧
          (after.bevs 16).map Bufferevent.input =
            some (0xc0 :: heartbeatFrame.bytes) ∧
          ¬ after.Resynchronised 16 heartbeatFrame.bytes := by
  refine ⟨⟨by decide, by decide⟩, ?_, _, rfl, rfl, ?_⟩
  · rintro ⟨header, accepted⟩
    have refused :
        yaParseEventHeader (evbufferDrain nilFrame 8)
            (packageSize (nilFrame ++ heartbeatFrame.bytes)).headerSize =
          .ok none := by
      rfl
    rw [refused] at accepted
    cases accepted
  · intro resynchronised
    have same := resynchronised _ rfl
    have lengths := congrArg List.length same
    revert lengths
    decide

end MouseHero
