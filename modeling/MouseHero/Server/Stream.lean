import MouseHero.Event.Received
import MouseHero.Library.GreedyMatching
import MouseHero.Server.Session

/-!
# Reading a stream of frames

What `conn_readcb` does to an input buffer, as a function of the bytes alone:
a call reads at most one frame.  A stream that arrives in chunks is read by
one call for each chunk, so that a frame needs a call to itself, at a time
when it is complete.
-/

namespace MouseHero

open FaultM BigEndian GreedyMatching

variable {F : Type} [CFloat F]

/-! ## The reader -/

/-- One call on an input buffer: what it leaves, and the events that it hands
over. -/
def readFrame (input : List UInt8) :
    Except Fault (List UInt8 × List (YAEvent F)) :=
  if frameArrived input then
    match yaParseEvent (evbufferDrain input 8) YAEvent.zero
        (packageSize input) with
    | .error reason => .error reason
    | .ok parsed =>
        if parsed.status < 0 then .ok (parsed.buf, [])
        else .ok (parsed.buf, [parsed.event])
  else
    .ok (input, [])

/-- A call for each chunk that arrives. -/
def readStream :
    List UInt8 → List (List UInt8) →
      Except Fault (List UInt8 × List (YAEvent F))
  | buffer, [] => .ok (buffer, [])
  | buffer, chunk :: chunks => do
      let (rest, handed) ← readFrame (buffer ++ chunk)
      let (final, later) ← readStream rest chunks
      return (final, handed ++ later)

theorem readStream_cons {buffer chunk rest : List UInt8}
    {handed : List (YAEvent F)} (chunks : List (List UInt8))
    (read : readFrame (buffer ++ chunk) = .ok (rest, handed)) :
    readStream buffer (chunk :: chunks) =
      (readStream rest chunks).map fun result =>
        (result.1, handed ++ result.2) := by
  rw [readStream, read]
  simp only [except_ok_bind]
  cases (readStream rest chunks : Except Fault (List UInt8 × List (YAEvent F))) with
  | error reason => rfl
  | ok result => rfl

theorem readStream_cons_eq_ok {buffer chunk middle rest : List UInt8}
    {first handed : List (YAEvent F)} {chunks : List (List UInt8)}
    (readFirst : readFrame (buffer ++ chunk) = .ok (middle, first))
    (read : readStream buffer (chunk :: chunks) = .ok (rest, handed)) :
    ∃ later,
      readStream middle chunks = .ok (rest, later) ∧
        handed = first ++ later := by
  rw [readStream_cons chunks readFirst] at read
  cases reads :
      (readStream middle chunks :
        Except Fault (List UInt8 × List (YAEvent F))) with
  | error reason =>
      rw [reads] at read
      cases read
  | ok result =>
      rw [reads] at read
      cases read
      exact ⟨result.2, rfl, rfl⟩

/-! ## Sizes in front of a buffer -/

private theorem ofBytes_replicate_zero (count : Nat) :
    ofBytes (List.replicate count 0) = 0 := by
  induction count with
  | zero => rfl
  | succ count inductionHypothesis =>
      rw [List.replicate_succ, ofBytes, inductionHypothesis]
      simp

/-- The word in front depends on the first four bytes only. -/
theorem wordAt_append {front : List UInt8} (whole : 4 ≤ front.length)
    (rest : List UInt8) :
    wordAt (front ++ rest) 0 = wordAt front 0 := by
  simp only [wordAt, evbufferCopyout32, List.drop_zero,
    List.take_append_of_le_length whole]

/-- The bytes that are missing from a word count as zero. -/
theorem wordAt_of_short {buffer : List UInt8} (short : buffer.length < 4) :
    (wordAt buffer 0).toNat + 4 < 2 ^ 32 := by
  have taken : (buffer.drop 0).take 4 = buffer := by
    rw [List.drop_zero, List.take_of_length_le (by omega)]
  have bound := ofBytes_lt buffer
  simp only [wordAt, evbufferCopyout32, taken, ofBytes_append,
    ofBytes_replicate_zero, List.length_replicate, UInt32.toNat_ofNat']
  obtain empty | one | two | three :
      buffer.length = 0 ∨ buffer.length = 1 ∨ buffer.length = 2 ∨
        buffer.length = 3 := by omega
  · rw [empty] at bound ⊢
    omega
  · rw [one] at bound ⊢
    omega
  · rw [two] at bound ⊢
    omega
  · rw [three] at bound ⊢
    omega

theorem toNat_add_four {word : UInt32} (bound : word.toNat + 4 < 2 ^ 32) :
    (word + 4).toNat = word.toNat + 4 := by
  simp only [UInt32.toNat_add, UInt32.reduceToNat]
  omega

theorem frameArrived_eq_false {input : List UInt8}
    (total : (packageSize input).totalSize.toNat + 4 < 2 ^ 32)
    (early :
      input.length % 2 ^ 32 < (packageSize input).totalSize.toNat + 4) :
    frameArrived input = false := by
  have below :
      UInt32.ofNat input.length < (packageSize input).totalSize + 4 := by
    rw [UInt32.lt_iff_toNat_lt, toNat_add_four total, UInt32.toNat_ofNat']
    exact early
  simp [frameArrived, below]

theorem frameArrived_eq_true {input : List UInt8}
    (total : (packageSize input).totalSize.toNat + 4 < 2 ^ 32)
    (complete :
      (packageSize input).totalSize.toNat + 4 ≤ input.length % 2 ^ 32) :
    frameArrived input = true := by
  have enough :
      ¬ UInt32.ofNat input.length < (packageSize input).totalSize + 4 := by
    rw [UInt32.lt_iff_toNat_lt, toNat_add_four total, UInt32.toNat_ofNat']
    omega
  simp [frameArrived, enough]

theorem frameArrived_of_short {input : List UInt8} (short : input.length < 4) :
    frameArrived input = false := by
  apply frameArrived_eq_false (wordAt_of_short short)
  have small : input.length % 2 ^ 32 = input.length := by omega
  omega

theorem four_le_of_frameArrived {input : List UInt8}
    (arrived : frameArrived input = true) : 4 ≤ input.length := by
  by_contra short
  rw [frameArrived_of_short (by omega)] at arrived
  cases arrived

theorem readFrame_of_short {input : List UInt8} (short : input.length < 4) :
    readFrame (F := F) input = .ok (input, []) := by
  simp [readFrame, frameArrived_of_short short]

/-! ## A frame in front -/

namespace SentFrame

variable (frame : SentFrame F)

theorem totalSize_eq (rest : List UInt8) :
    (packageSize (frame.bytes ++ rest)).totalSize.toNat + 4 =
      frame.bytes.length := by
  obtain ⟨body, bytes, short, -⟩ := frame.exists_body
  rw [bytes, length_frameBytes] at short
  rw [bytes, packageSize_frame, length_frameBytes]
  simp only [frameSize, UInt32.toNat_ofNat']
  omega

theorem length_lt : frame.bytes.length < 2 ^ 31 := by
  obtain ⟨body, -, short, -⟩ := frame.exists_body
  exact short

/-- A frame in front is read when its length, up to the wrap of the length of
the buffer, is there. -/
theorem frameArrived_iff (rest : List UInt8) :
    frameArrived (frame.bytes ++ rest) = true ↔
      frame.bytes.length ≤ (frame.bytes ++ rest).length % 2 ^ 32 := by
  have total := frame.totalSize_eq rest
  have bound := frame.length_lt
  by_cases complete :
      frame.bytes.length ≤ (frame.bytes ++ rest).length % 2 ^ 32
  · exact iff_of_true
      (frameArrived_eq_true (by omega) (by omega)) complete
  · have waits : frameArrived (frame.bytes ++ rest) = false :=
      frameArrived_eq_false (by omega) (by omega)
    exact iff_of_false (by rw [waits]; exact Bool.false_ne_true) complete

/-- The bytes of a complete frame are in front of the buffer. -/
theorem exists_rest {input later more : List UInt8}
    (stream : input ++ later = frame.bytes ++ more)
    (complete : frame.bytes.length ≤ input.length) :
    ∃ rest, input = frame.bytes ++ rest ∧ rest ++ later = more := by
  obtain ⟨rest, front, back⟩ | ⟨rest, front, back⟩ :=
    List.append_eq_append_iff.mp stream
  · have nothing : rest = [] := by
      have lengths := congrArg List.length front
      rw [List.length_append] at lengths
      exact List.length_eq_zero_iff.mp (by omega)
    refine ⟨[], ?_, ?_⟩
    · rw [front, nothing, List.append_nil, List.append_nil]
    · rw [back, nothing]
      rfl
  · exact ⟨rest, front, back.symm⟩

/-- As long as the frame is not complete, nothing is read. -/
theorem readFrame_waits {input later more : List UInt8}
    (stream : input ++ later = frame.bytes ++ more)
    (early : ¬ frame.bytes.length ≤ input.length % 2 ^ 32) :
    readFrame (F := F) input = .ok (input, []) := by
  have waits : frameArrived input = false := by
    by_cases whole : frame.bytes.length ≤ input.length
    · -- The frame is there, but the length of the buffer has wrapped.
      obtain ⟨rest, rfl, -⟩ := frame.exists_rest stream whole
      rw [← Bool.not_eq_true, frame.frameArrived_iff]
      exact early
    · -- Only a part of the frame is there.
      obtain ⟨missing, front⟩ : ∃ missing, frame.bytes = input ++ missing := by
        obtain ⟨rest, front, -⟩ | ⟨rest, front, -⟩ :=
          List.append_eq_append_iff.mp stream
        · exact ⟨rest, front⟩
        · have lengths := congrArg List.length front
          rw [List.length_append] at lengths
          omega
      have bound := frame.length_lt
      by_cases short : input.length < 4
      · apply frameArrived_eq_false (wordAt_of_short short)
        omega
      · have total := frame.totalSize_eq []
        rw [List.append_nil] at total
        have same :
            (packageSize input).totalSize =
              (packageSize frame.bytes).totalSize := by
          simp only [packageSize, front]
          exact (wordAt_append (by omega) missing).symm
        apply frameArrived_eq_false <;> rw [same] <;> omega
  simp [readFrame, waits]

/-- The frame can be read from the front of the buffer: its length, up to the
wrap of the length of the buffer, is there, and its ids can be read back. -/
structure Arrived (input rest : List UInt8) : Prop where
  representable : frame.event.header.IdsRepresentable
  stream : input = frame.bytes ++ rest
  complete : frame.bytes.length ≤ input.length % 2 ^ 32

variable {frame} in
theorem Arrived.readFrame {input rest : List UInt8}
    (arrived : frame.Arrived input rest) :
    MouseHero.readFrame input = .ok (rest, [frame.event.received]) := by
  obtain ⟨representable, rfl, complete⟩ := arrived
  rw [MouseHero.readFrame, (frame.frameArrived_iff rest).mpr complete,
    frame.yaParseEvent_eq representable]
  rfl

/-- A complete frame whose ids are not representable is refused.  Its header
is then at the front of the buffer. -/
theorem readFrame_refuses
    (outside : ¬ frame.event.header.IdsRepresentable) {rest : List UInt8}
    (complete :
      frame.bytes.length ≤ (frame.bytes ++ rest).length % 2 ^ 32) :
    ∃ behind,
      readFrame (F := F) (frame.bytes ++ rest) =
          .ok (0x94 :: behind, []) ∧
        3 ≤ behind.length ∧
        (0x94 :: behind).length + 8 = (frame.bytes ++ rest).length := by
  obtain ⟨header, body, bytes, isHeader, refused⟩ :=
    frame.yaParseEvent_refused outside rest
  obtain ⟨behind, front, long⟩ :
      ∃ behind, header = 0x94 :: behind ∧ 3 ≤ behind.length := by
    rw [isHeader]
    refine ⟨mpackWriteU32 frame.event.header.uid ++
      mpackWriteU32 frame.event.header.type ++
      mpackWriteU32 frame.event.header.direction ++
      mpackWriteU32 frame.event.header.index, rfl, ?_⟩
    have uid := (mpackWriteU32_encoding frame.event.header.uid).length_pos
    have type := (mpackWriteU32_encoding frame.event.header.type).length_pos
    have index := (mpackWriteU32_encoding frame.event.header.index).length_pos
    simp only [List.length_append]
    omega
  refine ⟨behind ++ (body ++ rest), ?_, ?_, ?_⟩
  · rw [readFrame, (frame.frameArrived_iff rest).mpr complete, refused, front]
    rfl
  · rw [List.length_append]
    omega
  · have lengths := length_frameBytes header body
    rw [← bytes, front] at lengths
    simp only [List.length_append, List.length_cons] at lengths ⊢
    omega

end SentFrame

/-! ## Streams of frames -/

/-- Where the frames of a stream begin, and how long they are. -/
def framePositions : Nat → List (SentFrame F) → List (Nat × Nat)
  | _, [] => []
  | start, frame :: frames =>
      (start, frame.bytes.length) ::
        framePositions (start + frame.bytes.length) frames

/-- How many bytes have arrived with each chunk. -/
def arrivals : Nat → List (List UInt8) → List Nat
  | _, [] => []
  | before, chunk :: chunks =>
      (before + chunk.length) :: arrivals (before + chunk.length) chunks

/-- When so many bytes have arrived and those in front of the frame have been
read, the length of the buffer, a 32-bit word, is at least that of the
frame. -/
def complete (position : Nat × Nat) (arrived : Nat) : Bool :=
  position.2 ≤ (arrived - position.1) % 2 ^ 32

/-- The calls can be assigned to the frames: for each frame, in order, a call
of its own at which the frame is complete. -/
def Schedulable (frames : List (SentFrame F)) (chunks : List (List UInt8)) :
    Prop :=
  Suffices complete (arrivals 0 chunks) (framePositions 0 frames)

/-- The bytes of a stream of frames. -/
def streamBytes (frames : List (SentFrame F)) : List UInt8 :=
  frames.flatMap SentFrame.bytes

private theorem length_framePositions (start : Nat) (frames : List (SentFrame F)) :
    (framePositions start frames).length = frames.length := by
  induction frames generalizing start with
  | nil => rfl
  | cons frame frames inductionHypothesis =>
      simp only [framePositions, List.length_cons, inductionHypothesis]

theorem readFrame_nil : readFrame (F := F) [] = .ok ([], []) :=
  readFrame_of_short (by decide)

/-- Whatever the calls, the events of the first frames are handed over in
order, and those of the frames that the calls do not suffice for are left. -/
theorem readStream_frames (chunks : List (List UInt8)) (start : Nat)
    (buffer later : List UInt8) (frames : List (SentFrame F))
    (representable :
      ∀ frame ∈ frames, frame.event.header.IdsRepresentable)
    (stream : buffer ++ (chunks.flatten ++ later) = streamBytes frames) :
    ∃ rest served left,
      frames = served ++ left ∧
        readStream buffer chunks =
          .ok (rest, served.map fun frame => frame.event.received) ∧
        left.length =
          (unserved complete (arrivals (start + buffer.length) chunks)
            (framePositions start frames)).length := by
  induction chunks generalizing start buffer frames with
  | nil =>
      refine ⟨buffer, [], frames, rfl, rfl, ?_⟩
      exact (length_framePositions start frames).symm
  | cons chunk chunks inductionHypothesis =>
      rw [List.flatten_cons, List.append_assoc, ← List.append_assoc] at stream
      have arrived :
          start + (buffer ++ chunk).length =
            start + buffer.length + chunk.length := by
        rw [List.length_append]
        omega
      cases frames with
      | nil =>
          obtain ⟨nothing, behind⟩ := List.append_eq_nil_iff.mp stream
          obtain ⟨rest, served, left, split, read, remaining⟩ :=
            inductionHypothesis start [] [] representable behind
          refine ⟨rest, served, left, split, ?_, ?_⟩
          · rw [readStream_cons chunks (by rw [nothing]; exact readFrame_nil),
              read]
            rfl
          · rw [remaining, framePositions, unserved_nil, unserved_nil]
      | cons frame frames =>
          have front : streamBytes (frame :: frames) =
              frame.bytes ++ streamBytes frames := List.flatMap_cons
          rw [front] at stream
          rw [framePositions, arrivals, unserved]
          have test :
              complete (start, frame.bytes.length)
                  (start + buffer.length + chunk.length) =
                decide (frame.bytes.length ≤
                  (buffer ++ chunk).length % 2 ^ 32) := by
            rw [complete, ← arrived, Nat.add_sub_cancel_left]
          by_cases isComplete :
              frame.bytes.length ≤ (buffer ++ chunk).length % 2 ^ 32
          · -- The call is given to the frame in front.
            rw [test, decide_eq_true isComplete, if_pos rfl]
            have whole : frame.bytes.length ≤ (buffer ++ chunk).length :=
              isComplete.trans (Nat.mod_le _ _)
            obtain ⟨suffix, same, behind⟩ := frame.exists_rest stream whole
            have arrives : frame.Arrived (buffer ++ chunk) suffix :=
              ⟨representable frame List.mem_cons_self, same, isComplete⟩
            have read := arrives.readFrame
            rw [same, List.length_append] at arrived
            obtain ⟨rest, served, left, split, reads, remaining⟩ :=
              inductionHypothesis (start + frame.bytes.length) suffix frames
                (fun other member =>
                  representable other (List.mem_cons_of_mem _ member)) behind
            refine ⟨rest, frame :: served, left, ?_, ?_, ?_⟩
            · rw [split, List.cons_append]
            · rw [readStream_cons chunks read, reads]
              rfl
            · rw [remaining, ← arrived, Nat.add_assoc]
          · -- The call is lost.
            rw [test, decide_eq_false isComplete, if_neg Bool.false_ne_true]
            have read := frame.readFrame_waits stream isComplete
            rw [← front] at stream
            obtain ⟨rest, served, left, split, reads, remaining⟩ :=
              inductionHypothesis start (buffer ++ chunk) (frame :: frames)
                representable stream
            refine ⟨rest, served, left, split, ?_, ?_⟩
            · rw [readStream_cons chunks read, reads]
              rfl
            · rw [remaining, arrived]
              rfl

/-- All events are handed over if and only if the calls suffice. -/
theorem readStream_eq_iff {chunks : List (List UInt8)}
    {frames : List (SentFrame F)} {later rest : List UInt8}
    {handed : List (YAEvent F)}
    (representable :
      ∀ frame ∈ frames, frame.event.header.IdsRepresentable)
    (stream : chunks.flatten ++ later = streamBytes frames)
    (read : readStream [] chunks = .ok (rest, handed)) :
    (handed = frames.map fun frame => frame.event.received) ↔
      Schedulable frames chunks := by
  obtain ⟨_, served, left, split, reads, remaining⟩ :=
    readStream_frames chunks 0 [] later frames representable stream
  rw [read] at reads
  cases reads
  have none :
      left.length =
        (unserved complete (arrivals 0 chunks)
          (framePositions 0 frames)).length := remaining
  rw [Schedulable, ← unserved_eq_nil_iff, ← List.length_eq_zero_iff, ← none,
    split, List.map_append, List.self_eq_append_right, List.map_eq_nil_iff,
    List.length_eq_zero_iff]

private theorem wordAt_header {behind : List UInt8} (long : 3 ≤ behind.length) :
    (wordAt (0x94 :: behind) 0).toNat =
      0x94 * 256 ^ 3 + ofBytes (behind.take 3) := by
  have length : (behind.take 3).length = 3 := by
    rw [List.length_take, Nat.min_eq_left long]
  have low := ofBytes_lt (behind.take 3)
  rw [length] at low
  have loaded :
      ofBytes (evbufferCopyout32 (0x94 :: behind) 0) =
        0x94 * 256 ^ 3 + ofBytes (behind.take 3) := by
    simp only [evbufferCopyout32, List.drop_zero, List.take_succ_cons,
      List.length_cons, length, Nat.sub_self, List.replicate_zero,
      List.append_nil, ofBytes]
    rfl
  rw [wordAt, loaded, UInt32.toNat_ofNat']
  omega

/-- A header at the front of the buffer announces more than 2^31 bytes: with
less than that many it is left alone. -/
theorem readFrame_misaligned {behind chunk : List UInt8}
    (long : 3 ≤ behind.length)
    (short : (0x94 :: behind).length + chunk.length < 2 ^ 31) :
    readFrame (F := F) (0x94 :: behind ++ chunk) =
      .ok (0x94 :: (behind ++ chunk), []) := by
  have waits : frameArrived (0x94 :: (behind ++ chunk)) = false := by
    have longer : 3 ≤ (behind ++ chunk).length := by
      rw [List.length_append]
      omega
    have word := wordAt_header longer
    have low := ofBytes_lt ((behind ++ chunk).take 3)
    rw [List.length_take, Nat.min_eq_left longer] at low
    apply frameArrived_eq_false
    · simp only [packageSize, word]
      omega
    · simp only [packageSize, word, List.length_cons, List.length_append] at short ⊢
      omega
  rw [List.cons_append, readFrame, waits]
  rfl

/-- Less than 2^31 bytes behind such a header arrive in vain. -/
theorem readStream_misaligned (chunks : List (List UInt8))
    {behind : List UInt8} (long : 3 ≤ behind.length)
    (short : (0x94 :: behind).length + chunks.flatten.length < 2 ^ 31) :
    ∃ rest,
      readStream (F := F) (0x94 :: behind) chunks = .ok (rest, []) := by
  induction chunks generalizing behind with
  | nil => exact ⟨_, rfl⟩
  | cons chunk chunks inductionHypothesis =>
      rw [List.flatten_cons, List.length_append] at short
      obtain ⟨rest, reads⟩ :
          ∃ rest,
            readStream (F := F) (0x94 :: (behind ++ chunk)) chunks =
              .ok (rest, []) := by
        apply inductionHypothesis
        · rw [List.length_append]
          omega
        · simp only [List.length_cons, List.length_append] at short ⊢
          omega
      refine ⟨rest, ?_⟩
      rw [readStream_cons chunks (readFrame_misaligned long (by omega)), reads]
      rfl

/-- A frame whose ids are not representable is not handed over, nor is any
frame behind it, if the stream has less than 2^31 bytes. -/
theorem readStream_length_lt {chunks : List (List UInt8)}
    {buffer later rest : List UInt8} {frames : List (SentFrame F)}
    {handed : List (YAEvent F)}
    (outside :
      ∃ frame ∈ frames, ¬ frame.event.header.IdsRepresentable)
    (stream : buffer ++ (chunks.flatten ++ later) = streamBytes frames)
    (short : (streamBytes frames).length < 2 ^ 31)
    (read : readStream buffer chunks = .ok (rest, handed)) :
    handed.length < frames.length := by
  induction chunks generalizing buffer frames rest handed with
  | nil =>
      cases read
      obtain ⟨frame, member, -⟩ := outside
      exact List.length_pos_of_mem member
  | cons chunk chunks inductionHypothesis =>
      rw [List.flatten_cons, List.append_assoc, ← List.append_assoc] at stream
      cases frames with
      | nil =>
          obtain ⟨frame, member, -⟩ := outside
          cases member
      | cons frame frames =>
          have front : streamBytes (frame :: frames) =
              frame.bytes ++ streamBytes frames := List.flatMap_cons
          rw [front] at stream
          by_cases isComplete :
              frame.bytes.length ≤ (buffer ++ chunk).length % 2 ^ 32
          · have whole : frame.bytes.length ≤ (buffer ++ chunk).length :=
              isComplete.trans (Nat.mod_le _ _)
            obtain ⟨suffix, same, others⟩ := frame.exists_rest stream whole
            by_cases representable : frame.event.header.IdsRepresentable
            · have arrives : frame.Arrived (buffer ++ chunk) suffix :=
                ⟨representable, same, isComplete⟩
              have first := arrives.readFrame
              obtain ⟨next, reads, rfl⟩ := readStream_cons_eq_ok first read
              have behind : ∃ other ∈ frames,
                  ¬ other.event.header.IdsRepresentable := by
                obtain ⟨other, member, refused⟩ := outside
                rcases List.mem_cons.mp member with rfl | inRest
                · exact absurd representable refused
                · exact ⟨other, inRest, refused⟩
              have shorter : (streamBytes frames).length < 2 ^ 31 := by
                rw [front, List.length_append] at short
                omega
              have fewer := inductionHypothesis behind others shorter reads
              simp only [List.length_append, List.length_cons,
                List.length_nil]
              omega
            · -- From here on the buffer is misaligned.
              rw [same] at isComplete
              obtain ⟨behind, first, long, length⟩ :=
                frame.readFrame_refuses representable isComplete
              rw [← same] at first
              obtain ⟨next, reads, rfl⟩ := readStream_cons_eq_ok first read
              have bounded :
                  (0x94 :: behind).length + chunks.flatten.length < 2 ^ 31 := by
                have lengths := congrArg List.length stream
                have behindLength :
                    (chunks.flatten ++ later).length =
                      chunks.flatten.length + later.length :=
                  List.length_append
                rw [← front, same, List.length_append] at lengths
                omega
              obtain ⟨_, nothing⟩ :
                  ∃ rest,
                    readStream (F := F) (0x94 :: behind) chunks =
                      .ok (rest, []) :=
                readStream_misaligned chunks long bounded
              rw [nothing] at reads
              cases reads
              exact Nat.succ_pos _
          · have first := frame.readFrame_waits stream isComplete
            rw [← front] at stream
            obtain ⟨next, reads, rfl⟩ := readStream_cons_eq_ok first read
            exact inductionHypothesis outside stream short reads

/-! ## Streams that can be read on -/

/-- Each call finds a frame in front, or nothing to hand over. -/
def Legible (F : Type) [CFloat F] : List UInt8 → List (List UInt8) → Prop
  | _, [] => True
  | buffer, chunk :: chunks =>
      ∃ rest,
        (readFrame (F := F) (buffer ++ chunk) = .ok (rest, []) ∨
          ∃ frame : SentFrame F, frame.Arrived (buffer ++ chunk) rest) ∧
          Legible F rest chunks

private theorem legible_misaligned (chunks : List (List UInt8)) {behind : List UInt8}
    (long : 3 ≤ behind.length)
    (short : (0x94 :: behind).length + chunks.flatten.length < 2 ^ 31) :
    Legible F (0x94 :: behind) chunks := by
  induction chunks generalizing behind with
  | nil => trivial
  | cons chunk chunks inductionHypothesis =>
      rw [List.flatten_cons, List.length_append] at short
      refine ⟨0x94 :: (behind ++ chunk),
        Or.inl (readFrame_misaligned long ?_), inductionHypothesis ?_ ?_⟩
      · omega
      · rw [List.length_append]
        omega
      · simp only [List.length_cons, List.length_append] at short ⊢
        omega

/-- A stream of frames is read on as long as their ids can be read back, or if
it has less than 2^31 bytes. -/
theorem legible_frames (chunks : List (List UInt8))
    {buffer later : List UInt8} {frames : List (SentFrame F)}
    (readable :
      (∀ frame ∈ frames, frame.event.header.IdsRepresentable) ∨
        (streamBytes frames).length < 2 ^ 31)
    (stream : buffer ++ (chunks.flatten ++ later) = streamBytes frames) :
    Legible F buffer chunks := by
  induction chunks generalizing buffer frames with
  | nil => trivial
  | cons chunk chunks inductionHypothesis =>
      rw [List.flatten_cons, List.append_assoc, ← List.append_assoc] at stream
      cases frames with
      | nil =>
          obtain ⟨nothing, behind⟩ := List.append_eq_nil_iff.mp stream
          have rest : Legible F [] chunks :=
            @inductionHypothesis [] [] readable behind
          refine ⟨[], Or.inl ?_, rest⟩
          rw [nothing]
          exact readFrame_nil
      | cons frame frames =>
          have front : streamBytes (frame :: frames) =
              frame.bytes ++ streamBytes frames := List.flatMap_cons
          rw [front] at stream readable
          by_cases isComplete :
              frame.bytes.length ≤ (buffer ++ chunk).length % 2 ^ 32
          · have whole : frame.bytes.length ≤ (buffer ++ chunk).length :=
              isComplete.trans (Nat.mod_le _ _)
            obtain ⟨suffix, same, behind⟩ := frame.exists_rest stream whole
            by_cases representable : frame.event.header.IdsRepresentable
            · refine ⟨suffix, Or.inr ⟨frame, representable, same, isComplete⟩,
                inductionHypothesis ?_ behind⟩
              refine readable.imp (fun all other member =>
                all other (List.mem_cons_of_mem _ member)) fun short => ?_
              rw [List.length_append] at short
              omega
            · -- The rest of the refused frame announces more than arrives.
              have short := readable.resolve_left fun all =>
                representable (all frame List.mem_cons_self)
              have lengths := congrArg List.length stream
              rw [same] at isComplete
              obtain ⟨behindSizes, refused, long, length⟩ :=
                frame.readFrame_refuses representable isComplete
              have behindLength :
                  (chunks.flatten ++ later).length =
                    chunks.flatten.length + later.length :=
                List.length_append
              rw [← same] at refused length
              refine ⟨_, Or.inl refused, legible_misaligned chunks long ?_⟩
              rw [← lengths, List.length_append] at short
              omega
          · refine ⟨buffer ++ chunk,
              Or.inl (frame.readFrame_waits stream isComplete), ?_⟩
            rw [← front] at stream readable
            exact inductionHypothesis readable stream

end MouseHero
