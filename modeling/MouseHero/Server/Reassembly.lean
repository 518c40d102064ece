import MouseHero.Server.Crashes

/-!
# Reassembly of the TCP stream

A connection whose client is active reads the stream of its frames, whatever
else the server does in between, until a callback does not return.
-/

namespace MouseHero

open FaultM YaClientManager

variable {F : Type} [CFloat F] {bev : BevId}

/-! ## The stream of a connection -/

/-- A call of `conn_readcb`: the state in which it is made, and the bytes that
have arrived since the last one. -/
structure ReadCall (F : Type) where
  state : World F
  chunk : List UInt8

/-- The callbacks of a connection on which chunks of bytes arrive.  In between
the server does other things, which leave the connection open and hand over
nothing that has arrived on it.  A callback that does not return is the last
one, and the chunks behind it are missed. -/
inductive TcpRun (bev : BevId) (client : ClientId) :
    World F → List (ReadCall F) → List (List UInt8) → World F → Prop
  | done (world : World F) : TcpRun bev client world [] [] world
  | elsewhere {world middle final : World F} {calls : List (ReadCall F)}
      {missed : List (List UInt8)} :
      (∀ input, world.Reads bev client input →
        middle.Reads bev client input) →
      middle.handedOver bev = world.handedOver bev →
      TcpRun bev client middle calls missed final →
      TcpRun bev client world calls missed final
  | arrival (chunk : List UInt8) {world middle final : World F}
      {calls : List (ReadCall F)} {missed : List (List UInt8)} :
      connReadcb bev (some client) (world.arrive bev chunk) =
        (.ok (), middle) →
      TcpRun bev client middle calls missed final →
      TcpRun bev client world
        ({ state := world.arrive bev chunk, chunk } :: calls) missed final
  | crash (chunk : List UInt8) {world final : World F} {reason : Fault}
      (missed : List (List UInt8)) :
      connReadcb bev (some client) (world.arrive bev chunk) =
        (.error reason, final) →
      TcpRun bev client world
        [{ state := world.arrive bev chunk, chunk }] missed final

/-- The chunks that the calls are made for. -/
def arrivedChunks (calls : List (ReadCall F)) : List (List UInt8) :=
  calls.map ReadCall.chunk

/-- The call is made with less than four bytes to read, or with a frame in front
that is not discarded and whose response cannot be serialised. -/
def ReadCall.Fatal (bev : BevId) (client : ClientId) (call : ReadCall F) :
    Prop :=
  ∃ input, (call.state.bevs bev).map Bufferevent.input = some input ∧
    (input.length < 4 ∨
      ∃ (frame : SentFrame F) (rest : List UInt8),
        frame.Arrived input rest ∧
          ¬ Discarded call.state (some client) frame.event ∧
          Unanswerable call.state frame.event)

/-- No call is fatal and nothing is missed, or the last call is the first fatal
one. -/
def EndsAtFatal (bev : BevId) (client : ClientId)
    (calls : List (ReadCall F)) (missed : List (List UInt8)) : Prop :=
  (missed = [] ∧ ∀ call ∈ calls, ¬ call.Fatal bev client) ∨
    ∃ before last,
      calls = before ++ [last] ∧ last.Fatal bev client ∧
        ∀ call ∈ before, ¬ call.Fatal bev client

/-- The fatal calls are those that do not return. -/
theorem ReadCall.fatal_iff {call : ReadCall F} {client : ClientId}
    {input rest : List UInt8} (reads : call.state.Reads bev client input)
    (front : readFrame (F := F) input = .ok (rest, []) ∨
      ∃ frame : SentFrame F, frame.Arrived input rest) :
    call.Fatal bev client ↔
      ¬ ∃ after, connReadcb bev (some client) call.state = (.ok (), after) := by
  have isInput {other : List UInt8}
      (stored : (call.state.bevs bev).map Bufferevent.input = some other) :
      other = input :=
    Option.some.inj (stored.symm.trans reads.buffer)
  by_cases short : input.length < 4
  · refine iff_of_true ⟨input, reads.buffer, Or.inl short⟩ ?_
    intro returns
    obtain ⟨after, returned⟩ := returns
    obtain ⟨entry, stored, active⟩ := Option.map_eq_some_iff.mp reads.active
    obtain ⟨contents, buffered, rfl⟩ := Option.map_eq_some_iff.mp reads.buffer
    rw [connReadcb_short stored active buffered short] at returned
    cases returned
  constructor
  · intro fatal
    obtain ⟨other, stored, found⟩ := fatal
    cases isInput stored
    obtain ⟨frame, rest, arrives, executed, unanswerable⟩ := found.resolve_left short
    rw [connReadcb_returns_iff reads arrives]
    exact not_or_intro executed (not_not_intro unanswerable)
  · intro stops
    rcases front with nothing | ⟨frame, arrives⟩
    · exact absurd (connReadcb_silent_returns reads nothing (by omega)) stops
    · rw [connReadcb_returns_iff reads arrives, not_or, not_not] at stops
      exact ⟨input, reads.buffer, Or.inr ⟨frame, rest, arrives, stops⟩⟩

/-- What a call finds in front is what `readFrame` hands over. -/
theorem readFrame_of_front {input rest : List UInt8}
    (front : readFrame (F := F) input = .ok (rest, []) ∨
      ∃ frame : SentFrame F, frame.Arrived input rest) :
    ∃ handed, readFrame (F := F) input = .ok (rest, handed) := by
  rcases front with nothing | ⟨frame, arrives⟩
  · exact ⟨_, nothing⟩
  · exact ⟨_, arrives.readFrame⟩

section Runs

variable {world final : World F} {client : ClientId} {buffer : List UInt8}
variable {calls : List (ReadCall F)} {missed : List (List UInt8)}

/-- The callbacks of a run hand over what `readStream` reads. -/
theorem TcpRun.readStream (run : TcpRun bev client world calls missed final)
    (reads : world.Reads bev client buffer)
    (legible : Legible F buffer (arrivedChunks calls)) :
    ∃ rest handed,
      MouseHero.readStream buffer (arrivedChunks calls) = .ok (rest, handed) ∧
        final.handedOver bev = world.handedOver bev ++ handed := by
  induction run generalizing buffer with
  | done world =>
      exact ⟨buffer, [], rfl, (List.append_nil _).symm⟩
  | elsewhere keepsReading sameEvents later inductionHypothesis =>
      obtain ⟨rest, handed, read, events⟩ :=
        inductionHypothesis (keepsReading _ reads) legible
      exact ⟨rest, handed, read, by rw [events, sameEvents]⟩
  | arrival chunk returned later inductionHypothesis =>
      obtain ⟨middleRest, front, behind⟩ := legible
      obtain ⟨first, readFirst⟩ := readFrame_of_front front
      have reached := connReadcb_reads (reads.arrive chunk) readFirst
      rw [returned] at reached
      obtain ⟨rest, handed, read, events⟩ := inductionHypothesis reached.1 behind
      refine ⟨rest, first ++ handed, ?_, ?_⟩
      · rw [arrivedChunks, List.map_cons, readStream_cons _ readFirst]
        exact congrArg (Except.map fun result => (result.1, first ++ result.2)) read
      · rw [events, reached.2, World.handedOver_arrive, List.append_assoc]
  | crash chunk missed stopped =>
      obtain ⟨rest, front, -⟩ := legible
      obtain ⟨first, readFirst⟩ := readFrame_of_front front
      have reached := connReadcb_reads (reads.arrive chunk) readFirst
      rw [stopped] at reached
      refine ⟨rest, first ++ [], ?_, ?_⟩
      · rw [arrivedChunks, List.map_cons, readStream_cons _ readFirst]
        rfl
      · rw [reached.2, World.handedOver_arrive, List.append_nil]

/-- The callbacks of a run return up to the first fatal call. -/
theorem TcpRun.endsAtFatal (run : TcpRun bev client world calls missed final)
    (reads : world.Reads bev client buffer)
    (legible : Legible F buffer (arrivedChunks calls)) :
    EndsAtFatal bev client calls missed := by
  induction run generalizing buffer with
  | done world => exact Or.inl ⟨rfl, List.forall_mem_nil _⟩
  | elsewhere keepsReading sameEvents later inductionHypothesis =>
      exact inductionHypothesis (keepsReading _ reads) legible
  | @arrival chunk before middle final calls missed returned later inductionHypothesis =>
      obtain ⟨rest, front, behind⟩ := legible
      have arrived := reads.arrive chunk
      obtain ⟨first, readFirst⟩ := readFrame_of_front front
      have reached := connReadcb_reads arrived readFirst
      rw [returned] at reached
      let call : ReadCall F := { state := before.arrive bev chunk, chunk }
      have harmless : ¬ call.Fatal bev client :=
        (ReadCall.fatal_iff arrived front).not.mpr (not_not_intro ⟨_, returned⟩)
      rcases inductionHypothesis reached.1 behind with
        ⟨nothing, fine⟩ | ⟨earlier, last, rfl, fatal, fine⟩
      · exact Or.inl ⟨nothing, List.forall_mem_cons.mpr ⟨harmless, fine⟩⟩
      · exact Or.inr ⟨call :: earlier, last, rfl, fatal,
          List.forall_mem_cons.mpr ⟨harmless, fine⟩⟩
  | crash chunk missed stopped =>
      obtain ⟨rest, front, -⟩ := legible
      refine Or.inr ⟨[], _, rfl, ?_, List.forall_mem_nil _⟩
      refine (ReadCall.fatal_iff (reads.arrive chunk) front).mpr ?_
      intro returns
      obtain ⟨after, returned⟩ := returns
      rw [stopped] at returned
      cases returned

end Runs

/-! ## Reassembly -/

/-- The ids of all frames can be read back. -/
def Representable (frames : List (SentFrame F)) : Prop :=
  ∀ frame ∈ frames, frame.event.header.IdsRepresentable

/-- The events of the frames have been handed over, each once and in order. -/
def Reassembled (bev : BevId) (frames : List (SentFrame F))
    (world final : World F) : Prop :=
  final.handedOver bev =
    world.handedOver bev ++ frames.map fun frame => frame.event.received

/-- However a stream of frames is cut, its events are handed over if and only if
the ids can be read back and the calls up to the first fatal one can be assigned
to the frames.  Without ids that can be read back this holds for streams of less
than 2^31 bytes. -/
theorem reassembly_iff {world final : World F} {client : ClientId}
    {calls : List (ReadCall F)} {missed : List (List UInt8)}
    {frames : List (SentFrame F)}
    (opened : world.Reads bev client [])
    (cut : (arrivedChunks calls ++ missed).flatten = streamBytes frames)
    (run : TcpRun bev client world calls missed final) :
    (Representable frames →
      EndsAtFatal bev client calls missed ∧
        (Reassembled bev frames world final ↔
          Schedulable frames (arrivedChunks calls))) ∧
    ((streamBytes frames).length < 2 ^ 31 →
      EndsAtFatal bev client calls missed ∧
        (Reassembled bev frames world final ↔
          Representable frames ∧ Schedulable frames (arrivedChunks calls))) := by
  rw [List.flatten_append] at cut
  have legible
      (readable : Representable frames ∨ (streamBytes frames).length < 2 ^ 31) :
      Legible F [] (arrivedChunks calls) :=
    legible_frames _ readable cut
  have exact (representable : Representable frames) :
      Reassembled bev frames world final ↔
        Schedulable frames (arrivedChunks calls) := by
    obtain ⟨rest, handed, read, events⟩ :=
      run.readStream opened (legible (Or.inl representable))
    rw [Reassembled, events, List.append_cancel_left_eq]
    exact readStream_eq_iff representable cut read
  refine ⟨fun representable => ⟨?_, exact representable⟩, fun short => ⟨?_, ?_⟩⟩
  · exact run.endsAtFatal opened (legible (Or.inl representable))
  · exact run.endsAtFatal opened (legible (Or.inr short))
  by_cases representable : Representable frames
  · rw [exact representable]
    exact (and_iff_right representable).symm
  · have outside :
        ∃ frame ∈ frames, ¬ frame.event.header.IdsRepresentable := by
      simpa [Representable] using representable
    obtain ⟨rest, handed, read, events⟩ :=
      run.readStream opened (legible (Or.inr short))
    have fewer := readStream_length_lt outside cut short read
    refine iff_of_false ?_ fun both => representable both.1
    rw [Reassembled, events, List.append_cancel_left_eq]
    intro holds
    have lengths := congrArg List.length holds
    rw [List.length_map] at lengths
    omega

/-! ## Two heartbeats -/

/-- The heartbeat of the first client. -/
def heartbeatFrame : SentFrame Rat where
  event := {
    header := {
      type := YAEventType.heartbeat.code, direction := REQUEST
      index := 1, uid := 1 }
    param := none
    paramLen := 0 }
  bytes := [0, 0, 0, 9, 0, 0, 0, 5, 0x94, 1, 11, 1, 1]
  range := ⟨by decide, by decide⟩
  serialized := by decide

theorem connected_reads : World.connected.Reads 16 8 [] where
  active := rfl
  buffer := rfl
  bound := by
    intro address contents same stored
    cases same
    cases stored
    rfl

/-- A heartbeat that arrives in two chunks. -/
theorem reassembly_iff_heartbeat :
    ∃ calls final,
      TcpRun 16 8 World.connected calls [] final ∧
        arrivedChunks calls =
          [heartbeatFrame.bytes.take 6, heartbeatFrame.bytes.drop 6] ∧
        EndsAtFatal 16 8 calls [] ∧
        Reassembled 16 [heartbeatFrame] World.connected final := by
  have run : TcpRun 16 8 World.connected _ [] _ :=
    .arrival (heartbeatFrame.bytes.take 6) rfl
      (.arrival (heartbeatFrame.bytes.drop 6) rfl (.done _))
  have representable : Representable [heartbeatFrame] := by
    intro frame member
    cases List.mem_singleton.mp member
    exact ⟨by decide, by decide⟩
  have schedulable :
      Schedulable [heartbeatFrame]
        [heartbeatFrame.bytes.take 6, heartbeatFrame.bytes.drop 6] :=
    (GreedyMatching.unserved_eq_nil_iff _ _).mp (by decide)
  have cut :
      ([heartbeatFrame.bytes.take 6, heartbeatFrame.bytes.drop 6] ++ []).flatten =
        streamBytes [heartbeatFrame] := by decide
  obtain ⟨ends, reassembled⟩ :=
    (reassembly_iff connected_reads cut run).1 representable
  exact ⟨_, _, run, rfl, ends, reassembled.mpr schedulable⟩

/-- Of two heartbeats that arrive together only one is handed over. -/
theorem coalescedHeartbeats_notReassembled :
    ∃ calls final,
      TcpRun 16 8 World.connected calls [] final ∧
        arrivedChunks calls = [heartbeatFrame.bytes ++ heartbeatFrame.bytes] ∧
        streamBytes [heartbeatFrame, heartbeatFrame] =
          heartbeatFrame.bytes ++ heartbeatFrame.bytes ∧
        final.handedOver 16 = [heartbeatFrame.event.received] ∧
        ¬ Reassembled 16 [heartbeatFrame, heartbeatFrame] World.connected
          final := by
  have run : TcpRun 16 8 World.connected _ [] _ :=
    .arrival (heartbeatFrame.bytes ++ heartbeatFrame.bytes) rfl (.done _)
  refine ⟨_, _, run, rfl, by decide, by decide, ?_⟩
  intro holds
  have lengths := congrArg List.length holds
  revert lengths
  decide

/-- A chunk of two bytes is the end. -/
example :
    (connReadcb 16 (some 8)
      (World.connected.arrive 16 (heartbeatFrame.bytes.take 2))).1 =
        .error .nullDereference := by
  rfl

end MouseHero
