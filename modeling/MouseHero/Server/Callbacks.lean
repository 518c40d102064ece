import MouseHero.Server.Containment
import MouseHero.Server.Leaks

/-!
# Callbacks that give everything back

Exactly which datagrams and frames leave the ledger as it was, and what that
means for any number of requests.
-/

namespace MouseHero

open FaultM

variable {F : Type} [CFloat F]

/-! ## Accepted frames -/

/-- The header of a frame that `ya_parse_event` accepts. -/
def acceptedHeader (input : List UInt8) : Option YAEventHeader :=
  match bodyStage (evbufferDrain input 8) (packageSize input) with
  | .ok (.noBody header _) => some header
  | .ok (.body header _ _) => some header
  | _ => none

/-- The request of a frame without parameters. -/
def bareRequest (header : YAEventHeader) : YAEvent F :=
  { YAEvent.zero with header }

/-- A frame that gives everything back: it is accepted, its body is empty or its
type has no parser, and it is not a `TEXT_GET` that is executed. -/
def GivesBack (world : World F) (target : YAEventHeader → Option ClientId)
    (input : List UInt8) : Prop :=
  ∃ header, acceptedHeader input = some header ∧
    (contentLen (packageSize input) = 0 ∨ ¬ header.HasBody F) ∧
    ¬ ExecutesTextGet world (target header) (bareRequest header)

section Parsing

variable {input : List UInt8} {parsed : ParsedEvent F}

private theorem callParser_outParam {header : YAEventHeader} {payload : List UInt8}
    {len : Nat} {result : ParserResult F}
    (returned : callParser header payload len = .ok result) :
    result.outParam = none ↔ ¬ header.HasBody F := by
  have delivered {read : ReaderM (YAParam F)}
      (returned : deliver read payload len = .ok result) :
      result.outParam ≠ none := by
    unfold deliver at returned
    split at returned
    · cases returned
      exact Option.some_ne_none _
    · cases returned
  unfold callParser at returned
  unfold YAEventHeader.HasBody
  cases known : YAEventType.ofCode? header.type with
  | none =>
      simp only [getParser, known, Except.ok.injEq] at returned ⊢
      cases returned
      simp
  | some type =>
      cases type <;> simp only [getParser, known] at returned ⊢
      case heartbeat | mouseStop =>
        cases returned
        simp
      all_goals simpa using delivered returned

private theorem bodyStage_noBody {buf rest : List UInt8} {size : YAPackageSize}
    {header : YAEventHeader}
    (reached : bodyStage buf size = .ok (.noBody header rest)) :
    contentLen size = 0 := by
  rw [bodyStage] at reached
  cases parsed : yaParseEventHeader buf size.headerSize with
  | error reason =>
      rw [parsed] at reached
      cases reached
  | ok found =>
      rw [parsed] at reached
      cases found with
      | none => cases reached
      | some parsedHeader =>
          simp only [except_ok_bind] at reached
          split at reached
          · assumption
          · split at reached <;> cases reached

/-- A frame is refused, or it has parameters if it has a body of a type with a
parser. -/
theorem yaParseEvent_cases
    (parses : yaParseEvent (evbufferDrain input 8) YAEvent.zero
      (packageSize input) = .ok parsed) :
    (parsed.status < 0 ∧ acceptedHeader input = none ∧ parsed.event.param = none) ∨
      (¬ parsed.status < 0 ∧ acceptedHeader input = some parsed.event.header ∧
        (parsed.event.param = none ↔
          contentLen (packageSize input) = 0 ∨
            ¬ parsed.event.header.HasBody F)) := by
  unfold acceptedHeader
  unfold yaParseEvent at parses
  cases stage : bodyStage (evbufferDrain input 8) (packageSize input) with
  | error reason =>
      rw [stage] at parses
      cases parses
  | ok reached =>
      rw [stage] at parses
      simp only [except_ok_bind] at parses
      cases reached with
      | refused buf =>
          cases parses
          exact Or.inl ⟨neg_one_lt_zero, rfl, rfl⟩
      | noBody header buf =>
          cases parses
          exact Or.inr ⟨lt_irrefl 0, rfl,
            iff_of_true rfl (Or.inl (bodyStage_noBody stage))⟩
      | body header payload buf =>
          have someBody := (bodyStage_payload stage).1
          simp only at parses
          cases called : callParser (F := F) header payload
              (sizeOfInt (contentLen (packageSize input))) with
          | error reason =>
              rw [called] at parses
              cases parses
          | ok result =>
              have accepted : ¬ result.status < 0 := by
                rw [callParser_status called]
                decide
              rw [called] at parses
              simp only [except_ok_bind, if_neg accepted] at parses
              cases parses
              refine Or.inr
                ⟨lt_irrefl 0, rfl, (callParser_outParam called).trans ?_⟩
              exact (or_iff_right someBody).symm

end Parsing

/-! ## Requests -/

/-- What a callback does to the heap. -/
structure Settles (returned : Prop) (before after : Heap) : Prop where
  keeps : before.Keeps after
  valid : after.Valid
  same : returned → after.ledger.live = before.ledger.live
  leaks : ¬ returned → Leaks before.ledger.next after

section Requests

variable {world : World F} {before heap after : Heap}

omit [CFloat F] in
/-- Only the header of a request decides whether it is executed. -/
theorem executesTextGet_congr {target : Option ClientId} {event other : YAEvent F}
    (same : event.header = other.header) :
    ExecutesTextGet world target event ↔ ExecutesTextGet world target other := by
  simp only [ExecutesTextGet, Discarded, same]

omit [CFloat F] in
theorem executesTextGet_referenced {client : ClientId} {reached : World F}
    {event : YAEvent F}
    (referenced : reached.manager = yaClientRef world.manager client) :
    ExecutesTextGet reached (some client) event ↔
      ExecutesTextGet world (some client) event :=
  and_congr_right fun _ => not_congr (discarded_referenced referenced)

theorem Leaks.released {since address : Nat} (leaks : Leaks since heap)
    (old : address < since) : Leaks since (heap.released address) := by
  obtain ⟨object, recent, live, notError⟩ := leaks
  exact ⟨object, recent, Ledger.mem_release.mpr ⟨by omega, live⟩, notError⟩

theorem Leaks.mono {since earlier : Nat} (leaks : Leaks since heap)
    (before : earlier ≤ since) : Leaks earlier heap := by
  obtain ⟨object, recent, isLeak⟩ := leaks
  exact ⟨object, before.trans recent, isLeak⟩

omit [CFloat F] in
/-- A request that has been parsed and served leaves its parameters behind, and
those of a text. -/
theorem Served.settles {target : Option ClientId} {event : YAEvent F}
    (valid : heap.Valid)
    (served : Served world target event (heap.withParam event.param) after) :
    Settles (event.param = none ∧ ¬ ExecutesTextGet world target event) heap
      after where
  keeps := (keeps_withParam heap event.param).trans served.keeps
  valid := served.valid
  same := by
    rintro ⟨noParam, notTextGet⟩
    rw [served.restored noParam notTextGet, noParam]
    rfl
  leaks := by
    intro notBoth
    cases isParam : event.param with
    | some param =>
        have keeps := served.keeps
        rw [isParam] at keeps
        exact (leaks_withParam valid param).keep keeps
    | none =>
        have executes : ExecutesTextGet world target event :=
          not_not.mp fun other => notBoth ⟨isParam, other⟩
        exact (served.leaks executes).mono (keeps_withParam heap event.param).next

theorem Settles.congr {condition other : Prop} (settles : Settles condition before after)
    (same : condition ↔ other) : Settles other before after := by
  rwa [← same]

/-- For a frame that is accepted this is a condition on its event. -/
theorem givesBack_iff (world : World F) (target : YAEventHeader → Option ClientId)
    {input : List UInt8} {event : YAEvent F}
    (accepted : acceptedHeader input = some event.header)
    (noParam : event.param = none ↔
      contentLen (packageSize input) = 0 ∨ ¬ event.header.HasBody F) :
    event.param = none ∧ ¬ ExecutesTextGet world (target event.header) event ↔
      GivesBack world target input := by
  have congr : ExecutesTextGet world (target event.header) event ↔
      ExecutesTextGet world (target event.header) (bareRequest event.header) :=
    executesTextGet_congr rfl
  rw [noParam, congr]
  constructor
  · rintro ⟨noBody, notTextGet⟩
    exact ⟨event.header, accepted, noBody, notTextGet⟩
  · rintro ⟨header, isAccepted, noBody, notTextGet⟩
    cases accepted.symm.trans isAccepted
    exact ⟨noBody, notTextGet⟩

theorem settles_refl {condition : Prop} (valid : heap.Valid) (holds : condition) :
    Settles condition heap heap where
  keeps := .refl heap
  valid := valid
  same := fun _ => rfl
  leaks := fun other => absurd holds other

private theorem settles_allocated {condition : Prop} (valid : heap.Valid)
    (fails : ¬ condition) : Settles condition heap heap.allocated where
  keeps := heap.keeps_allocated
  valid := valid.allocated
  same := fun holds => absurd holds fails
  leaks := fun _ =>
    ⟨heap.ledger.next, le_rfl, heap.next_mem_allocated, valid.ne_next⟩

theorem Settles.released {condition : Prop} (valid : heap.Valid)
    (settles : Settles condition heap.allocated after) :
    heap.ledger.next ∈ after.ledger.live ∧
      Settles condition heap (after.released heap.ledger.next) := by
  have live : heap.ledger.next ∈ after.ledger.live :=
    settles.keeps.live _ heap.next_mem_allocated valid.ne_next
  have notError : after.authorizeError ≠ some heap.ledger.next := by
    intro isError
    rcases settles.keeps.error _ isError with old | new
    · exact valid.ne_next old
    · exact absurd new (Nat.not_succ_le_self _)
  refine ⟨live, ?_, settles.valid.released notError, fun holds => ?_, fun fails => ?_⟩
  · exact (heap.keeps_allocated.trans settles.keeps).released le_rfl
  · exact Ledger.live_release_next (settles.same holds)
  · exact ((settles.leaks fails).released (Nat.lt_succ_self _)).mono (Nat.le_succ _)

end Requests

/-! ## Datagrams -/

/-- The client that a datagram names. -/
def datagramClient (world : World F) (header : YAEventHeader) : Option ClientId :=
  (yaClientFindByUid world.manager header.uid).map YaClient.addr

/-- A datagram whose request gives everything back. -/
def DatagramGivesBack (world : World F) (datagram : List UInt8) : Prop :=
  UInt32.ofNat (datagram.take 2048).length =
      (packageSize (datagram.take 2048)).totalSize + 4 ∧
    GivesBack world (datagramClient world) (datagram.take 2048)

section Datagrams

variable {world : World F} {heap : Heap}

private theorem udpReadcb_eq (datagram : List UInt8) :
    (udpReadcb datagram : ServerM F Unit) =
      match yaGetPackageSize (datagram.take 2048) with
      | .error reason => fault reason
      | .ok size =>
          if UInt32.ofNat (datagram.take 2048).length ≠ size.totalSize + 4 then
            pure ()
          else
            match yaParseEvent (evbufferDrain (datagram.take 2048) 8)
                YAEvent.zero size with
            | .error reason => fault reason
            | .ok parsed =>
                if parsed.status < 0 then pure ()
                else serveDatagram parsed.event := by
  simp only [udpReadcb, udpReceive]
  cases yaGetPackageSize (datagram.take 2048) with
  | error reason => rfl
  | ok size =>
      simp only
      by_cases short :
          UInt32.ofNat (datagram.take 2048).length ≠ size.totalSize + 4
      · rw [if_pos short, if_pos short]
      · rw [if_neg short, if_neg short]
        cases yaParseEvent (F := F) (evbufferDrain (datagram.take 2048) 8)
            YAEvent.zero size with
        | error reason => rfl
        | ok parsed =>
            by_cases refused : parsed.status < 0
            · simp only [if_pos refused]
            · simp only [if_neg refused]

/-- A response is sent in the way in which `conn_readcb` appends it. -/
theorem serveDatagram_eq (request : YAEvent F) :
    serveDatagram request = (do
      let world ← getState
      let response ← processServerEvent none request (requestClient world request)
      answer (fun serialized rsp => modifyState fun world =>
        { world with
          sent := rsp.take (sizeOfInt serialized.length) :: world.sent }) response
      return ()) := by
  simp only [bind_pure_unit]
  rfl

theorem udpReadcbHeap_mirrors (datagram : List UInt8) (valid : heap.Valid) :
    MirrorsAt (udpReadcbHeap datagram) (udpReadcb datagram) world heap
      fun _ _ after => Settles (DatagramGivesBack world datagram) heap after := by
  rw [udpReadcb_eq]
  refine mirrorsAt_onRecord (malloc_apply heap) ?_
  simp only
  cases sized : yaGetPackageSize (datagram.take 2048) with
  | error reason => exact mirrorsAt_fault reason
  | ok size =>
  obtain ⟨-, rfl⟩ := yaGetPackageSize_eq_ok sized
  refine mirrorsAt_ite ?_ ?_
  · intro otherLength
    refine mirrorsAt_pure (settles_allocated valid ?_)
    exact fun givesBack => otherLength givesBack.1
  intro notOther
  have sameLength := not_not.mp notOther
  refine mirrorsAt_parse fun parsed parses => ?_
  rcases yaParseEvent_cases parses with
    ⟨refused, notAccepted, noParam⟩ | ⟨notRefused, accepted, noParam⟩
  · rw [if_pos refused, if_pos refused, noParam]
    refine mirrorsAt_pure (settles_allocated valid ?_)
    rintro ⟨-, header, accepted, -⟩
    rw [notAccepted] at accepted
    cases accepted
  · rw [if_neg notRefused, if_neg notRefused, serveDatagram_eq]
    refine mirrorsAt_unrecorded_bind fun _ _ got => ?_
    cases got
    refine serve_mirrors (valid.allocated.withParam parsed.event.param) ?_
    intro reached after served
    obtain ⟨live, settles⟩ := (served.settles valid.allocated).released valid
    refine mirrorsAt_onRecord_last (free_apply live) (settles.congr ?_)
    have isRequest :=
      givesBack_iff world (datagramClient world) accepted noParam
    exact isRequest.trans ⟨fun givesBack => ⟨sameLength, givesBack⟩, And.right⟩

end Datagrams

/-! ## Frames -/

/-- A callback that makes no request, or one that gives everything back. -/
def FrameGivesBack (world : World F) (bev : BevId) (client : Option ClientId) : Prop :=
  ∀ address entry contents, client = some address →
    world.manager.deref address = some entry → entry.state = .active →
    world.bevs bev = some contents → frameArrived contents.input = true →
    acceptedHeader contents.input = none ∨
      GivesBack world (fun _ => some address) contents.input

section Frames

variable {world : World F} {heap : Heap} {bev : BevId}

/-- `serveRequest` in the words of `answer`. -/
theorem serveRequest_eq (client : ClientId) (request : YAEvent F) :
    serveRequest bev client request = (do
      modifyState fun world =>
        { world with manager := yaClientRef world.manager client }
      let response ← processServerEvent (some bev) request (some client)
      answer (fun serialized rsp => writeBev bev fun contents =>
        { contents with
          output := contents.output ++ rsp.take (sizeOfInt serialized.length) })
        response
      unrefClient client) :=
  rfl

private theorem frameGivesBack_iff {client : ClientId} {entry : YaClient F}
    {contents : Bufferevent} (stored : world.manager.deref client = some entry)
    (active : entry.state = .active) (isContents : world.bevs bev = some contents) :
    FrameGivesBack world bev (some client) ↔
      (frameArrived contents.input = true → acceptedHeader contents.input = none ∨
        GivesBack world (fun _ => some client) contents.input) := by
  constructor
  · intro givesBack
    exact givesBack client entry contents rfl stored active isContents
  · rintro givesBack _ _ _ ⟨rfl⟩ - - isFound arrived
    cases isContents.symm.trans isFound
    exact givesBack arrived

theorem connReadcbHeap_mirrors (client : Option ClientId) (valid : heap.Valid) :
    MirrorsAt (connReadcbHeap bev client) (connReadcb bev client) world heap
      fun _ _ after => Settles (FrameGivesBack world bev client) heap after := by
  cases client with
  | none =>
      refine mirrorsAt_pure (settles_refl valid ?_)
      intro address entry contents absent
      cases absent
  | some client =>
      refine mirrorsAt_unrecorded_bind fun entry _ returned => ?_
      obtain ⟨rfl, stored⟩ := derefClient_returned returned
      refine mirrorsAt_ite ?_ ?_
      · intro inactive
        refine mirrorsAt_pure (settles_refl valid ?_)
        rintro _ found contents ⟨rfl⟩ isFound active
        cases stored.symm.trans isFound
        exact absurd active inactive
      intro notInactive
      have active := not_not.mp notInactive
      refine mirrorsAt_unrecorded_bind fun contents _ returned => ?_
      obtain ⟨rfl, isContents⟩ := derefBev_returned returned
      have isFrame := frameGivesBack_iff stored active isContents
      cases sized : yaGetPackageSize contents.input with
      | error reason => exact mirrorsAt_fault reason
      | ok size =>
      obtain ⟨-, rfl⟩ := yaGetPackageSize_eq_ok sized
      refine mirrorsAt_ite ?_ ?_
      · intro arrived
        have givesBack := isFrame.trans (imp_iff_right arrived)
        refine mirrorsAt_parse fun parsed parses => ?_
        refine mirrorsAt_unrecorded_bind fun _ drained isDrained => ?_
        rcases yaParseEvent_cases parses with
          ⟨refused, notAccepted, noParam⟩ | ⟨notRefused, accepted, noParam⟩
        · rw [if_pos refused, if_pos refused, noParam]
          exact mirrorsAt_pure
            (settles_refl valid (givesBack.mpr (Or.inl notAccepted)))
        · rw [if_neg notRefused, if_neg notRefused, serveRequest_eq]
          refine mirrorsAt_unrecorded_bind fun _ counted isCounted => ?_
          cases isCounted
          refine serve_mirrors (valid.withParam parsed.event.param) ?_
          intro reached after served
          refine (mirrorsAt_unrecorded (unrefClient client)).weaken ?_
          rintro _ _ _ ⟨-, rfl⟩
          refine (served.settles valid).congr (Iff.trans ?_ givesBack.symm)
          have isRequest :=
            givesBack_iff world (fun _ => some client) accepted noParam
          have notNone : acceptedHeader contents.input ≠ none := by
            rw [accepted]
            exact Option.some_ne_none _
          have referenced : yaClientRef drained.manager client =
              yaClientRef world.manager client := by
            rw [writeBev_manager isDrained]
          rw [executesTextGet_referenced referenced, isRequest,
            or_iff_right notNone]
      · intro notArrived
        refine mirrorsAt_pure (settles_refl valid (isFrame.mpr ?_))
        exact fun arrived => absurd arrived notArrived

end Frames

end MouseHero
