import MouseHero.Library.Runs
import MouseHero.Server.Callbacks

/-!
# Any number of requests

Datagrams and frames in any order, with anything else that the server does in
between.  What one callback leaves in use stays in use, so that the ledger is the
same at the end only if every callback has given everything back.
-/

namespace MouseHero

open FaultM

/-! ## Settling in turn -/

section Settling

variable {first second : Prop} {before middle after : Heap}

theorem Settles.trans (begins : Settles first before middle)
    (ends : Settles second middle after) : Settles (first ∧ second) before after where
  keeps := begins.keeps.trans ends.keeps
  valid := ends.valid
  same := fun ⟨isFirst, isSecond⟩ => (ends.same isSecond).trans (begins.same isFirst)
  leaks := by
    intro notBoth
    by_cases isFirst : first
    · have notSecond : ¬ second := fun isSecond => notBoth ⟨isFirst, isSecond⟩
      exact (ends.leaks notSecond).mono begins.keeps.next
    · exact (begins.leaks isFirst).keep ends.keeps

theorem Settles.same_iff (settles : Settles first before after) :
    after.ledger.live = before.ledger.live ↔ first := by
  refine ⟨fun same => ?_, settles.same⟩
  by_contra fails
  exact (settles.leaks fails).ne same

end Settling

/-! ## Runs of the callbacks -/

/-- A callback, or anything else that the server does. -/
inductive ServerActivity (F : Type) where
  | datagram (bytes : List UInt8)
  | readable (bev : BevId) (client : Option ClientId)
  | elsewhere (reached : World F)

variable {F : Type} [CFloat F]

/-- What is done. -/
def ServerActivity.perform : ServerActivity F → LedgerM F Unit
  | .datagram bytes => udpReadcbHeap bytes
  | .readable bev client => connReadcbHeap bev client
  | .elsewhere reached => unrecorded (modifyState fun _ => reached)

/-- The callback gives everything back. -/
def ServerActivity.GivesBack (state : World F × Heap) : ServerActivity F → Prop
  | .datagram bytes => DatagramGivesBack state.1 bytes
  | .readable bev client => FrameGivesBack state.1 bev client
  | .elsewhere _ => True

/-- The state behind a callback that returns. -/
def performed (state : World F × Heap) (activity : ServerActivity F) :
    Option (World F × Heap) :=
  match activity.perform state with
  | (.ok _, reached) => some reached
  | (.error _, _) => none

section Runs

variable {first middle last : World F × Heap} {activity : ServerActivity F}
variable {activities : List (ServerActivity F)}

private theorem perform_of_performed (returned : performed first activity = some last) :
    activity.perform first = (.ok (), last) := by
  unfold performed at returned
  split at returned
  · rename_i performs
    cases returned
    exact performs
  · cases returned

private theorem performed_settles (valid : first.2.Valid)
    (returned : performed first activity = some last) :
    Settles (activity.GivesBack first) first.2 last.2 := by
  have performs := perform_of_performed returned
  cases activity with
  | datagram bytes =>
      obtain ⟨_, -, settles⟩ := (udpReadcbHeap_mirrors bytes valid).returned performs
      exact settles
  | readable bev client =>
      obtain ⟨_, -, settles⟩ := (connReadcbHeap_mirrors client valid).returned performs
      exact settles
  | elsewhere reached =>
      cases performs
      exact settles_refl valid trivial

/-- The callbacks of a run are determined, so that the rest of it gives everything
back as well. -/
theorem givesBack_cons (returned : performed first activity = some middle) :
    Run performed (fun state next => next.GivesBack state) first
        (activity :: activities) last ↔
      activity.GivesBack first ∧
        Run performed (fun state next => next.GivesBack state) middle activities
          last := by
  constructor
  · rintro (_ | ⟨givesBack, steps, rest⟩)
    cases returned.symm.trans steps
    exact ⟨givesBack, rest⟩
  · rintro ⟨givesBack, rest⟩
    exact .cons givesBack returned rest

private theorem run_settles (valid : first.2.Valid)
    (run : Run performed (fun _ _ => True) first activities last) :
    Settles
      (Run performed (fun state next => next.GivesBack state) first activities last)
      first.2 last.2 := by
  induction run with
  | nil state => exact settles_refl valid (.nil state)
  | cons _ returned _ inductionHypothesis =>
      have settles := performed_settles valid returned
      exact (settles.trans (inductionHypothesis settles.valid)).congr
        (givesBack_cons returned).symm

/-- After any number of requests the ledger is the same if and only if each
callback has given everything back. -/
theorem ledger_same_iff (valid : first.2.Valid)
    (run : Run performed (fun _ _ => True) first activities last) :
    last.2.ledger.live = first.2.ledger.live ↔
      Run performed (fun state next => next.GivesBack state) first activities last :=
  (run_settles valid run).same_iff

end Runs

/-! ## Datagrams to a server without clients -/

theorem Heap.initial_valid : Heap.initial.Valid :=
  fun _ absent => by cases absent

/-- A heartbeat without a client. -/
def heartbeatDatagram : List UInt8 :=
  [0, 0, 0, 9, 0, 0, 0, 5, 0x94, 1, 11, 1, 1]

private theorem heartbeatDatagram_performed :
    ∃ last, performed (World.started, Heap.initial) (.datagram heartbeatDatagram) =
        some last ∧
      last.2.ledger.live = ∅ := by
  refine ⟨_, rfl, ?_⟩
  rfl

theorem ledger_same_iff_heartbeat :
    ∃ last,
      Run performed (fun state next => next.GivesBack state)
        (World.started, Heap.initial) [.datagram heartbeatDatagram] last := by
  obtain ⟨last, returned, empty⟩ := heartbeatDatagram_performed
  have run : Run performed (fun _ _ => True) (World.started, Heap.initial)
      [.datagram heartbeatDatagram] last :=
    .single trivial returned
  exact ⟨last, (ledger_same_iff Heap.initial_valid run).mp empty⟩

/-- A datagram that announces another length leaves its buffer behind, and a click
its parameters. -/
theorem requests_leak :
    (∃ last, performed (World.started, Heap.initial) (.datagram [0, 0, 0, 1]) =
          some last ∧
        last.2.ledger.live = {0}) ∧
      ∃ last, performed (World.started, Heap.initial) (.datagram clickDatagram) =
          some last ∧
        last.2.ledger.live = {1} := by
  refine ⟨⟨_, rfl, ?_⟩, _, rfl, ?_⟩
  · rfl
  · rfl

end MouseHero
