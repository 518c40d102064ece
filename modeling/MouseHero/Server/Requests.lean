import MouseHero.Server.Reassembly
import MouseHero.Server.Sessions

/-!
# Requests on a connection

Where a read callback calls the dispatcher: the frame is taken from the buffer,
the client is referenced once more, and nothing else has changed.
-/

namespace MouseHero

open FaultM YaClientManager

variable {F : Type} [CFloat F]

/-- The read callback of the connection hands a request to the dispatcher, in
the world that it has reached then. -/
def World.HandsOver (world : World F) (connection : Connection)
    (request : YAEvent F) (reached : World F) : Prop :=
  ∃ entry contents parsed,
    world.manager.deref connection.client = some entry ∧
      entry.state = .active ∧
      world.bevs connection.bev = some contents ∧
      frameArrived contents.input = true ∧
      yaParseEvent (evbufferDrain contents.input 8) YAEvent.zero
          (packageSize contents.input) =
        .ok parsed ∧
      ¬ parsed.status < 0 ∧
      request = parsed.event ∧
      reached =
        { world.setBev connection.bev
            (some { contents with input := parsed.buf }) with
          manager := yaClientRef world.manager connection.client }

section Requests

variable {world reached : World F} {connection : Connection}
variable {request : YAEvent F}

/-- The clients are referenced, but not changed otherwise. -/
theorem World.HandsOver.clients
    (hands : world.HandsOver connection request reached) :
    reached.manager = yaClientRef world.manager connection.client := by
  obtain ⟨entry, contents, parsed, -, -, -, -, -, -, -, rfl⟩ := hands
  rfl

theorem World.HandsOver.keepsOwners
    (hands : world.HandsOver connection request reached) :
    world.KeepsOwners reached := by
  obtain ⟨entry, contents, parsed, -, -, buffered, -, -, -, -, rfl⟩ := hands
  refine ⟨(yaClientRef_view owner_refCount _ _).symm, fun bev => ?_, rfl⟩
  by_cases same : bev = connection.bev
  · rw [same, buffered]
    simp [World.setBev]
  · simp [World.setBev, same]

theorem connReadcb_of_handsOver
    (hands : world.HandsOver connection request reached) :
    connReadcb connection.bev (some connection.client) world =
      (do
        let response ←
          processServerEvent (some connection.bev) request
            (some connection.client)
        respond connection.bev response
        unrefClient connection.client) reached := by
  obtain ⟨entry, contents, parsed, stored, active, buffered, arrived, parsing,
    accepted, rfl, rfl⟩ := hands
  rw [connReadcb_parses stored active buffered arrived parsing, if_neg accepted,
    serveRequest, bind_of_ok (modifyState_apply _ _)]
  rfl

/-- A callback that hands over nothing leaves the clients alone. -/
theorem connReadcb_handsOver_or (serves : world.Serves connection) :
    (∃ request reached, world.HandsOver connection request reached) ∨
      (connReadcb connection.bev (some connection.client) world).2.manager =
        world.manager := by
  obtain ⟨entry, contents, served⟩ := serves.client
  cases arrived : frameArrived contents.input with
  | false =>
      rw [connReadcb_early served.stored served.active served.buffered arrived]
      exact Or.inr rfl
  | true =>
      cases parsing :
          (yaParseEvent (evbufferDrain contents.input 8) YAEvent.zero
            (packageSize contents.input) :
            Except Fault (ParsedEvent F)) with
      | error reason =>
          rw [connReadcb_stops served.stored served.active served.buffered
            arrived parsing]
          exact Or.inr rfl
      | ok parsed =>
          by_cases refused : parsed.status < 0
          · rw [connReadcb_parses served.stored served.active served.buffered
              arrived parsing, if_pos refused]
            exact Or.inr rfl
          · exact Or.inl ⟨_, _, entry, contents, parsed, served.stored,
              served.active, served.buffered, arrived, parsing, refused, rfl,
              rfl⟩

end Requests

end MouseHero
