import MouseHero.Server.Handler

/-!
# The session server

The callbacks of `ya_server_session.c` on the TCP connections.
-/

namespace MouseHero

open FaultM

variable {F : Type} [CFloat F]

/-- `ya_client_unref` through a pointer. -/
def unrefClient (client : ClientId) : ServerM F Unit := do
  let entry ← derefClient client
  let world ← getState
  let (manager, freed) := yaClientUnref world.manager entry
  modifyState fun world => { world with manager }
  match freed with
  | none => return ()
  | some bev => buffereventFree bev

/-- `ya_server_stats_inc_connections`. -/
def yaServerStatsIncConnections : ServerM F Unit :=
  modifyState fun world =>
    { world with stats := {
        totalConnections := world.stats.totalConnections + 1
        activeConnections := world.stats.activeConnections + 1 } }

/-- `ya_server_stats_dec_connections`. -/
def yaServerStatsDecConnections : ServerM F Unit :=
  modifyState fun world =>
    { world with stats := {
        totalConnections := world.stats.totalConnections
        activeConnections :=
          if 0 < world.stats.activeConnections then
            world.stats.activeConnections - 1
          else world.stats.activeConnections } }

/-- `accept_cb`: the new client, which is the argument of the callbacks of the
connection, if it could be created.  `bev` is what `bufferevent_socket_new`
returns. -/
def acceptCb (fd : Int) (bev : Option BevId) (resources : ClientResources F) :
    ServerM F (Option ClientId) := do
  match bev with
  | none => return none
  | some bev =>
      modifyState fun world =>
        world.setBev bev (some { fd, input := [], output := [] })
      let world ← getState
      let (manager, client) :=
        yaClientCreate world.manager fd (some bev) resources
      modifyState fun world => { world with manager }
      match client with
      | none =>
          buffereventFree bev
          return none
      | some client =>
          yaServerStatsIncConnections
          return some client.addr

/-- The test of `conn_readcb` that the frame in front is complete.  The length
of the buffer is converted to `int` and compared as an unsigned integer with a
32-bit sum. -/
def frameArrived (input : List UInt8) : Bool :=
  !(UInt32.ofNat input.length < (packageSize input).totalSize + 4)

/-- Append what `ya_serialize_event` returns for a response to the output. -/
def respond (bev : BevId) (response : Option (YAEvent F)) :
    ServerM F Unit := do
  match response with
  | none => return ()
  | some response =>
      match yaSerializeEvent response with
      | .error reason => fault reason
      | .ok serialized =>
          match serialized.out with
          | none => return ()
          | some rsp =>
              writeBev bev fun contents =>
                { contents with
                  output :=
                    contents.output ++ rsp.take (sizeOfInt serialized.length) }

/-- A response is dropped, stops at its parameters, or is appended. -/
theorem respond_cases (bev : BevId) (response : Option (YAEvent F)) :
    respond bev response = pure () ∨
      (∃ (event : YAEvent F) (reason : Fault),
        yaSerializeEvent event = .error reason ∧
          respond bev response = fault reason) ∨
      ∃ bytes,
        respond bev response =
          writeBev bev fun contents =>
            { contents with output := contents.output ++ bytes } := by
  cases response with
  | none => exact Or.inl rfl
  | some response =>
      cases serializing : yaSerializeEvent response with
      | error reason =>
          refine Or.inr (Or.inl ⟨response, reason, serializing, ?_⟩)
          simp only [respond, serializing]
      | ok serialized =>
          cases out : serialized.out with
          | none =>
              left
              simp only [respond, serializing, out]
          | some rsp =>
              right
              right
              refine ⟨rsp.take (sizeOfInt serialized.length), ?_⟩
              simp only [respond, serializing, out]

/-- A parsed request of the client of the connection. -/
def serveRequest (bev : BevId) (client : ClientId) (request : YAEvent F) :
    ServerM F Unit := do
  modifyState fun world =>
    { world with manager := yaClientRef world.manager client }
  let response ← processServerEvent (some bev) request (some client)
  respond bev response
  unrefClient client

/-- `conn_readcb`. -/
def connReadcb (bev : BevId) (client : Option ClientId) :
    ServerM F Unit := do
  match client with
  | none => return ()
  | some client =>
      let entry ← derefClient client
      if entry.state ≠ .active then
        return ()
      else
        let contents ← derefBev (some bev)
        match yaGetPackageSize contents.input with
        | .error reason => fault reason
        | .ok size =>
            if frameArrived contents.input then
              match yaParseEvent (evbufferDrain contents.input 8) YAEvent.zero
                  size with
              | .error reason => fault reason
              | .ok parsed =>
                  writeBev bev fun contents =>
                    { contents with input := parsed.buf }
                  if parsed.status < 0 then
                    return ()
                  else
                    serveRequest bev client parsed.event
            else
              return ()

/-- `conn_eventcb` for the end of a connection or an error on it. -/
def connEventcb (client : Option ClientId) : ServerM F Unit := do
  match client with
  | none => return ()
  | some client =>
      let entry ← derefClient client
      yaServerStatsDecConnections
      writeClient client fun entry => { entry with state := .disconnecting }
      match entry.bev with
      | none => unrefClient client
      | some bev =>
          buffereventFree bev
          writeClient client fun entry => { entry with bev := none }
          unrefClient client

end MouseHero
