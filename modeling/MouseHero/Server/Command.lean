import MouseHero.Server.Handler

/-!
# The command server

The callback of `ya_server_command.c` on the UDP socket.
-/

namespace MouseHero

open FaultM

variable {F : Type} [CFloat F]

/-- The part of `udp_readcb` that receives: the datagram, cut to the size of
the receive buffer, is one frame whose event is parsed. -/
def udpReceive (datagram : List UInt8) : Except Fault (Option (YAEvent F)) :=
  let input := datagram.take 2048
  match yaGetPackageSize input with
  | .error reason => .error reason
  | .ok size =>
      if UInt32.ofNat input.length ≠ size.totalSize + 4 then
        .ok none
      else
        match yaParseEvent (evbufferDrain input 8) YAEvent.zero size with
        | .error reason => .error reason
        | .ok parsed =>
            if parsed.status < 0 then .ok none else .ok (some parsed.event)

/-- Send what `ya_serialize_event` returns for a response. -/
def sendResponse (response : Option (YAEvent F)) : ServerM F Unit := do
  match response with
  | none => return ()
  | some response =>
      match yaSerializeEvent response with
      | .error reason => fault reason
      | .ok serialized =>
          match serialized.out with
          | none => return ()
          | some rsp =>
              modifyState fun world =>
                { world with
                  sent := rsp.take (sizeOfInt serialized.length) :: world.sent }

/-- `get_client_by_id` for the `uid` of a request. -/
def requestClient (world : World F) (request : YAEvent F) :
    Option ClientId :=
  (yaClientFindByUid world.manager request.header.uid).map YaClient.addr

/-- A parsed request is processed without a bufferevent. -/
def serveDatagram (request : YAEvent F) : ServerM F Unit := do
  let world ← getState
  let response ←
    processServerEvent none request (requestClient world request)
  sendResponse response

/-- `udp_readcb`. -/
def udpReadcb (datagram : List UInt8) : ServerM F Unit :=
  match udpReceive datagram with
  | .error reason => fault reason
  | .ok none => return ()
  | .ok (some request) => serveDatagram request

end MouseHero
