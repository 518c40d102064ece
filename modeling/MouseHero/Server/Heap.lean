import MouseHero.Library.Ledger
import MouseHero.Library.Mirrors
import MouseHero.Server.Command
import MouseHero.Server.Session

/-!
# The heap objects of a request

`udp_readcb` and `conn_readcb` with the objects that they take: the buffer of a
datagram, the decoded parameters, the response and its strings, the buffers of
`ya_serialize_event` and the message of `authorize`.  Client records and
bufferevents are not among them.
-/

namespace MouseHero

open FaultM

/-- The ledger, and the object that `AUTHORIZE_ERROR` points to. -/
structure Heap where
  ledger : Ledger
  authorizeError : Option Nat

/-- The heap of a server that has served no request. -/
def Heap.initial : Heap where
  ledger := .empty
  authorizeError := none

abbrev HeapM := FaultM Fault Heap

/-- Computations of the server that record what they allocate. -/
abbrev LedgerM (F : Type) := FaultM Fault (World F × Heap)

def malloc : HeapM Nat := do
  let heap ← getState
  modifyState fun heap => { heap with ledger := heap.ledger.allocate }
  return heap.ledger.next

/-- `free`, which does nothing for the null pointer. -/
def free (pointer : Option Nat) : HeapM Unit := do
  match pointer with
  | none => return ()
  | some address =>
      let heap ← getState
      if address ∈ heap.ledger.live then
        modifyState fun heap =>
          { heap with ledger := heap.ledger.release address }
      else fault .doubleFree

/-! ## Events -/

/-- An event on the heap, with the objects it owns. -/
structure HeapEvent (F : Type) where
  event : YAEvent F
  address : Nat
  param : Option Nat
  text : Option Nat

variable {F : Type}

/-- `ya_free_event_param`.  For two of the types only the text is freed. -/
def yaFreeEventParam (event : HeapEvent F) : HeapM Unit := do
  match event.param with
  | none => return ()
  | some param =>
      match YAEventType.ofCode? event.event.header.type with
      | some .textInput | some .textGet => free event.text
      | some .authorize =>
          if event.event.header.direction = RESPONSE then
            free event.text
            free (some param)
          else free (some param)
      | _ => free (some param)

/-- `ya_free_event`. -/
def yaFreeEvent (event : Option (HeapEvent F)) : HeapM Unit := do
  match event with
  | none => return ()
  | some event =>
      yaFreeEventParam event
      free (some event.address)

variable [CFloat F]

/-! ## Parsers and serializers -/

/-- What a parser allocates for the parameters: a structure, and the text in
front of it. -/
def mallocParam (param : Option (YAParam F)) : HeapM Unit := do
  match param with
  | none => return ()
  | some (.textInput _) | some (.inputGet _) =>
      let _ ← malloc
      let _ ← malloc
      return ()
  | some _ =>
      let _ ← malloc
      return ()

/-- `ya_parse_event`.  The request is on the stack, and nothing but the request
leads to its parameters. -/
def yaParseEventHeap (buf : List UInt8) (event : YAEvent F)
    (size : YAPackageSize) : LedgerM F (ParsedEvent F) := do
  match bodyStage buf size with
  | .error reason => fault reason
  | .ok (.refused buf) => return { status := -1, buf, event }
  | .ok (.noBody header buf) =>
      return { status := 0, buf, event := { event with header } }
  | .ok (.body header payload buf) =>
      match callParser header payload (sizeOfInt (contentLen size)) with
      | .error reason => fault reason
      | .ok result =>
          onRecord (mallocParam result.outParam)
          if result.status < 0 then
            return { status := -1, buf, event }
          else
            return {
              status := 0
              buf := evbufferDrain buf (sizeOfInt (contentLen size))
              event := {
                header
                param := result.outParam
                paramLen := result.outLen } }

/-- `ya_serialize_event`: what it returns, and the object at `*out`. -/
def yaSerializeEventHeap (event : YAEvent F) :
    HeapM (SerializedEvent × Option Nat) := do
  let bodyBuf ← malloc
  match serializeBody event with
  | .error reason => fault reason
  | .ok (status, body) =>
      if status < 0 then
        return ({ length := -1, out := none }, none)
      else
        let hdrBuf ← malloc
        let header := serializeEventHeader event.header
        let total := header.length + body.length + 4
        let totalWithSize := (Int32.ofNat (total + 4)).toInt
        if totalWithSize < 0 then
          fault .nullDereference
        else if totalWithSize < total + 4 then
          fault .outOfBoundsWrite
        else
          let out ← malloc
          free (some bodyBuf)
          free (some hdrBuf)
          return ({
            length := totalWithSize
            out := some (frameBytes header body) }, some out)

/-! ## Handlers -/

abbrev HeapHandlerFn (F : Type) :=
  Option BevId → YAEvent F → LedgerM F (Option (HeapEvent F))

/-- `assign_response`, with the parameters as they are before the caller fills
them in. -/
def assignResponseHeap (requestEvent : YAEvent F) (param : Option (YAParam F)) :
    HeapM (HeapEvent F) := do
  let address ← malloc
  match param with
  | none =>
      return {
        event := assignResponse requestEvent none
        address
        param := none
        text := none }
  | some param =>
      let pointer ← malloc
      return {
        event := assignResponse requestEvent (some param)
        address
        param := some pointer
        text := none }

/-- The response with its parameters, and the string that they own. -/
def HeapEvent.filled (response : HeapEvent F) (param : YAParam F)
    (text : Option Nat) : HeapEvent F :=
  { response with
    event := { response.event with param := some param }
    text }

/-- A handler that takes nothing and answers nothing. -/
def quiet (handling : ServerM F (Option (YAEvent F))) :
    LedgerM F (Option (HeapEvent F)) := do
  let _ ← unrecorded handling
  return none

/-- `authorize`, which keeps a message when it refuses. -/
def authorizeHeap (param : YAAuthorizeEventRequest) : HeapM Bool := do
  let heap ← getState
  free heap.authorizeError
  modifyState fun heap => { heap with authorizeError := none }
  if authorize param then
    return true
  else
    let message ← malloc
    modifyState fun heap => { heap with authorizeError := some message }
    return false

/-- The parameters of an authorization that has not been answered. -/
def zeroAuthorization : YAAuthorizeEventResponse F where
  success := false
  osType := 0
  uid := 0
  sessionPort := 0
  commandPort := 0
  macs := none
  displayScale := CFloat.constant 0
  clientVersion := 0

/-- `handle_authorize`. -/
def handleAuthorizeHeap : HeapHandlerFn F := fun bev event => do
  match event.param with
  | none => return none
  | some (.authorizeRequest request) =>
      let response ← onRecord
        (assignResponseHeap event (some (.authorizeResponse zeroAuthorization)))
      let success ← onRecord (authorizeHeap request)
      if success then
        let fd ← unrecorded (buffereventGetfd bev)
        let world ← unrecorded getState
        match yaClientFindByFd world.manager fd with
        | none =>
            match bev with
            | some bev =>
                onRecord (yaFreeEvent (some response))
                unrecorded (buffereventFree bev)
                return none
            | none => fault .nullDereference
        | some client =>
            unrecorded (writeClient client.addr fun entry =>
              { entry with
                bev
                protocolVersion := request.version
                mouseFilter := entry.mouseFilter.map fun filter =>
                  yaMouseFilterSetAlgorithmsEnabled filter true })
            let macs ← onRecord malloc
            return some (response.filled
              (.authorizeResponse (grantedAuthorization world client request))
              (some macs))
      else
        let macs ← onRecord malloc
        return some (response.filled
          (.authorizeResponse (refusedAuthorization request)) (some macs))
  | some _ => fault .paramType

/-- `handle_heartbeat`. -/
def handleHeartbeatHeap : HeapHandlerFn F := fun _ event => do
  let response ← onRecord (assignResponseHeap event none)
  return some response

/-- `handle_input_get`.  The text of the clipboard is an object, too. -/
def handleInputGetHeap : HeapHandlerFn F := fun _ event => do
  let response ← onRecord
    (assignResponseHeap event (some (.inputGet { text := none })))
  match ← unrecorded (onDevices copySelection) with
  | none =>
      onRecord (yaFreeEvent (some response))
      return none
  | some text =>
      let clipboardText ← onRecord malloc
      let copy ← onRecord malloc
      onRecord (free (some clipboardText))
      return some (response.filled
        (.inputGet { text := some (cString text) }) (some copy))

/-- `handle_poweroff`, `handle_restart` and `handle_sleep`. -/
def handlePowerHeap (script command : String) : HeapHandlerFn F :=
  fun _ event => do
    let response ← onRecord (assignResponseHeap event none)
    let ret ← unrecorded (onDevices (yaRunPowerScript script))
    if ret ≠ 0 then
      let _ ← unrecorded (onDevices (system command))
      return some response
    else
      return some response

/-- `handle_control`. -/
def handleControlHeap : HeapHandlerFn F := fun bev event => do
  match event.param with
  | none => return none
  | some (.common request) =>
      if request.lparam = CONTROL_OP_SHUTDOWN then
        handlePowerHeap "poweroff" "shutdown -h now" bev event
      else if request.lparam = CONTROL_OP_RESTART then
        handlePowerHeap "restart" "reboot" bev event
      else if request.lparam = CONTROL_OP_SLEEP then
        handlePowerHeap "sleep" "systemctl suspend" bev event
      else
        let response ← onRecord (assignResponseHeap event none)
        return some response
  | some _ => fault .paramType

/-- `handle_discover`. -/
def handleDiscoverHeap : HeapHandlerFn F := fun _ event => do
  match event.param with
  | none => fault .nullDereference
  | some (.discoverRequest request) =>
      if request.magic ≠ DISCOVERY_MAGIC then
        return none
      else
        let response ← onRecord
          (assignResponseHeap event
            (some (.discoverResponse { magic := 0, port := 0 })))
        let world ← unrecorded getState
        return some (response.filled
          (.discoverResponse
            { magic := DISCOVERY_MAGIC, port := world.sessionPort }) none)
  | some _ => fault .paramType

/-- The table `event_handlers`. -/
def eventHandlerHeap : YAEventType → HeapHandlerFn F
  | .mouseMove => fun bev event => quiet (handleMouseMove bev event)
  | .mouseStop => fun bev event => quiet (handleMouseStop bev event)
  | .mouseClick => fun bev event => quiet (handleMouseClick bev event)
  | .mouseWheel => fun bev event => quiet (handleMouseScroll bev event)
  | .keyboard => fun bev event => quiet (handleKeyboard bev event)
  | .textInput => fun bev event => quiet (handleInputText bev event)
  | .textGet => handleInputGetHeap
  | .discover => handleDiscoverHeap
  | .authorize => handleAuthorizeHeap
  | .heartbeat => handleHeartbeatHeap
  | .sessionOption => fun bev event => quiet (handleSessionOption bev event)
  | .control => handleControlHeap

/-- `process_server_event`. -/
def processServerEventHeap (bev : Option BevId) (event : YAEvent F)
    (client : Option ClientId) : LedgerM F (Option (HeapEvent F)) := do
  match YAEventType.ofCode? event.header.type with
  | none =>
      unrecorded (recordCall { bev, event, client, executed := false })
      return none
  | some type =>
      let executed ← unrecorded (validateCommandIndex client event)
      unrecorded (recordCall { bev, event, client, executed })
      if executed then eventHandlerHeap type bev event else return none

/-! ## Callbacks -/

/-- Serialize a response, hand the bytes on and free them. -/
def answerHeap (deliver : SerializedEvent → List UInt8 → ServerM F Unit)
    (response : Option (HeapEvent F)) : LedgerM F Unit := do
  match response with
  | none => return ()
  | some response =>
      let (serialized, rsp) ← onRecord (yaSerializeEventHeap response.event)
      match serialized.out with
      | none => return ()
      | some bytes =>
          unrecorded (deliver serialized bytes)
          onRecord (free rsp)

/-- `udp_readcb`. -/
def udpReadcbHeap (datagram : List UInt8) : LedgerM F Unit := do
  let evbuffer ← onRecord malloc
  let input := datagram.take 2048
  match yaGetPackageSize input with
  | .error reason => fault reason
  | .ok size =>
      if UInt32.ofNat input.length ≠ size.totalSize + 4 then
        return ()
      else
        let parsed ← yaParseEventHeap (evbufferDrain input 8) YAEvent.zero size
        if parsed.status < 0 then
          return ()
        else
          let world ← unrecorded getState
          let response ← processServerEventHeap none parsed.event
            (requestClient world parsed.event)
          answerHeap (fun serialized rsp => modifyState fun world =>
            { world with
              sent := rsp.take (sizeOfInt serialized.length) :: world.sent })
            response
          onRecord (yaFreeEvent response)
          onRecord (free (some evbuffer))

/-- `conn_readcb`. -/
def connReadcbHeap (bev : BevId) (client : Option ClientId) :
    LedgerM F Unit := do
  match client with
  | none => return ()
  | some client =>
      let entry ← unrecorded (derefClient client)
      if entry.state ≠ .active then
        return ()
      else
        let contents ← unrecorded (derefBev (some bev))
        match yaGetPackageSize contents.input with
        | .error reason => fault reason
        | .ok size =>
            if frameArrived contents.input then
              let parsed ← yaParseEventHeap (evbufferDrain contents.input 8)
                YAEvent.zero size
              unrecorded (writeBev bev fun contents =>
                { contents with input := parsed.buf })
              if parsed.status < 0 then
                return ()
              else
                unrecorded (modifyState fun world =>
                  { world with manager := yaClientRef world.manager client })
                let response ←
                  processServerEventHeap (some bev) parsed.event (some client)
                answerHeap (fun serialized rsp => writeBev bev fun contents =>
                  { contents with
                    output := contents.output ++
                      rsp.take (sizeOfInt serialized.length) }) response
                onRecord (yaFreeEvent response)
                unrecorded (unrefClient client)
            else
              return ()

end MouseHero
