import MouseHero.Client.Manager
import MouseHero.Event.Codec
import MouseHero.Input.Keyboard
import MouseHero.Input.MouseThrottle

/-!
# The state of the server

`svr_context` as far as the handlers read it, the bufferevents, the throttle
and the devices, and the operations on them.  Next to the state of the program
the world keeps a record of the calls of `process_server_event`.
-/

namespace MouseHero

open FaultM

/-- `struct bufferevent`: the socket and the two buffers. -/
structure Bufferevent where
  fd : Int
  input : List UInt8
  output : List UInt8
  deriving DecidableEq, Repr

/-- The counters of `ya_server_stats_t` that connections change. -/
structure YaServerStats where
  totalConnections : UInt32
  activeConnections : UInt32
  deriving DecidableEq, Repr

/-- A call of `process_server_event`, and whether it has run the handler. -/
structure ServerCall (F : Type) where
  bev : Option BevId
  event : YAEvent F
  client : Option ClientId
  executed : Bool
  deriving DecidableEq, Repr

/-- Ports are in host order; `clock` is what the monotonic clock reads, and
`sent` and `calls` have the latest entry first. -/
structure World (F : Type) where
  manager : YaClientManager F
  bevs : BevId → Option Bufferevent
  throttle : YAMouseThrottleState
  sessionPort : UInt16
  commandPort : UInt16
  macsCsv : CString
  stats : YaServerStats
  devices : Devices
  clock : Timespec
  primaryScale : F
  sent : List (List UInt8)
  calls : List (ServerCall F)

/-- A server that has just started, on a machine on which every operation
succeeds and the clipboard is empty. -/
def World.started : World Rat where
  manager := yaClientManagerInit
  bevs := fun _ => none
  throttle := .initial
  sessionPort := 8080
  commandPort := 8081
  macsCsv := none
  stats := { totalConnections := 0, activeConnections := 0 }
  devices := {
    platform := {
      backendStatus := fun _ => 0
      serviceStatus := fun _ => .success
      exitStatus := fun _ => 0
      clipboardText := fun _ => none
      xkbKeymap := fun _ => none }
    clipboardConfig := { enabled := true, useCtrlV := false }
    trace := [] }
  clock := { sec := 0, nsec := 0 }
  primaryScale := 1
  sent := []
  calls := []

theorem World.started_clients : World.started.manager.clients = [] :=
  List.flatMap_eq_nil_iff.mpr fun _ _ => rfl

/-- The client of the first connection, at the address 8, with its bufferevent
at the address 16. -/
def YaClient.first : YaClient Rat where
  addr := 8
  fd := 5
  uid := 1
  commandIndex := 0
  refCount := 1
  state := .active
  bev := some 16
  mouseFilter := none
  connectedAt := 0
  protocolVersion := 0

/-- The same server with its first connection. -/
def World.connected : World Rat :=
  { World.started with
    manager := (yaClientCreate yaClientManagerInit 5 (some 16)
      { memory := some 8, mouseFilter := none, time := 0 }).1
    bevs := fun bev =>
      if bev = 16 then some { fd := 5, input := [], output := [] } else none }

theorem World.connected_deref :
    World.connected.manager.deref 8 = some YaClient.first := by
  rfl

/-- Computations of the server. -/
abbrev ServerM (F : Type) := FaultM Fault (World F)

variable {F : Type} {Answer : Type}

/-- A computation on the devices. -/
def onDevices (computation : DeviceM Answer) : ServerM F Answer :=
  within World.devices (fun devices world => { world with devices })
    computation

def recordCall (call : ServerCall F) : ServerM F Unit :=
  modifyState fun world => { world with calls := call :: world.calls }

def setThrottle (throttle : YAMouseThrottleState) : ServerM F Unit :=
  modifyState fun world => { world with throttle }

/-! ## Clients -/

/-- Read the client a pointer leads to. -/
def derefClient (client : ClientId) : ServerM F (YaClient F) := do
  let world ← getState
  match world.manager.deref client with
  | some entry => pure entry
  | none => fault .useAfterFree

def writeClient (client : ClientId) (change : YaClient F → YaClient F) :
    ServerM F Unit :=
  modifyState fun world =>
    { world with manager := world.manager.write client change }

/-! ## Bufferevents -/

/-- Read the bufferevent a pointer leads to. -/
def derefBev (bev : Option BevId) : ServerM F Bufferevent := do
  match bev with
  | none => fault .nullDereference
  | some bev =>
      let world ← getState
      match world.bevs bev with
      | some contents => pure contents
      | none => fault .useAfterFree

/-- `bufferevent_getfd`. -/
def buffereventGetfd (bev : Option BevId) : ServerM F Int := do
  let contents ← derefBev bev
  return contents.fd

/-- Change what is stored at an address. -/
def World.setBev (world : World F) (bev : BevId)
    (contents : Option Bufferevent) : World F :=
  { world with
    bevs := fun other => if other = bev then contents else world.bevs other }

/-- Bytes arrive in the input buffer of a bufferevent. -/
def World.arrive (world : World F) (bev : BevId) (chunk : List UInt8) :
    World F :=
  match world.bevs bev with
  | none => world
  | some contents =>
      world.setBev bev
        (some { contents with input := contents.input ++ chunk })

theorem World.arrive_manager (world : World F) (bev : BevId)
    (chunk : List UInt8) :
    (world.arrive bev chunk).manager = world.manager := by
  unfold World.arrive
  cases world.bevs bev with
  | none => rfl
  | some contents => rfl

def writeBev (bev : BevId) (change : Bufferevent → Bufferevent) :
    ServerM F Unit := do
  let contents ← derefBev (some bev)
  modifyState fun world => world.setBev bev (some (change contents))

/-- `bufferevent_free`. -/
def buffereventFree (bev : BevId) : ServerM F Unit := do
  let world ← getState
  match world.bevs bev with
  | some _ => modifyState fun world => world.setBev bev none
  | none => fault .doubleFree

end MouseHero
