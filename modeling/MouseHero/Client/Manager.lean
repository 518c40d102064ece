import MouseHero.Input.MouseFilter
import MouseHero.Library.ChainedTable
import Mathlib.Data.List.FinRange

/-!
# The client manager

`ya_client_manager.c`.  A bucket is the chain of the clients linked from it,
and a client is identified by its address.  The clients in the chains are all
the clients there are: a client enters a chain when it is allocated and leaves
it when it is freed.
-/

namespace MouseHero

/-- The address of a client. -/
abbrev ClientId := Nat

/-- The address of a bufferevent. -/
abbrev BevId := Nat

/-- `YA_CLIENT_HASH_SIZE`. -/
def YA_CLIENT_HASH_SIZE : Nat := 251

/-- `ya_client_state_t`. -/
inductive YaClientState where
  | active
  | disconnecting
  | disconnected
  deriving DecidableEq, Repr

/-- `ya_client_t`, without the link to the next client of its chain. -/
structure YaClient (F : Type) where
  addr : ClientId
  fd : Int
  uid : UInt32
  commandIndex : Int32
  refCount : UInt32
  state : YaClientState
  bev : Option BevId
  mouseFilter : Option (YaMouseFilter F)
  connectedAt : Int
  protocolVersion : UInt32
  deriving DecidableEq, Repr

abbrev Bucket := Fin YA_CLIENT_HASH_SIZE

/-- `ya_client_manager_t`. -/
structure YaClientManager (F : Type) where
  buckets : Bucket → List (YaClient F)
  clientCount : UInt32
  nextUid : UInt32

/-- What the system provides to `ya_client_create`: the allocated memory, if
there is any, the mouse filter, if it could be allocated, and the time. -/
structure ClientResources (F : Type) where
  memory : Option ClientId
  mouseFilter : Option (YaMouseFilter F)
  time : Int
  deriving DecidableEq, Repr

variable {F : Type}

/-- `hash_uid`. -/
def hashUid (uid : UInt32) : Bucket :=
  ⟨uid.toNat % YA_CLIENT_HASH_SIZE, Nat.mod_lt _ (by decide)⟩

/-- The bucket of a client. -/
def YaClient.bucket (client : YaClient F) : Bucket :=
  hashUid client.uid

namespace YaClientManager

/-- The clients of all chains, bucket by bucket. -/
def clients (manager : YaClientManager F) : List (YaClient F) :=
  (List.finRange YA_CLIENT_HASH_SIZE).flatMap manager.buckets

/-- Follow a pointer to a client. -/
def deref (manager : YaClientManager F) (client : ClientId) :
    Option (YaClient F) :=
  manager.clients.find? fun other => other.addr = client

/-- Write to the client at an address. -/
def write (manager : YaClientManager F) (client : ClientId)
    (change : YaClient F → YaClient F) : YaClientManager F :=
  { manager with
    buckets := ChainedTable.update
      (fun other => if other.addr = client then change other else other)
      manager.buckets }

/-- Take the client at an address out of its chain and free it. -/
def unlink (manager : YaClientManager F) (bucket : Bucket)
    (client : ClientId) : YaClientManager F :=
  { manager with
    buckets := ChainedTable.unlink (fun entry => entry.addr = client) bucket
      manager.buckets
    clientCount := manager.clientCount - 1 }

end YaClientManager

/-- `ya_client_manager_init`. -/
def yaClientManagerInit : YaClientManager F where
  buckets := fun _ => []
  clientCount := 0
  nextUid := 1

/-- `ya_client_manager_cleanup`: the emptied manager and the bufferevents that
are freed on the way. -/
def yaClientManagerCleanup (manager : YaClientManager F) :
    YaClientManager F × List BevId :=
  ({ buckets := fun _ => [], clientCount := 0, nextUid := 1 },
    manager.clients.filterMap fun client => client.bev)

/-- `ya_client_create`: the manager and the new client, if it was created. -/
def yaClientCreate (manager : YaClientManager F) (fd : Int)
    (bev : Option BevId) (resources : ClientResources F) :
    YaClientManager F × Option (YaClient F) :=
  if bev.isNone ∨ fd < 0 then
    (manager, none)
  else
    match resources.memory with
    | none => (manager, none)
    | some addr =>
        let uid := if manager.nextUid = 0 then 1 else manager.nextUid
        let nextUid := if uid + 1 = 0 then 1 else uid + 1
        let client : YaClient F := {
          addr, fd, uid, bev
          commandIndex := 0
          refCount := 1
          state := .active
          mouseFilter := resources.mouseFilter
          connectedAt := resources.time
          protocolVersion := 0
        }
        ({ buckets := ChainedTable.insert YaClient.bucket manager.buckets client
           clientCount := manager.clientCount + 1
           nextUid },
          some client)

/-- The test of `ya_client_find_by_uid` on an entry of the chain. -/
def YaClient.hasUid (uid : UInt32) (client : YaClient F) : Bool :=
  client.uid = uid && client.state = .active

/-- `ya_client_find_by_uid`. -/
def yaClientFindByUid (manager : YaClientManager F) (uid : UInt32) :
    Option (YaClient F) :=
  if uid = 0 then none
  else (manager.buckets (hashUid uid)).find? (YaClient.hasUid uid)

/-- The test of `ya_client_find_by_fd` on an entry of a chain. -/
def YaClient.hasFd (fd : Int) (client : YaClient F) : Bool :=
  client.fd = fd && client.state = .active

/-- `ya_client_find_by_fd`. -/
def yaClientFindByFd (manager : YaClientManager F) (fd : Int) :
    Option (YaClient F) :=
  if fd < 0 then none
  else
    (List.finRange YA_CLIENT_HASH_SIZE).findSome? fun bucket =>
      (manager.buckets bucket).find? (YaClient.hasFd fd)

/-- `ya_client_ref`. -/
def yaClientRef (manager : YaClientManager F) (client : ClientId) :
    YaClientManager F :=
  manager.write client fun entry =>
    { entry with refCount := entry.refCount + 1 }

/-- `ya_client_unref` of the client that is stored as `entry`: the manager and
the bufferevent that is freed with the client, if there is one. -/
def yaClientUnref (manager : YaClientManager F) (entry : YaClient F) :
    YaClientManager F × Option BevId :=
  if 0 < entry.refCount then
    let refCount := entry.refCount - 1
    let manager :=
      manager.write entry.addr fun entry => { entry with refCount }
    if refCount = 0 ∧ entry.state = .disconnected then
      let bucket := entry.bucket
      if (manager.buckets bucket).any fun other => other.addr = entry.addr then
        (manager.unlink bucket entry.addr, entry.bev)
      else
        (manager, none)
    else
      (manager, none)
  else
    (manager, none)

/-- `ya_client_remove`: the manager and the bufferevent that is freed. -/
def yaClientRemove (manager : YaClientManager F) (uid : UInt32) :
    YaClientManager F × Option BevId :=
  if uid = 0 then (manager, none)
  else
    let bucket := hashUid uid
    match (manager.buckets bucket).find? fun client => client.uid = uid with
    | none => (manager, none)
    | some entry =>
        let marked :=
          manager.write entry.addr fun entry =>
            { entry with state := .disconnected }
        if entry.refCount = 0 then
          (marked.unlink bucket entry.addr, entry.bev)
        else
          (marked, none)

/-- `ya_client_get_count`. -/
def yaClientGetCount (manager : YaClientManager F) : UInt32 :=
  (List.finRange YA_CLIENT_HASH_SIZE).foldl
    (fun count bucket =>
      (manager.buckets bucket).foldl
        (fun count client =>
          if client.state = .active then count + 1 else count) count) 0

end MouseHero
