import MouseHero.Config.PostBack
import MouseHero.Server.Status

/-!
# The management server

`ya_server_http.c` with the configuration it shares with `main`.  The listener
addresses are pointers into the entries, and `ya_config_set` may move the
entries to another block.
-/

namespace MouseHero

open FaultM MessagePack

variable {F : Type}

/-! ## The entries and the pointers into them -/

/-- `config`, and the block that `config.entries` leads to.  Every block has a
number of its own. -/
structure ConfigTable where
  config : YaConfig
  block : Nat
  deriving DecidableEq, Repr

/-- The value of an entry, by the block it was found in. -/
structure EntryPointer where
  block : Nat
  index : Nat
  deriving DecidableEq, Repr

/-- What a request finds: memory for so many entries and whether `realloc` moves
them, memory for the body, for the response and for its buffer, and a file that
can be opened. -/
structure HttpEnvironment where
  allocates : Nat → Bool
  moves : Nat → Bool
  bodyMemory : Bool
  encodes : Bool
  bufferMemory : Bool
  opens : Bool

/-- `ya_config_get`, as a pointer. -/
def ConfigTable.pointer (table : ConfigTable) (sectionName key : List UInt8) :
    Option EntryPointer :=
  (table.config.entries.findIdx? (YaConfigEntry.isFor sectionName key)).map
    fun index => { block := table.block, index }

/-- The string behind a pointer. -/
def ConfigTable.deref (table : ConfigTable) (pointer : EntryPointer) :
    Except Fault (List UInt8) :=
  if pointer.block ≠ table.block then .error .useAfterFree
  else
    match table.config.entries[pointer.index]? with
    | none => .error .outOfBoundsRead
    | some entry => .ok entry.value.text

/-- `ya_config_set`.  The entries are in another block if they have grown and
`realloc` has moved them. -/
def ConfigTable.set (environment : HttpEnvironment) (table : ConfigTable)
    (setting : SetCall) : ConfigTable :=
  let config := (setting.perform environment.allocates table.config).1
  let moved := config.capacity ≠ table.config.capacity ∧ environment.moves config.capacity
  { config, block := if moved then table.block + 1 else table.block }

/-! ## The server -/

/-- The parts of `svr_context` and the configuration that requests read. -/
structure HttpServer where
  table : ConfigTable
  /-- What `config_file_path` holds. -/
  file : List UInt8
  sessionAddr : EntryPointer
  commandAddr : EntryPointer
  httpAddr : EntryPointer
  deriving DecidableEq, Repr

/-- A listener of `main`: an address that is there, not empty, and understood. -/
def listenerAddr (parses : List UInt8 → Bool) (table : ConfigTable) (sectionName : String) :
    Option EntryPointer :=
  (table.pointer (literal sectionName) (literal "listener")).bind fun pointer =>
    match table.deref pointer with
    | .error _ => none
    | .ok address => if address ≠ [] ∧ parses address then some pointer else none

/-- `main` up to `start_server`, unless it exits. -/
def HttpServer.start (parses : List UInt8 → Bool) (config : YaConfig)
    (file : List UInt8) : Option HttpServer := do
  let table : ConfigTable := { config, block := 0 }
  let sessionAddr ← listenerAddr parses table "session"
  let commandAddr ← listenerAddr parses table "command"
  let httpAddr ← listenerAddr parses table "http"
  return { table, file, sessionAddr, commandAddr, httpAddr }

inductive HttpMethod where
  | get
  | post
  | other
  deriving DecidableEq, Repr

/-- The paths with a callback. -/
inductive HttpPath where
  | command
  | status
  | config
  deriving DecidableEq, Repr

structure HttpRequest where
  method : HttpMethod
  path : HttpPath
  input : List UInt8
  deriving DecidableEq, Repr

/-- What is sent: a MessagePack response, or an error with its reason. -/
inductive HttpReply where
  | ok (response : List UInt8)
  | error (code : Nat) (reason : String)
  deriving DecidableEq, Repr

def HTTP_BADMETHOD : Nat := 405

def HTTP_INTERNAL : Nat := 500

/-- What `handle_status` reads next to the configuration. -/
structure StatusSource (F : Type) where
  state : YaServerState
  manager : YaClientManager F
  peerAddr : Int → List UInt8

/-! ## Handlers -/

/-- A handler: what it writes, and the server behind it. -/
abbrev HttpRequestHandler :=
  List UInt8 → HttpServer → Except Fault (List UInt8 × HttpServer)

/-- `handle_command`. -/
def handleCommand : HttpRequestHandler := fun _ server =>
  .ok (successResponse, server)

/-- `handle_status`, with the addresses read through their pointers. -/
def handleStatusPointers (source : StatusSource F) : HttpRequestHandler :=
  fun _ server => do
    let session ← server.table.deref server.sessionAddr
    let command ← server.table.deref server.commandAddr
    let http ← server.table.deref server.httpAddr
    let context : StatusContext :=
      { state := source.state
        sessionAddr := some session
        commandAddr := some command
        httpAddr := some http
        config := server.table.config
        peerAddr := source.peerAddr }
    return (handleStatus context source.manager, server)

/-- The loop of `handle_post_config` on the entries where they are. -/
def postTableLoop (environment : HttpEnvironment) :
    Nat → ConfigTable → ReaderM ConfigTable
  | 0, table => pure table
  | count + 1, table => do
      let setting ← readSetting
      postTableLoop environment count (table.set environment setting)

/-- `handle_post_config`, as far as it reads. -/
def postTable (environment : HttpEnvironment) (table : ConfigTable) :
    ReaderM (PostOutcome × ConfigTable) := do
  match ← mpackReadTag with
  | .array count => do
      let table ← postTableLoop environment count table
      let reader ← getState
      pure (finishPost environment.opens table.config reader, table)
  | _ => pure ({ config := table.config, file := none, response := invalidFormat }, table)

/-- `handle_post_config`. -/
def handlePostTable (environment : HttpEnvironment) : HttpRequestHandler :=
  fun body server => do
    let (outcome, table) ←
      (postTable environment server.table (mpackReaderInitData body body.length)).1
    return (outcome.response, { server with table, file := outcome.file.getD server.file })

/-- `handle_get_config`. -/
def handleGetConfigRequest : HttpRequestHandler := fun _ server =>
  .ok (handleGetConfig server.table.config, server)

/-! ## Requests -/

/-- `request_data`: the input of a POST. -/
def HttpRequest.data (request : HttpRequest) : List UInt8 :=
  if request.method = .post then request.input else []

/-- `send_msgpack_response`. -/
def sendMsgpackResponse (environment : HttpEnvironment) (response : List UInt8) :
    HttpReply :=
  if environment.bufferMemory then .ok response
  else .error HTTP_INTERNAL "Failed to create response buffer"

/-- `process_request` behind the handler. -/
def finishRequest (environment : HttpEnvironment) (response : List UInt8) : HttpReply :=
  if environment.encodes then sendMsgpackResponse environment response
  else .error HTTP_INTERNAL "Failed to encode response"

/-- `process_request`. -/
def processRequest (environment : HttpEnvironment) (request : HttpRequest)
    (handler : HttpRequestHandler) (server : HttpServer) :
    Except Fault (HttpReply × HttpServer) :=
  if request.data ≠ [] ∧ environment.bodyMemory = false then
    .ok (.error HTTP_INTERNAL "Failed to allocate memory for request body", server)
  else do
    let (response, server) ← handler request.data server
    return (finishRequest environment response, server)

/-- The callbacks `handle_command_request`, `handle_status_request` and
`handle_config_request`. -/
def handleHttpRequest (environment : HttpEnvironment) (source : StatusSource F)
    (request : HttpRequest) (server : HttpServer) :
    Except Fault (HttpReply × HttpServer) :=
  match request.path, request.method with
  | .command, .post => processRequest environment request handleCommand server
  | .command, _ => .ok (.error HTTP_BADMETHOD "Only POST method is allowed", server)
  | .status, .get => processRequest environment request (handleStatusPointers source) server
  | .status, _ => .ok (.error HTTP_BADMETHOD "Only GET method is allowed", server)
  | .config, .get => processRequest environment request handleGetConfigRequest server
  | .config, .post => processRequest environment request (handlePostTable environment) server
  | .config, .other => .ok (.error HTTP_BADMETHOD "Method not allowed", server)

/-- A request, with what it finds. -/
structure HttpEvent (F : Type) where
  environment : HttpEnvironment
  source : StatusSource F
  request : HttpRequest

/-- The requests that have been answered and their replies, the latest one first. -/
inductive HttpRun (start : HttpServer) :
    List (HttpEvent F × HttpReply) → HttpServer → Prop where
  | start : HttpRun start [] start
  | request {history : List (HttpEvent F × HttpReply)} {before after : HttpServer}
      {event : HttpEvent F} {reply : HttpReply} (run : HttpRun start history before)
      (answered : handleHttpRequest event.environment event.source event.request before =
        .ok (reply, after)) :
      HttpRun start ((event, reply) :: history) after

/-! ## What a body sets -/

/-- The settings that the handler reads, without setting them. -/
def readBody : ReaderM (List SetCall) := do
  match ← mpackReadTag with
  | .array count => readSettings count
  | _ => pure []

/-- The settings that the handler takes from a body, whether or not it breaks off. -/
def bodySettings (body : List UInt8) : List SetCall :=
  match readBody (mpackReaderInitData body body.length) with
  | (.ok settings, _) => settings
  | (.error _, _) => []

/-- The settings of a request. -/
def HttpEvent.settings (event : HttpEvent F) : List SetCall :=
  match event.request.path, event.request.method with
  | .config, .post =>
      if event.request.data ≠ [] ∧ event.environment.bodyMemory = false then []
      else bodySettings event.request.data
  | _, _ => []

end MouseHero
