import MouseHero.Server.HttpRuns
import MouseHero.Server.Isolation
import MouseHero.Server.StatusMessage

/-!
# The dashboard

`ApiService.getStatus`, and what the dashboard shows of the clients in it: one
row for every live connection of the server, with what the server knows of it.
The decoder of MessagePack and the texts of other values are parameters.
-/

namespace MouseHero

open MessagePack

/-! ## Values of Dart -/

/-- `toString` of values that are neither strings nor integers, and `toInt` of
numbers that are no integers. -/
structure DartRuntime where
  otherText : Value → List Char
  truncate : Number → Int

/-- `toString` of an `int`. -/
def dartInt (value : Int) : List Char :=
  if value < 0 then '-' :: Nat.toDigits 10 value.natAbs
  else Nat.toDigits 10 value.natAbs

/-- `toString`. -/
def DartRuntime.toText (runtime : DartRuntime) : Value → List Char
  | .text chars => chars
  | .number (.integer value) => dartInt value
  | value => runtime.otherText value

/-- A map with its keys as strings; of two values for a key the later one
stays. -/
def DartRuntime.stringKeys (runtime : DartRuntime) (pairs : List (Value × Value)) :
    List Char → Option Value :=
  pairs.foldl
    (fun entries pair => Function.update entries (runtime.toText pair.1) (some pair.2))
    fun _ => none

/-- The value of a key, or `null`. -/
def entryOf (entries : List Char → Option Value) (key : String) : Value :=
  (entries key.toList).getD .nil

/-- `??`. -/
def orIfNull (value other : Value) : Value :=
  match value with
  | .nil => other
  | value => value

/-! ## The status -/

/-- A client in the status. -/
structure StatusClient where
  uid : Value
  ip : Value
  connectedAt : Value

/-- An element of `connected_clients`. -/
def readClient (runtime : DartRuntime) : Value → StatusClient
  | .map pairs =>
      let entries := runtime.stringKeys pairs
      { uid := entryOf entries "uid"
        ip := orIfNull (entryOf entries "address") (entryOf entries "ip")
        connectedAt := entryOf entries "connected_at" }
  | _ => { uid := .nil, ip := .nil, connectedAt := .nil }

/-- The entry `clients` that is added to the status. -/
def statusClients (runtime : DartRuntime) (entries : List Char → Option Value) :
    List StatusClient :=
  match entries "connected_clients".toList with
  | some (.array values) => values.map (readClient runtime)
  | _ => []

/-- A response of the management server. -/
structure HttpResponse where
  statusCode : Nat
  bodyBytes : List UInt8

/-- The clients in what `getStatus` returns, unless that is `null` or the decoder
throws. -/
def getStatus (runtime : DartRuntime) (deserialize : List UInt8 → Option Value)
    (response : HttpResponse) : Option (List StatusClient) :=
  if response.statusCode = 200 then
    match deserialize response.bodyBytes with
    | some (.map pairs) => some (statusClients runtime (runtime.stringKeys pairs))
    | _ => none
  else none

/-- `_fetchStatus`: the clients that are shown next.  There is no response if the
request throws. -/
def fetchStatus (runtime : DartRuntime) (deserialize : List UInt8 → Option Value)
    (isRunning : Bool) (response : Option HttpResponse) : List StatusClient :=
  if isRunning then
    (response.bind (getStatus runtime deserialize)).getD []
  else []

/-! ## The rows -/

structure Localizations where
  notAvailable : List Char
  hourUnit : List Char
  minuteUnit : List Char
  secondUnit : List Char

/-- `formatDuration`. -/
def formatDuration (l10n : Localizations) (seconds : Nat) : List Char :=
  let h := seconds / 3600
  let m := seconds / 60 % 60
  let s := seconds % 60
  if 0 < h then
    dartInt h ++ l10n.hourUnit ++ [' '] ++ dartInt m ++ l10n.minuteUnit ++ [' '] ++
      dartInt s ++ l10n.secondUnit
  else if 0 < m then
    dartInt m ++ l10n.minuteUnit ++ [' '] ++ dartInt s ++ l10n.secondUnit
  else dartInt s ++ l10n.secondUnit

/-- `durationText`, at the given time in seconds. -/
def durationText (l10n : Localizations) (nowSec : Int) (connectedAt : Option Int) :
    List Char :=
  match connectedAt with
  | none => l10n.notAvailable
  | some connectedAt =>
      if 0 < connectedAt ∧ 0 ≤ nowSec - connectedAt then
        formatDuration l10n (nowSec - connectedAt).toNat
      else l10n.notAvailable

/-- A row of the table of the clients. -/
structure ClientRow where
  uid : List Char
  duration : List Char
  ip : List Char
  deriving DecidableEq

/-- `toString`, or the text for a value that is not there. -/
def shownText (runtime : DartRuntime) (l10n : Localizations) : Value → List Char
  | .nil => l10n.notAvailable
  | value => runtime.toText value

/-- The number of seconds, if it is a number. -/
def secondsOf (runtime : DartRuntime) : Value → Option Int
  | .number (.integer value) => some value
  | .number value => some (runtime.truncate value)
  | _ => none

/-- A row of `_buildOnlineClientsCard`. -/
def clientRow (runtime : DartRuntime) (l10n : Localizations) (nowSec : Int)
    (client : StatusClient) : ClientRow where
  uid := shownText runtime l10n client.uid
  duration := durationText l10n nowSec (secondsOf runtime client.connectedAt)
  ip := shownText runtime l10n client.ip

/-! ## What is shown of the server -/

/-- The response that a reply of the management server arrives as. -/
def HttpReply.response (reply : HttpReply) : HttpResponse :=
  match reply with
  | .ok body => { statusCode := 200, bodyBytes := body }
  | .error code _ => { statusCode := code, bodyBytes := [] }

/-- The numbers that an `int` or a `double` holds. -/
def DartNumber : Number → Prop
  | .integer value => -2 ^ 63 ≤ value ∧ value < 2 ^ 63
  | _ => True

/-- The decoder returns the value that the bytes denote. -/
def Deserializes (deserialize : List UInt8 → Option Value) : Prop :=
  ∀ value bytes, Encodes DartNumber value bytes → deserialize bytes = some value

variable {F : Type}

/-- The row of a client of the server. -/
def YaClient.row (l10n : Localizations) (nowSec : Int) (texts : StatusTexts)
    (client : YaClient F) : ClientRow where
  uid := dartInt client.uid.toNat
  duration := durationText l10n nowSec (some client.connectedAt)
  ip := texts.peer client.fd

section Rows

variable {runtime : DartRuntime} {texts : StatusTexts}

/-- The map of a client is read as it was written. -/
theorem readClient_clientValue (client : YaClient F) :
    readClient runtime (clientValue texts client) =
      { uid := .integer client.uid.toNat
        ip := .text (texts.peer client.fd)
        connectedAt := .integer (UInt64.ofInt client.connectedAt).toNat } := by
  simp [readClient, clientValue, DartRuntime.stringKeys, DartRuntime.toText, textValue,
    entryOf, orIfNull, Function.update]

private theorem statusClients_statusPairs (state : YaServerState) (clients : List (YaClient F)) :
    statusClients runtime (runtime.stringKeys (statusPairs state texts clients)) =
      clients.map fun client => readClient runtime (clientValue texts client) := by
  simp [statusClients, statusPairs, DartRuntime.stringKeys, DartRuntime.toText, textValue,
    Function.update]

/-- A time that an `int` holds. -/
def YaClient.Timed (client : YaClient F) : Prop :=
  0 ≤ client.connectedAt ∧ client.connectedAt < 2 ^ 63

instance (client : YaClient F) : Decidable client.Timed :=
  inferInstanceAs (Decidable (_ ∧ _))

theorem YaClient.Timed.toNat {client : YaClient F} (timed : client.Timed) :
    ((UInt64.ofInt client.connectedAt).toNat : Int) = client.connectedAt := by
  obtain ⟨lower, upper⟩ := timed
  rw [UInt64.ofInt, UInt64.toNat_ofNat']
  omega

theorem YaClient.Timed.allowed {client : YaClient F} (timed : client.Timed) :
    client.Allowed DartNumber := by
  have small := client.uid.toNat_lt
  have same := timed.toNat
  obtain ⟨lower, upper⟩ := timed
  refine ⟨⟨?_, ?_⟩, ⟨?_, ?_⟩⟩
  all_goals omega

private theorem clientRow_clientValue (l10n : Localizations) (nowSec : Int) {client : YaClient F}
    (timed : client.Timed) :
    clientRow runtime l10n nowSec (readClient runtime (clientValue texts client)) =
      client.row l10n nowSec texts := by
  rw [readClient_clientValue, timed.toNat]
  rfl

/-- What is shown of a status is a row for each of its clients. -/
theorem fetchStatus_handleStatus {context : StatusContext} {manager : YaClientManager F}
    (shows : context.Shows manager texts)
    (timed : ∀ client ∈ manager.activeClients, client.Timed)
    (few : manager.activeClients.length < 2 ^ 32)
    {deserialize : List UInt8 → Option Value} (deserializes : Deserializes deserialize)
    (runtime : DartRuntime) (l10n : Localizations) (nowSec : Int) :
    (fetchStatus runtime deserialize true
        (some { statusCode := 200, bodyBytes := handleStatus context manager })).map
        (clientRow runtime l10n nowSec) =
      manager.activeClients.map (YaClient.row l10n nowSec texts) := by
  have encodes : Encodes DartNumber
      (.map (statusPairs context.state texts manager.activeClients))
      (handleStatus context manager) :=
    handleStatus_encodes shows (fun client member => (timed client member).allowed) few
  have fetched : fetchStatus runtime deserialize true
      (some { statusCode := 200, bodyBytes := handleStatus context manager }) =
      manager.activeClients.map fun client =>
        readClient runtime (clientValue texts client) := by
    rw [fetchStatus, if_pos rfl, Option.bind_some, getStatus, if_pos rfl,
      deserializes _ _ encodes]
    exact statusClients_statusPairs context.state manager.activeClients
  rw [fetched, List.map_map]
  exact List.map_congr_left fun client member =>
    clientRow_clientValue l10n nowSec (timed client member)

end Rows

section Shown

variable [CFloat F] {start server : HttpServer} {world : World F}
variable {answered : List (HttpEvent F × HttpReply)} {history : List SessionEvent}

omit [CFloat F] in
/-- The records of the live connections are the active clients. -/
theorem Ownership.perm_records {live : List Connection}
    (ownership : Ownership live world) :
    (world.manager.activeClients.map some).Perm
      (live.map fun connection => world.manager.deref connection.client) := by
  have stored : ∀ client ∈ world.manager.activeClients,
      some client = world.manager.deref client.addr := by
    intro client isActive
    have member := (List.mem_filter.mp isActive).1
    exact (YaClientManager.deref_eq_of_mem ownership.once member).symm
  have read := ownership.perm_activeClients.map world.manager.deref
  rw [List.map_map, List.map_map] at read
  rw [List.map_congr_left stored]
  exact read

/-- In every run of the server, and after any requests that have not moved the
entries of the configuration, the rows of the dashboard are those of the clients of
the live connections, each of them once: the uid, the address and the time that the
server knows. -/
theorem dashboard_shows_connections {parses : List UInt8 → Bool} {config : YaConfig}
    {file : List UInt8} (started : HttpServer.start parses config file = some start)
    (requests : HttpRun start answered server) (unmoved : server.table.block = 0)
    (run : ServerRun history world) (few : (liveConnections history).length < 2 ^ 32)
    {environment : HttpEnvironment}
    (memory : environment.encodes = true ∧ environment.bufferMemory = true)
    {source : StatusSource F} (current : source.manager = world.manager)
    {texts : StatusTexts}
    (shows : (currentContext source server.table.config).Shows world.manager texts)
    (timed : ∀ client ∈ world.manager.activeClients, client.Timed)
    {deserialize : List UInt8 → Option Value} (deserializes : Deserializes deserialize)
    (runtime : DartRuntime) (l10n : Localizations) (nowSec : Int) :
    ∃ (reply : HttpReply) (clients : List (YaClient F)),
      handleHttpRequest environment source { method := .get, path := .status, input := [] }
          server = .ok (reply, server) ∧
        (fetchStatus runtime deserialize true (some reply.response)).map
            (clientRow runtime l10n nowSec) =
          clients.map (YaClient.row l10n nowSec texts) ∧
        (clients.map some).Perm ((liveConnections history).map
          fun connection => world.manager.deref connection.client) := by
  have length := run.ownership.length_activeClients
  have answers : handleHttpRequest environment source
      { method := .get, path := .status, input := [] } server =
        .ok (.ok (currentStatus source server.table.config), server) := by
    have status := (requests.listens (listens_of_start started).1).status source []
    rw [if_pos unmoved] at status
    show processRequest environment _ (handleStatusPointers source) server = _
    have noData : HttpRequest.data { method := .get, path := .status, input := [] } = [] :=
      rfl
    rw [processRequest, if_neg (fun both => both.1 noData), noData, status]
    show Except.ok (finishRequest environment _, server) = _
    rw [finishRequest, if_pos memory.1, sendMsgpackResponse, if_pos memory.2]
  have shown := fetchStatus_handleStatus shows timed (length.symm ▸ few) deserializes
    runtime l10n nowSec
  rw [← current] at shown
  refine ⟨_, world.manager.activeClients, answers, ?_, run.ownership.perm_records⟩
  rw [HttpReply.response, currentStatus, shown, current]

end Shown

/-! ## Two clients -/

/-- A decoder for Dart, with the reader of the server. -/
def deserializeValue (bytes : List UInt8) : Option Value :=
  match readValue bytes.length (mpackReaderInitData bytes bytes.length) with
  | (.ok value, _) => some value
  | (.error _, _) => none

private theorem deserializeValue_deserializes : Deserializes deserializeValue := by
  intro value bytes encodes
  have reads := readValue_encodes encodes bytes.length (Nat.le_refl _) [] bytes.length
    (Nat.le_refl _)
  rw [List.append_nil] at reads
  rw [deserializeValue, mpackReaderInitData, reads]

/-- What a status request finds while two clients are connected. -/
def StatusSource.acceptingBoth : StatusSource Rat where
  state := .running
  manager := World.acceptingBoth.manager
  peerAddr := fun fd => literal (if fd = 5 then "127.0.0.1" else "192.168.0.2")

/-- Its texts, once the session listens on the loopback interface only. -/
def StatusTexts.acceptingBoth : StatusTexts where
  session := "127.0.0.1:7890".toList
  command := "0.0.0.0:7891".toList
  http := "127.0.0.1:7892".toList
  logPath := []
  peer := fun fd => (if fd = 5 then "127.0.0.1" else "192.168.0.2").toList

/-- Dart, as far as a status without fractions needs it. -/
def DartRuntime.plain : DartRuntime where
  otherText
    | .nil => "null".toList
    | .boolean value => (if value then "true" else "false").toList
    | _ => []
  truncate := fun _ => 0

def Localizations.english : Localizations where
  notAvailable := "N/A".toList
  hourUnit := "h".toList
  minuteUnit := "m".toList
  secondUnit := "s".toList

private theorem acceptingBoth_shows :
    (currentContext StatusSource.acceptingBoth localServer.table.config).Shows
      World.acceptingBoth.manager StatusTexts.acceptingBoth where
  session := ⟨by decide +kernel, by decide +kernel⟩
  command := ⟨by decide +kernel, by decide +kernel⟩
  http := ⟨by decide +kernel, by decide +kernel⟩
  logPath := ⟨by decide +kernel, by decide +kernel⟩
  peer := by
    intro client member
    have loopback : SpellsText (literal "127.0.0.1") "127.0.0.1".toList :=
      ⟨by decide, by decide⟩
    have other : SpellsText (literal "192.168.0.2") "192.168.0.2".toList :=
      ⟨by decide, by decide⟩
    show SpellsText (literal (if client.fd = 5 then "127.0.0.1" else "192.168.0.2"))
      (if client.fd = 5 then "127.0.0.1" else "192.168.0.2").toList
    split
    · exact loopback
    · exact other

/-- A row for each of two clients, behind a request that has changed an address. -/
theorem dashboard_shows_connections_both :
    ∃ (reply : HttpReply) (clients : List (YaClient Rat)),
      handleHttpRequest .ample StatusSource.acceptingBoth
          { method := .get, path := .status, input := [] } localServer =
        .ok (reply, localServer) ∧
        (fetchStatus .plain deserializeValue true (some reply.response)).map
            (clientRow .plain .english 60) =
          clients.map (YaClient.row .english 60 StatusTexts.acceptingBoth) ∧
        (clients.map some).Perm [some YaClient.second, some YaClient.first] := by
  have records := acceptingBoth_serverRun.ownership.perm_records
  have timed : ∀ client ∈ World.acceptingBoth.manager.activeClients, client.Timed := by
    intro client member
    have isRecord := records.mem_iff.mp (List.mem_map_of_mem member)
    rcases List.mem_cons.mp isRecord with same | other
    · have isSecond : client = YaClient.second := Option.some.inj same
      rw [isSecond]
      decide
    · have isFirst : client = YaClient.first := Option.some.inj (List.mem_singleton.mp other)
      rw [isFirst]
      decide
  exact dashboard_shows_connections listenerServer_started
    (localHistory_run StatusSource.idle) rfl acceptingBoth_serverRun (by decide)
    ⟨rfl, rfl⟩ rfl acceptingBoth_shows timed deserializeValue_deserializes .plain
    .english 60

end MouseHero
