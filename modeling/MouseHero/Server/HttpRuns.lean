import MouseHero.Server.Http

/-!
# Runs of the management server

A listener address is good as long as the entries have not moved, and then it is
whatever is configured now.  The file is the configuration after some request,
and no request since has been answered with success.
-/

namespace MouseHero

open FaultM MessagePack

variable {F : Type}

/-- The file that `ya_config_save` writes. -/
def YaConfig.rendered (config : YaConfig) : List UInt8 :=
  saveEntries (safeStrncpy []) true config.entries

/-! ## Settings of a body -/

/-- All settings of a body, one after another. -/
def ConfigTable.setAll (environment : HttpEnvironment) (settings : List SetCall)
    (table : ConfigTable) : ConfigTable :=
  settings.foldl (ConfigTable.set environment) table

theorem setAll_config (environment : HttpEnvironment) (settings : List SetCall)
    (table : ConfigTable) :
    (table.setAll environment settings).config =
      performAll environment.allocates settings table.config := by
  induction settings generalizing table with
  | nil => rfl
  | cons setting settings inductionHypothesis =>
      exact inductionHypothesis (table.set environment setting)

private theorem postTableLoop_of_readSettings (environment : HttpEnvironment) {count : Nat}
    (table : ConfigTable) {before after : MpackReader} {settings : List SetCall}
    (returned : readSettings count before = (.ok settings, after)) :
    postTableLoop environment count table before =
      (.ok (table.setAll environment settings), after) := by
  induction count generalizing table before settings with
  | zero =>
      cases returned
      rfl
  | succ count inductionHypothesis =>
      rw [readSettings] at returned
      rcases first : readSetting before with ⟨reason | setting, middle⟩
      · rw [bind_of_fault first] at returned
        cases returned
      · rw [bind_of_ok first] at returned
        rcases later : readSettings count middle with ⟨reason | rest, last⟩
        · rw [bind_of_fault later] at returned
          cases returned
        · rw [bind_of_ok later] at returned
          cases returned
          rw [postTableLoop, bind_of_ok first]
          exact inductionHypothesis _ later

theorem bodySettings_of_readBody {body : List UInt8} {settings : List SetCall}
    {after : MpackReader} (read : readBody (fresh body) = (.ok settings, after)) :
    bodySettings body = settings := by
  unfold fresh at read
  rw [bodySettings, read]

/-- What a body does to the entries is what its settings do. -/
structure PostSpec (environment : HttpEnvironment) (body : List UInt8)
    (server : HttpServer) (outcome : PostOutcome) : Prop where
  config : outcome.config =
    (server.table.setAll environment (bodySettings body)).config
  table : handlePostTable environment body server =
    .ok (outcome.response,
      { server with
        table := server.table.setAll environment (bodySettings body)
        file := outcome.file.getD server.file })
  fit : ∀ setting ∈ bodySettings body, setting.Fits
  saved : outcome.file = none ∧ outcome.response ≠ successResponse ∨
    outcome.file = some outcome.config.rendered

private theorem finishPost_config (opens : Bool) (config : YaConfig) (reader : MpackReader) :
    (finishPost opens config reader).config = config := by
  unfold finishPost
  split
  · rfl
  split <;> rfl

private theorem saveFailure_ne_successResponse : saveFailure ≠ successResponse := by
  decide

private theorem invalidFormat_ne_successResponse : invalidFormat ≠ successResponse := by
  decide

/-- A success is reported behind the save only. -/
theorem finishPost_saved (opens : Bool) (config : YaConfig) (reader : MpackReader) :
    (finishPost opens config reader).file = none ∧
        (finishPost opens config reader).response ≠ successResponse ∨
      (finishPost opens config reader).file = some config.rendered := by
  by_cases noError : reader.error = .ok
  · rw [finishPost_response reader noError]
    cases opens with
    | true => exact Or.inr rfl
    | false => exact Or.inl ⟨rfl, saveFailure_ne_successResponse⟩
  · rw [finishPost, if_pos noError]
    exact Or.inl ⟨rfl, successResponse_ne_parseFailure.symm⟩

theorem handlePostTable_of_read {environment : HttpEnvironment} {body : List UInt8}
    {server : HttpServer} {outcome : PostOutcome} {table : ConfigTable}
    {after : MpackReader}
    (read : postTable environment server.table (fresh body) =
      (.ok (outcome, table), after)) :
    handlePostTable environment body server =
      .ok (outcome.response,
        { server with table, file := outcome.file.getD server.file }) := by
  have returned : (postTable environment server.table
      (mpackReaderInitData body body.length)).1 = .ok (outcome, table) :=
    congrArg Prod.fst read
  rw [handlePostTable, returned]
  rfl

private theorem postSpec_array (environment : HttpEnvironment) (server : HttpServer)
    {count : Nat} {header rest : List UInt8} (isHeader : ArrayHeader count header)
    {after : MpackReader} {settings : List SetCall}
    (returned : readSettings count (fresh rest) = (.ok settings, after))
    (fit : ∀ setting ∈ settings, setting.Fits) :
    PostSpec environment (header ++ rest) server
      (finishPost environment.opens
        (performAll environment.allocates settings server.table.config) after) := by
  have tag := (mpackReadTag_array isHeader).fresh rest
  have same : bodySettings (header ++ rest) = settings :=
    bodySettings_of_readBody ((bind_of_ok tag).trans returned)
  have performed := postTableLoop_of_readSettings environment server.table returned
  have read : postTable environment server.table (fresh (header ++ rest)) =
      (.ok (finishPost environment.opens
          (server.table.setAll environment settings).config after,
        server.table.setAll environment settings), after) := by
    rw [postTable, bind_of_ok tag]
    exact bind_of_ok performed
  rw [setAll_config] at read
  constructor
  · rw [finishPost_config, same, setAll_config]
  · rw [same]
    exact handlePostTable_of_read read
  · rw [same]
    exact fit
  · rw [finishPost_config]
    exact finishPost_saved ..

/-- Without an array nothing is set. -/
theorem postSpec_noArray (environment : HttpEnvironment) (server : HttpServer)
    {body : List UInt8}
    (noArray : ∀ count header rest,
      ArrayHeader count header → body ≠ header ++ rest) :
    PostSpec environment body server
      { config := server.table.config, file := none, response := invalidFormat } := by
  have reads : ∃ tag after, mpackReadTag (fresh body) = (.ok tag, after) ∧
      ∀ count, tag ≠ .array count := by
    rcases mpackReadTag_outcome body with
      ⟨tag, front, rest, denotes, rfl⟩ | ⟨after, failed, returned⟩
    · refine ⟨tag, fresh rest, denotes.reads.fresh rest, ?_⟩
      intro count same
      subst same
      exact noArray count front rest denotes.array rfl
    · exact ⟨_, after, returned, fun count same => nomatch same⟩
  obtain ⟨tag, after, returned, other⟩ := reads
  have nothing : bodySettings body = [] := by
    apply @bodySettings_of_readBody body [] after
    rw [readBody, bind_of_ok returned]
    cases tag with
    | array count => exact absurd rfl (other count)
    | _ => rfl
  have read : postTable environment server.table (fresh body) =
      (.ok ({ config := server.table.config, file := none, response := invalidFormat },
        server.table), after) := by
    rw [postTable, bind_of_ok returned]
    cases tag with
    | array count => exact absurd rfl (other count)
    | _ => rfl
  constructor
  · rw [nothing]
    rfl
  · rw [nothing]
    exact handlePostTable_of_read read
  · rw [nothing]
    exact fun _ member => absurd member List.not_mem_nil
  · exact Or.inl ⟨rfl, invalidFormat_ne_successResponse⟩

/-- Every body has an outcome. -/
theorem exists_postSpec (environment : HttpEnvironment) (body : List UInt8)
    (server : HttpServer) : ∃ outcome, PostSpec environment body server outcome := by
  rcases body_cases body with ⟨settings, lists⟩ | ⟨settings, breaks⟩ | noArray
  · have fit := lists.fit
    obtain ⟨count, header, listing, rest, isHeader, whole, rfl⟩ := lists
    have read := (readSettings_parses count).whole settings listing rest whole
    rw [List.append_assoc]
    exact ⟨_, postSpec_array environment server isHeader read fit⟩
  · have fit := breaks.fit
    obtain ⟨count, header, listing, isHeader, broken, rfl⟩ := breaks
    obtain ⟨after, -, read⟩ := (readSettings_parses count).broken settings listing broken
    exact ⟨_, postSpec_array environment server isHeader read fit⟩
  · exact ⟨_, postSpec_noArray environment server noArray⟩

/-! ## One request -/

/-- A reply that says that the settings have been made and saved. -/
def HttpEvent.Succeeds (event : HttpEvent F) (reply : HttpReply) : Prop :=
  event.request.path = .config ∧ event.request.method = .post ∧
    reply = .ok successResponse

/-- What an answered request does. -/
structure RequestSpec (event : HttpEvent F) (before after : HttpServer)
    (reply : HttpReply) : Prop where
  table : after.table = before.table.setAll event.environment event.settings
  fit : ∀ setting ∈ event.settings, setting.Fits
  pointers : after.sessionAddr = before.sessionAddr ∧
    after.commandAddr = before.commandAddr ∧ after.httpAddr = before.httpAddr
  file : after.file = before.file ∨ after.file = after.table.config.rendered
  success : event.Succeeds reply → after.file = after.table.config.rendered

/-- A request that sets nothing leaves the server as it is. -/
theorem requestSpec_of_quiet {event : HttpEvent F} {server : HttpServer}
    {reply : HttpReply} (quiet : event.settings = [])
    (unsuccessful : ¬ event.Succeeds reply) : RequestSpec event server server reply where
  table := by rw [quiet]; rfl
  fit := by
    rw [quiet]
    exact fun _ member => absurd member List.not_mem_nil
  pointers := ⟨rfl, rfl, rfl⟩
  file := Or.inl rfl
  success := fun succeeds => absurd succeeds unsuccessful

theorem except_bind_eq_ok {Value Result : Type} {first : Except Fault Value}
    {next : Value → Except Fault Result} {result : Result}
    (returned : (first >>= next) = .ok result) :
    ∃ value, first = .ok value ∧ next value = .ok result := by
  cases first with
  | error reason => cases returned
  | ok value => exact ⟨value, rfl, returned⟩

/-- A request that is answered either finds no memory for its body, or is handled. -/
theorem processRequest_cases {environment : HttpEnvironment} {request : HttpRequest}
    {handler : HttpRequestHandler} {server after : HttpServer} {reply : HttpReply}
    (answered : processRequest environment request handler server = .ok (reply, after)) :
    (request.data ≠ [] ∧ environment.bodyMemory = false) ∧ after = server ∧
        (∃ reason, reply = .error HTTP_INTERNAL reason) ∨
      ¬ (request.data ≠ [] ∧ environment.bodyMemory = false) ∧
        ∃ response, handler request.data server = .ok (response, after) ∧
          reply = finishRequest environment response := by
  unfold processRequest at answered
  by_cases noMemory : request.data ≠ [] ∧ environment.bodyMemory = false
  · rw [if_pos noMemory] at answered
    cases answered
    exact Or.inl ⟨noMemory, rfl, _, rfl⟩
  · rw [if_neg noMemory] at answered
    obtain ⟨⟨response, handled⟩, returned, finished⟩ := except_bind_eq_ok answered
    cases finished
    exact Or.inr ⟨noMemory, response, returned, rfl⟩

theorem handleStatusPointers_quiet {source : StatusSource F} {server after : HttpServer}
    {body response : List UInt8}
    (handled : handleStatusPointers source body server = .ok (response, after)) :
    after = server := by
  obtain ⟨session, -, handled⟩ := except_bind_eq_ok handled
  obtain ⟨command, -, handled⟩ := except_bind_eq_ok handled
  obtain ⟨http, -, handled⟩ := except_bind_eq_ok handled
  cases handled
  rfl

/-- Only the response of a success is sent as one. -/
theorem eq_of_finishRequest {environment : HttpEnvironment} {response expected : List UInt8}
    (sent : finishRequest environment response = .ok expected) : response = expected := by
  unfold finishRequest sendMsgpackResponse at sent
  split at sent
  · split at sent
    · exact HttpReply.ok.inj sent
    · cases sent
  · cases sent

/-- A request for a path that sets nothing. -/
theorem requestSpec_of_path {event : HttpEvent F} {server : HttpServer}
    {reply : HttpReply} (other : event.request.path ≠ .config) :
    RequestSpec event server server reply := by
  obtain ⟨environment, source, method, path, input⟩ := event
  cases path with
  | config => exact absurd rfl other
  | command => exact requestSpec_of_quiet rfl fun succeeds => other succeeds.1
  | status => exact requestSpec_of_quiet rfl fun succeeds => other succeeds.1

/-- A POST of settings. -/
theorem requestSpec_of_post {environment : HttpEnvironment} {source : StatusSource F}
    {input : List UInt8} {before after : HttpServer} {reply : HttpReply}
    (answered : processRequest environment { method := .post, path := .config, input }
      (handlePostTable environment) before = .ok (reply, after)) :
    RequestSpec { environment, source, request := { method := .post, path := .config, input } }
      before after reply := by
  rcases processRequest_cases answered with
    ⟨noMemory, rfl, reason, rfl⟩ | ⟨memory, response, handled, rfl⟩
  · exact requestSpec_of_quiet (if_pos noMemory) fun succeeds => nomatch succeeds.2.2
  · have settings : HttpEvent.settings
        { environment, source, request := { method := .post, path := .config, input } } =
          bodySettings input := if_neg memory
    obtain ⟨outcome, spec⟩ := exists_postSpec environment input before
    have table : handlePostTable environment input before = .ok (response, after) := handled
    rw [spec.table] at table
    cases table
    refine ⟨by rw [settings], by rw [settings]; exact spec.fit, ⟨rfl, rfl, rfl⟩, ?_, ?_⟩
    · rcases spec.saved with ⟨none, -⟩ | saved
      · left
        rw [none]
        rfl
      · right
        rw [saved, spec.config]
        rfl
    · intro succeeds
      have success := eq_of_finishRequest succeeds.2.2
      rcases spec.saved with ⟨-, failure⟩ | saved
      · exact absurd success failure
      · show outcome.file.getD before.file = _
        rw [saved, spec.config]
        rfl

/-- What every answered request does. -/
theorem requestSpec_of_answered {event : HttpEvent F} {before after : HttpServer}
    {reply : HttpReply}
    (answered : handleHttpRequest event.environment event.source event.request before =
      .ok (reply, after)) : RequestSpec event before after reply := by
  obtain ⟨environment, source, method, path, input⟩ := event
  cases path with
  | command =>
      have same : after = before := by
        cases method with
        | post =>
            rcases processRequest_cases answered with ⟨-, same, -⟩ | ⟨-, response, handled, -⟩
            · exact same
            · cases handled
              rfl
        | get | other =>
            cases answered
            rfl
      rw [same]
      exact requestSpec_of_path HttpPath.noConfusion
  | status =>
      have same : after = before := by
        cases method with
        | get =>
            rcases processRequest_cases answered with ⟨-, same, -⟩ | ⟨-, response, handled, -⟩
            · exact same
            · exact handleStatusPointers_quiet handled
        | post | other =>
            cases answered
            rfl
      rw [same]
      exact requestSpec_of_path HttpPath.noConfusion
  | config =>
      cases method with
      | get =>
          have same : after = before := by
            rcases processRequest_cases answered with ⟨-, same, -⟩ | ⟨-, response, handled, -⟩
            · exact same
            · cases handled
              rfl
          rw [same]
          exact requestSpec_of_quiet rfl fun succeeds => nomatch succeeds.2.1
      | post => exact requestSpec_of_post answered
      | other =>
          cases answered
          exact requestSpec_of_quiet rfl fun succeeds => nomatch succeeds.2.1

/-! ## A server with three listeners -/

/-- The setting of a listener. -/
def listenerSetting (sectionName address : String) : SetCall where
  sectionName := literal sectionName
  key := literal "listener"
  value := literal address

/-- The configuration of a server on all interfaces. -/
def listenerConfig : YaConfig :=
  performAll (fun _ => true)
    [listenerSetting "session" "0.0.0.0:7890", listenerSetting "command" "0.0.0.0:7891",
      listenerSetting "http" "127.0.0.1:7892"] yaConfigInit

def listenerServer : HttpServer where
  table := { config := listenerConfig, block := 0 }
  file := []
  sessionAddr := { block := 0, index := 0 }
  commandAddr := { block := 0, index := 1 }
  httpAddr := { block := 0, index := 2 }

theorem listenerServer_started :
    HttpServer.start (fun _ => true) listenerConfig [] = some listenerServer := by
  rfl

/-- A request that finds all the memory it needs. -/
def HttpEnvironment.ample : HttpEnvironment where
  allocates := fun _ => true
  moves := fun _ => true
  bodyMemory := true
  encodes := true
  bufferMemory := true
  opens := true

/-- A request that sets what the body lists. -/
def settingsPost (source : StatusSource F) (body : List UInt8) : HttpEvent F where
  environment := .ample
  source
  request := { method := .post, path := .config, input := body }

theorem settingsPost_answered (source : StatusSource F) {body response : List UInt8}
    {before after : HttpServer}
    (handled : handlePostTable .ample body before = .ok (response, after)) :
    handleHttpRequest (settingsPost source body).environment source
      (settingsPost source body).request before = .ok (.ok response, after) := by
  have memory : ¬ ((settingsPost source body).request.data ≠ [] ∧
      HttpEnvironment.ample.bodyMemory = false) := fun both => nomatch both.2
  have sameData : (settingsPost source body).request.data = body := if_pos rfl
  show processRequest .ample (settingsPost source body).request
    (handlePostTable .ample) before = _
  rw [processRequest, if_neg memory, sameData, handled]
  rfl

/-- Another address for the first listener. -/
def localSetting : SetCall :=
  listenerSetting "session" "127.0.0.1:7890"

def localBody : List UInt8 :=
  handleGetConfig (performAll (fun _ => true) [localSetting] yaConfigInit)

/-- The server once the address has been posted. -/
def localServer : HttpServer :=
  let table := listenerServer.table.set .ample localSetting
  { listenerServer with table, file := table.config.rendered }

private theorem localBody_handled :
    handlePostTable .ample localBody listenerServer =
      .ok (successResponse, localServer) := by
  decide +kernel

/-- Five new names. -/
def crowdingSettings : List SetCall :=
  ["1", "2", "3", "4", "5"].map fun key =>
    { sectionName := literal "new", key := literal key, value := literal "0" }

/-- An array of six settings that breaks off behind the fifth one. -/
def crowdingBody : List UInt8 :=
  mpackStartArray 6 ++
    (performAll (fun _ => true) crowdingSettings yaConfigInit).entries.flatMap
      YaConfigEntry.packed

/-- The server once that has been posted, too.  There was room for eight entries. -/
def crowdedServer : HttpServer :=
  { localServer with
    table := localServer.table.setAll .ample (bodySettings crowdingBody) }

private theorem crowdingBody_handled :
    handlePostTable .ample crowdingBody localServer =
      .ok (parseFailure, crowdedServer) := by
  decide +kernel

def localHistory (source : StatusSource F) : List (HttpEvent F × HttpReply) :=
  [(settingsPost source localBody, .ok successResponse)]

def crowdedHistory (source : StatusSource F) : List (HttpEvent F × HttpReply) :=
  (settingsPost source crowdingBody, .ok parseFailure) :: localHistory source

theorem localHistory_run (source : StatusSource F) :
    HttpRun listenerServer (localHistory source) localServer :=
  .request .start (settingsPost_answered source localBody_handled)

theorem crowdedHistory_run (source : StatusSource F) :
    HttpRun listenerServer (crowdedHistory source) crowdedServer :=
  .request (localHistory_run source) (settingsPost_answered source crowdingBody_handled)

/-- Nobody is connected. -/
def StatusSource.idle : StatusSource Rat where
  state := .running
  manager := yaClientManagerInit
  peerAddr := fun _ => []

/-! ## The configuration and its file -/

section Runs

variable {start server : HttpServer} {history : List (HttpEvent F × HttpReply)}

/-- The configuration that the settings of all requests lead to, whatever they have
been answered. -/
def configAfter (config : YaConfig) : List (HttpEvent F × HttpReply) → YaConfig
  | [] => config
  | (event, _) :: earlier =>
      performAll event.environment.allocates event.settings (configAfter config earlier)

/-- The file holds the configuration behind some of the requests, and those that
have come later have not been answered with success. -/
inductive Durable (start : HttpServer) (file : List UInt8) :
    List (HttpEvent F × HttpReply) → Prop where
  | initial (same : file = start.file) : Durable start file []
  | saved {history : List (HttpEvent F × HttpReply)}
      (rendered : file = (configAfter start.table.config history).rendered) :
      Durable start file history
  | later {history : List (HttpEvent F × HttpReply)} {event : HttpEvent F}
      {reply : HttpReply} (durable : Durable start file history)
      (unsuccessful : ¬ event.Succeeds reply) :
      Durable start file ((event, reply) :: history)

theorem HttpRun.config (run : HttpRun start history server) :
    server.table.config = configAfter start.table.config history := by
  induction run with
  | start => rfl
  | request run answered inductionHypothesis =>
      rw [(requestSpec_of_answered answered).table, setAll_config, inductionHypothesis,
        configAfter]

/-- In every run the configuration in memory is made of the settings of all
requests, those of refused ones included, and the file holds the configuration
behind a request that is not older than the latest success. -/
theorem HttpRun.durable (run : HttpRun start history server) :
    server.table.config = configAfter start.table.config history ∧
      Durable start server.file history := by
  refine ⟨run.config, ?_⟩
  induction run with
  | start => exact .initial rfl
  | @request history before after event reply run answered inductionHypothesis =>
      have spec := requestSpec_of_answered answered
      have config := (HttpRun.request run answered).config
      by_cases success : event.Succeeds reply
      · exact .saved (config ▸ spec.success success)
      · rcases spec.file with same | saved
        · rw [same]
          exact .later inductionHypothesis success
        · exact .saved (config ▸ saved)

end Runs

theorem durable_crowded :
    crowdedServer.table.config =
        configAfter listenerServer.table.config (crowdedHistory StatusSource.idle) ∧
      Durable listenerServer crowdedServer.file (crowdedHistory StatusSource.idle) :=
  HttpRun.durable (crowdedHistory_run StatusSource.idle)

/-! ## The listener addresses -/

/-- The name of the setting with a listener address. -/
def listenerName (sectionName : String) : SettingName where
  sectionName := cString (literal sectionName)
  key := cString (literal "listener")

/-- The address that is configured now. -/
def YaConfig.listener (config : YaConfig) (sectionName : String) : CString :=
  yaConfigGet config (some (literal sectionName)) (some (literal "listener"))

/-- A pointer that leads to the first setting of its name, in the first block. -/
structure ConfigTable.Points (table : ConfigTable) (sectionName : String)
    (pointer : EntryPointer) : Prop where
  block : pointer.block = 0
  index : table.config.names.findIdx? (fun name => name = listenerName sectionName) =
    some pointer.index

theorem findIdx?_isFor (config : YaConfig) (sectionName : String) :
    config.entries.findIdx?
        (YaConfigEntry.isFor (literal sectionName) (literal "listener")) =
      config.names.findIdx? (fun name => name = listenerName sectionName) := by
  rw [YaConfig.names, YaConfig.pairs, List.map_map, List.findIdx?_map]
  congr 1
  funext entry
  rw [Bool.eq_iff_iff, YaConfigEntry.isFor_iff, Function.comp_apply, decide_eq_true_iff]
  rfl

theorem ConfigTable.Points.deref {table : ConfigTable} {sectionName : String}
    {pointer : EntryPointer} (points : table.Points sectionName pointer) :
    ∃ address, table.config.listener sectionName = some address ∧
      table.deref pointer =
        if table.block = 0 then .ok address else .error .useAfterFree := by
  have index := points.index
  rw [← findIdx?_isFor] at index
  obtain ⟨inside, -, -⟩ := List.findIdx?_eq_some_iff_getElem.mp index
  refine ⟨table.config.entries[pointer.index].value.text, ?_, ?_⟩
  · rw [YaConfig.listener, yaConfigGet, List.find?_eq_bind_findIdx?_getElem?, index, Option.bind_some,
      List.getElem?_eq_getElem inside]
    rfl
  · rw [ConfigTable.deref, points.block]
    by_cases still : table.block = 0
    · rw [if_neg (not_not_intro still.symm), if_pos still,
        List.getElem?_eq_getElem inside]
    · rw [if_pos (fun same => still same.symm), if_neg still]

/-- Settings are neither moved nor taken away. -/
theorem ConfigTable.Points.setAll {table : ConfigTable} {sectionName : String}
    {pointer : EntryPointer} (points : table.Points sectionName pointer)
    (environment : HttpEnvironment) {settings : List SetCall}
    (fit : ∀ setting ∈ settings, setting.Fits) :
    (table.setAll environment settings).Points sectionName pointer where
  block := points.block
  index := by
    rw [setAll_config]
    exact List.IsPrefix.findIdx?_eq_some
      (performAll_extends environment.allocates table.config fit) points.index

/-- The three addresses of `svr_context` lead to their settings. -/
structure HttpServer.Listens (server : HttpServer) : Prop where
  session : server.table.Points "session" server.sessionAddr
  command : server.table.Points "command" server.commandAddr
  http : server.table.Points "http" server.httpAddr

private theorem points_of_listenerAddr {parses : List UInt8 → Bool} {table : ConfigTable}
    {sectionName : String} {pointer : EntryPointer} (first : table.block = 0)
    (found : listenerAddr parses table sectionName = some pointer) :
    table.Points sectionName pointer := by
  obtain ⟨candidate, isPointer, usable⟩ := Option.bind_eq_some_iff.mp found
  obtain ⟨index, atIndex, rfl⟩ := Option.map_eq_some_iff.mp isPointer
  have same : { block := table.block, index } = pointer := by
    split at usable
    · cases usable
    · split at usable
      · exact Option.some.inj usable
      · cases usable
  rw [findIdx?_isFor] at atIndex
  rw [← same]
  exact ⟨first, atIndex⟩

theorem listens_of_start {parses : List UInt8 → Bool} {config : YaConfig}
    {file : List UInt8} {start : HttpServer}
    (started : HttpServer.start parses config file = some start) :
    start.Listens ∧ start.table = { config, block := 0 } := by
  obtain ⟨session, foundSession, started⟩ := Option.bind_eq_some_iff.mp started
  obtain ⟨command, foundCommand, started⟩ := Option.bind_eq_some_iff.mp started
  obtain ⟨http, foundHttp, started⟩ := Option.bind_eq_some_iff.mp started
  cases started
  exact ⟨⟨points_of_listenerAddr rfl foundSession, points_of_listenerAddr rfl foundCommand,
    points_of_listenerAddr rfl foundHttp⟩, rfl⟩

section Listening

variable {start server : HttpServer} {history : List (HttpEvent F × HttpReply)}

theorem HttpRun.listens (run : HttpRun start history server) (listens : start.Listens) :
    server.Listens := by
  induction run with
  | start => exact listens
  | request run answered inductionHypothesis =>
      have spec := requestSpec_of_answered answered
      obtain ⟨session, command, http⟩ := spec.pointers
      constructor
      · rw [spec.table, session]
        exact inductionHypothesis.session.setAll _ spec.fit
      · rw [spec.table, command]
        exact inductionHypothesis.command.setAll _ spec.fit
      · rw [spec.table, http]
        exact inductionHypothesis.http.setAll _ spec.fit

/-- What `handle_status` reads when every address is the one configured now. -/
def currentContext (source : StatusSource F) (config : YaConfig) : StatusContext where
  state := source.state
  sessionAddr := config.listener "session"
  commandAddr := config.listener "command"
  httpAddr := config.listener "http"
  config := config
  peerAddr := source.peerAddr

/-- What it writes then. -/
def currentStatus (source : StatusSource F) (config : YaConfig) : List UInt8 :=
  handleStatus (currentContext source config) source.manager

theorem HttpServer.Listens.status (listens : server.Listens) (source : StatusSource F)
    (body : List UInt8) :
    handleStatusPointers source body server =
      if server.table.block = 0 then
        .ok (currentStatus source server.table.config, server)
      else .error .useAfterFree := by
  obtain ⟨session, sessionNow, derefSession⟩ := listens.session.deref
  obtain ⟨command, commandNow, derefCommand⟩ := listens.command.deref
  obtain ⟨http, httpNow, derefHttp⟩ := listens.http.deref
  rw [handleStatusPointers, derefSession, derefCommand, derefHttp, currentStatus,
    currentContext, sessionNow, commandNow, httpNow]
  split
  · rfl
  · rfl

/-- In every run, a status request is answered with the addresses that are configured
at that time, not those that were bound, until the entries have moved; from then on
it reads memory that has been freed. -/
theorem HttpRun.status_request {parses : List UInt8 → Bool} {config : YaConfig}
    {file : List UInt8} (started : HttpServer.start parses config file = some start)
    (run : HttpRun start history server) (environment : HttpEnvironment)
    (source : StatusSource F) (input : List UInt8) :
    handleHttpRequest environment source { method := .get, path := .status, input } server =
      if server.table.block = 0 then
        .ok (finishRequest environment (currentStatus source server.table.config), server)
      else .error .useAfterFree := by
  have listens := run.listens (listens_of_start started).1
  have noData : HttpRequest.data { method := .get, path := .status, input } = [] :=
    if_neg fun same => nomatch same
  show processRequest environment _ (handleStatusPointers source) server = _
  rw [processRequest, if_neg (fun both => both.1 noData), listens.status]
  split
  · rfl
  · rfl

end Listening

/-- The posted address is shown, and behind the new names there is none. -/
theorem status_request_crowded :
    (listenerServer.table.config.listener "session" = some (literal "0.0.0.0:7890") ∧
        localServer.table.config.listener "session" = some (literal "127.0.0.1:7890")) ∧
      handleHttpRequest .ample StatusSource.idle
          { method := .get, path := .status, input := [] } localServer =
        .ok (finishRequest .ample
            (currentStatus StatusSource.idle localServer.table.config), localServer) ∧
      handleHttpRequest .ample StatusSource.idle
          { method := .get, path := .status, input := [] } crowdedServer =
        .error .useAfterFree := by
  have answered := HttpRun.status_request listenerServer_started
    (localHistory_run StatusSource.idle) .ample StatusSource.idle []
  have freed := HttpRun.status_request listenerServer_started
    (crowdedHistory_run StatusSource.idle) .ample StatusSource.idle []
  rw [if_pos (by decide +kernel)] at answered
  rw [if_neg (by decide +kernel)] at freed
  exact ⟨by decide +kernel, answered, freed⟩

/-! ## When the entries move -/

/-- There is memory for every size, and the entries never grow in place. -/
def HttpEnvironment.Moves (environment : HttpEnvironment) : Prop :=
  ∀ size, environment.allocates size = true ∧ environment.moves size = true

/-- The settings of a run in their order, each with what its request finds. -/
def postedSettings : List (HttpEvent F × HttpReply) → List (HttpEnvironment × SetCall)
  | [] => []
  | (event, _) :: earlier =>
      postedSettings earlier ++ event.settings.map fun setting =>
        (event.environment, setting)

/-- The names that the settings of a run add to those there are. -/
def addedNames (config : YaConfig) (posted : List (HttpEnvironment × SetCall)) :
    List SettingName :=
  newNames config.names (posted.map Prod.snd)

/-- The settings of several requests, one after another. -/
def ConfigTable.setEach (posted : List (HttpEnvironment × SetCall))
    (table : ConfigTable) : ConfigTable :=
  posted.foldl (fun table setting => table.set setting.1 setting.2) table

private theorem setEach_append (first second : List (HttpEnvironment × SetCall))
    (table : ConfigTable) :
    table.setEach (first ++ second) = (table.setEach first).setEach second :=
  List.foldl_append

private theorem setEach_map (environment : HttpEnvironment) (settings : List SetCall)
    (table : ConfigTable) :
    table.setEach (settings.map fun setting => (environment, setting)) =
      table.setAll environment settings := by
  rw [ConfigTable.setEach, List.foldl_map]
  rfl

theorem set_present {environment : HttpEnvironment} {table : ConfigTable}
    {setting : SetCall} (fits : setting.Fits)
    (present : setting.name ∈ table.config.names) :
    (table.set environment setting).config.names = table.config.names ∧
      (table.set environment setting).config.capacity = table.config.capacity ∧
      (table.set environment setting).block = table.block := by
  have capacity := (perform_present environment.allocates fits present).2
  exact ⟨perform_names environment.allocates fits present, capacity,
    if_neg fun moved => moved.1 capacity⟩

theorem set_inside {environment : HttpEnvironment} {table : ConfigTable}
    {setting : SetCall} (fits : setting.Fits)
    (absent : setting.name ∉ table.config.names)
    (inside : table.config.names.length < table.config.capacity) :
    (table.set environment setting).config.names =
        table.config.names ++ [setting.name] ∧
      (table.set environment setting).config.capacity = table.config.capacity ∧
      (table.set environment setting).block = table.block := by
  rw [← length_entries] at inside
  have notFull : ¬ table.config.Full environment.allocates :=
    fun full => absurd (full_iff.mp full).1 (Nat.not_le.mpr inside)
  obtain ⟨pairs, capacity⟩ := perform_new fits absent notFull
  rw [if_neg (Nat.not_le.mpr inside)] at capacity
  refine ⟨?_, capacity, if_neg fun moved => moved.1 capacity⟩
  rw [YaConfig.names]
  exact (congrArg (List.map Prod.fst) pairs).trans (List.map_append ..)

/-- As long as there is room for the new names, the entries stay where they are. -/
theorem setEach_inside {posted : List (HttpEnvironment × SetCall)} {table : ConfigTable}
    (fit : ∀ setting ∈ posted, setting.2.Fits)
    (inside : table.config.names.length + (addedNames table.config posted).length ≤
      table.config.capacity) :
    (table.setEach posted).block = table.block := by
  induction posted generalizing table with
  | nil => rfl
  | cons setting posted inductionHypothesis =>
      obtain ⟨fits, otherFit⟩ := List.forall_mem_cons.mp fit
      rw [addedNames, List.map_cons, newNames] at inside
      by_cases present : setting.2.name ∈ table.config.names
      · rw [if_pos present] at inside
        obtain ⟨names, capacity, block⟩ :=
          @set_present setting.1 table setting.2 fits present
        rw [← block]
        apply inductionHypothesis otherFit
        rwa [addedNames, names, capacity]
      · rw [if_neg present, List.length_cons] at inside
        obtain ⟨names, capacity, block⟩ :=
          @set_inside setting.1 table setting.2 fits present (by omega)
        rw [← block]
        apply inductionHypothesis otherFit
        rw [addedNames, names, capacity, List.length_append, List.length_singleton]
        omega

private theorem block_le_set (environment : HttpEnvironment) (table : ConfigTable)
    (setting : SetCall) : table.block ≤ (table.set environment setting).block := by
  show table.block ≤ if _ then table.block + 1 else table.block
  split
  · exact Nat.le_succ _
  · exact Nat.le_refl _

private theorem block_le_setEach (posted : List (HttpEnvironment × SetCall))
    (table : ConfigTable) : table.block ≤ (table.setEach posted).block := by
  induction posted generalizing table with
  | nil => exact Nat.le_refl _
  | cons setting posted inductionHypothesis =>
      exact Nat.le_trans (block_le_set setting.1 table setting.2)
        (inductionHypothesis (table.set setting.1 setting.2))

/-- A new name for which there is no room moves the entries. -/
theorem block_lt_set {environment : HttpEnvironment} (moves : environment.Moves)
    {table : ConfigTable} {setting : SetCall} (fits : setting.Fits)
    (absent : setting.name ∉ table.config.names)
    (full : table.config.capacity ≤ table.config.names.length) :
    table.block < (table.set environment setting).block := by
  rw [← length_entries] at full
  have notFull : ¬ table.config.Full environment.allocates := by
    intro isFull
    have refused := (full_iff.mp isFull).2
    rw [(moves _).1] at refused
    cases refused
  have capacity := (perform_new fits absent notFull).2
  rw [if_pos full] at capacity
  have moved : (setting.perform environment.allocates table.config).1.capacity ≠
        table.config.capacity ∧
      environment.moves
        (setting.perform environment.allocates table.config).1.capacity = true :=
    ⟨by rw [capacity]; omega, (moves _).2⟩
  show table.block < if _ then table.block + 1 else table.block
  rw [if_pos moved]
  exact Nat.lt_succ_self _

private theorem block_lt_setEach {posted : List (HttpEnvironment × SetCall)}
    {table : ConfigTable} (fit : ∀ setting ∈ posted, setting.2.Fits)
    (moves : ∀ setting ∈ posted, setting.1.Moves)
    (hasRoom : table.config.names.length ≤ table.config.capacity)
    (beyond : table.config.capacity <
      table.config.names.length + (addedNames table.config posted).length) :
    table.block < (table.setEach posted).block := by
  induction posted generalizing table with
  | nil => exact absurd hasRoom (Nat.not_le.mpr beyond)
  | cons setting posted inductionHypothesis =>
      obtain ⟨fits, otherFit⟩ := List.forall_mem_cons.mp fit
      obtain ⟨firstMoves, otherMoves⟩ := List.forall_mem_cons.mp moves
      rw [addedNames, List.map_cons, newNames] at beyond
      by_cases present : setting.2.name ∈ table.config.names
      · rw [if_pos present] at beyond
        obtain ⟨names, capacity, block⟩ :=
          @set_present setting.1 table setting.2 fits present
        rw [← block]
        apply inductionHypothesis otherFit otherMoves
        · rwa [names, capacity]
        · rwa [addedNames, names, capacity]
      · rw [if_neg present, List.length_cons] at beyond
        by_cases full : table.config.capacity ≤ table.config.names.length
        · exact Nat.lt_of_lt_of_le (block_lt_set firstMoves fits present full)
            (block_le_setEach posted _)
        · obtain ⟨names, capacity, block⟩ :=
            @set_inside setting.1 table setting.2 fits present (Nat.lt_of_not_le full)
          rw [← block]
          apply inductionHypothesis otherFit otherMoves
          · rw [names, capacity, List.length_append, List.length_singleton]
            omega
          · rw [addedNames, names, capacity, List.length_append, List.length_singleton]
            omega

section Moves

variable {start server : HttpServer} {history : List (HttpEvent F × HttpReply)}

theorem HttpRun.table (run : HttpRun start history server) :
    server.table = start.table.setEach (postedSettings history) ∧
      ∀ setting ∈ postedSettings history, setting.2.Fits := by
  induction run with
  | start => exact ⟨rfl, fun _ member => absurd member List.not_mem_nil⟩
  | request run answered inductionHypothesis =>
      have spec := requestSpec_of_answered answered
      obtain ⟨table, fit⟩ := inductionHypothesis
      refine ⟨?_, ?_⟩
      · rw [spec.table, table, postedSettings, setEach_append, setEach_map]
      · intro setting member
        rcases List.mem_append.mp member with earlier | latest
        · exact fit setting earlier
        · obtain ⟨posted, isPosted, rfl⟩ := List.mem_map.mp latest
          exact spec.fit posted isPosted

private theorem moves_of_postedSettings
    (moves : ∀ answered ∈ history, answered.1.environment.Moves) :
    ∀ setting ∈ postedSettings history, setting.1.Moves := by
  induction history with
  | nil => exact fun _ member => absurd member List.not_mem_nil
  | cons answered history inductionHypothesis =>
      obtain ⟨latestMoves, earlierMove⟩ := List.forall_mem_cons.mp moves
      intro setting member
      rcases List.mem_append.mp member with earlier | latest
      · exact inductionHypothesis earlierMove setting earlier
      · obtain ⟨posted, -, rfl⟩ := List.mem_map.mp latest
        exact latestMoves

/-- The addresses stay good in every run whose settings add no more names than there
is room for; and where memory is never extended in place, in no other run. -/
theorem HttpRun.addresses_good_iff (run : HttpRun start history server)
    (hasRoom : start.table.config.HasRoom) :
    (start.table.config.entries.length +
          (addedNames start.table.config (postedSettings history)).length ≤
        start.table.config.capacity →
      server.table.block = start.table.block) ∧
    ((∀ answered ∈ history, answered.1.environment.Moves) →
      server.table.block = start.table.block →
      start.table.config.entries.length +
          (addedNames start.table.config (postedSettings history)).length ≤
        start.table.config.capacity) := by
  obtain ⟨table, fit⟩ := run.table
  have room : start.table.config.entries.length ≤ start.table.config.capacity := hasRoom
  rw [length_entries] at room ⊢
  refine ⟨?_, ?_⟩
  · intro inside
    rw [table]
    exact setEach_inside fit inside
  · intro moves same
    by_contra beyond
    have moved := block_lt_setEach fit (moves_of_postedSettings moves) room (by omega)
    rw [← table, same] at moved
    exact absurd moved (Nat.lt_irrefl _)

end Moves

/-- The addresses survive another value, but not six new names. -/
theorem addresses_good_crowded :
    localServer.table.block = listenerServer.table.block ∧
      crowdedServer.table.block ≠ listenerServer.table.block := by
  have hasRoom : listenerServer.table.config.HasRoom :=
    show listenerConfig.entries.length ≤ listenerConfig.capacity by decide
  have inside := (HttpRun.addresses_good_iff (localHistory_run StatusSource.idle) hasRoom).1
  have beyond :=
    (HttpRun.addresses_good_iff (crowdedHistory_run StatusSource.idle) hasRoom).2
  have moves : ∀ answered ∈ crowdedHistory StatusSource.idle,
      answered.1.environment.Moves := by
    intro answered member
    rcases List.mem_cons.mp member with rfl | earlier
    · exact fun size => ⟨rfl, rfl⟩
    · rw [List.mem_singleton.mp earlier]
      exact fun size => ⟨rfl, rfl⟩
  refine ⟨inside (by decide +kernel), ?_⟩
  intro same
  have few := beyond moves same
  revert few
  decide +kernel

end MouseHero
