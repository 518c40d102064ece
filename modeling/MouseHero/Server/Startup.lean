import MouseHero.Server.Status

/-!
# Starting the server

`start_server`, with the routines that start its components and the record of
those that are ready.  Calls whose results are only logged are left out.
-/

namespace MouseHero

open FaultM

/-! ## The state of the server -/

/-- The names of the components. -/
inductive ServerComponent where
  | session
  | command
  | http
  | discovery
  deriving DecidableEq, Repr

/-- `ya_server_components_state_t`. -/
structure YaServerComponentsState where
  sessionServerReady : Bool
  commandServerReady : Bool
  httpServerReady : Bool
  discoveryReady : Bool
  deriving DecidableEq, Repr

/-- What there is of the components: the listener of the sessions, the bound
UDP socket and its read event, the discovery thread, and the bound HTTP
server. -/
structure Listening where
  session : Bool
  commandBound : Bool
  commandReads : Bool
  discoveryThread : Bool
  httpBound : Bool
  deriving DecidableEq, Repr

/-- A change of the state, and what there was at that moment. -/
structure StateChange where
  state : YaServerState
  listening : Listening
  deriving DecidableEq, Repr

/-- The calls whose outcome is looked at, and those that a component needs. -/
inductive StartCall where
  | eventBaseNew
  | evsignalNew
  | evconnlistenerNewBind
  | socket
  | makeSocketNonblocking
  | bind
  | eventNew
  | eventAdd
  | pthreadCreate
  | evhttpNew
  | strdup
  | evhttpBindSocket
  deriving DecidableEq, Repr

/-- The part of `svr_context` that `start_server` works on, with all changes of
the state, the latest first, and whether the event loop has been entered. -/
structure StartContext where
  state : YaServerState
  componentsState : YaServerComponentsState
  listening : Listening
  changes : List StateChange
  dispatched : Bool
  deriving DecidableEq, Repr

/-- Nothing has been started. -/
def StartContext.initial : StartContext where
  state := .init
  componentsState := {
    sessionServerReady := false
    commandServerReady := false
    httpServerReady := false
    discoveryReady := false }
  listening := {
    session := false
    commandBound := false
    commandReads := false
    discoveryThread := false
    httpBound := false }
  changes := []
  dispatched := false

/-- The signal event is used without a check. -/
inductive StartFault where
  | nullDereference
  deriving DecidableEq, Repr

abbrev StartM := FaultM StartFault StartContext

/-- `ya_server_set_state`. -/
def yaServerSetState (newState : YaServerState) : StartM Unit :=
  modifyState fun context =>
    { context with
      state := newState
      changes :=
        { state := newState, listening := context.listening } ::
          context.changes }

/-- `ya_server_all_components_ready`. -/
def yaServerAllComponentsReady (state : YaServerComponentsState) : Bool :=
  state.sessionServerReady && state.commandServerReady &&
    state.httpServerReady && state.discoveryReady

/-- `ya_server_set_component_ready`. -/
def yaServerSetComponentReady (component : ServerComponent) (ready : Bool) :
    StartM Unit := do
  modifyState fun context =>
    { context with
      componentsState :=
        match component with
        | .session => { context.componentsState with sessionServerReady := ready }
        | .command => { context.componentsState with commandServerReady := ready }
        | .http => { context.componentsState with httpServerReady := ready }
        | .discovery => { context.componentsState with discoveryReady := ready } }
  let context ← getState
  if ready && yaServerAllComponentsReady context.componentsState then
    yaServerSetState .running
  else
    return ()

/-! ## The components -/

section Components

variable (succeeds : StartCall → Bool) (httpAddr : CString)

/-- Change what there is. -/
def modifyListening (update : Listening → Listening) : StartM Unit :=
  modifyState fun context =>
    { context with listening := update context.listening }

/-- `run_session_server`. -/
def runSessionServer : StartM Int :=
  if !succeeds .evconnlistenerNewBind then
    return -1
  else do
    modifyListening fun listening => { listening with session := true }
    return 0

/-- `run_command_server`. -/
def runCommandServer : StartM Int :=
  if !succeeds .socket then
    return 2
  else if !succeeds .makeSocketNonblocking then
    return 3
  else if !succeeds .bind then
    return 4
  else do
    modifyListening fun listening => { listening with commandBound := true }
    if !succeeds .eventNew then
      return 5
    else if !succeeds .eventAdd then
      -- The event is freed, and that is all.
      return 0
    else
      modifyListening fun listening => { listening with commandReads := true }
      return 0

/-- `run_discovery_server`. -/
def runDiscoveryServer : StartM Int := do
  modifyListening fun listening =>
    { listening with discoveryThread := succeeds .pthreadCreate }
  return 0

/-- There is a listener for HTTP in the configuration. -/
def HttpConfigured (httpAddr : CString) : Prop :=
  ∃ address, httpAddr = some address ∧ cString address ≠ []

instance : Decidable (HttpConfigured httpAddr) :=
  match httpAddr with
  | none => .isFalse (by rintro ⟨_, ⟨⟩, _⟩)
  | some address =>
      decidable_of_iff (cString address ≠ []) (by simp [HttpConfigured])

/-- `run_http_server`. -/
def runHttpServer : StartM Int :=
  if ¬ HttpConfigured httpAddr then
    return 0
  else if !succeeds .evhttpNew then
    return -1
  else if !succeeds .strdup then
    return -1
  else if !succeeds .evhttpBindSocket then
    return -1
  else do
    modifyListening fun listening => { listening with httpBound := true }
    return 0

/-- `stop`.  The listener of the sessions is not known to it. -/
def stopServerContext : StartM Unit :=
  modifyListening fun listening =>
    { listening with
      commandBound := false
      commandReads := false
      httpBound := false }

/-- `event_base_dispatch`. -/
def eventBaseDispatch : StartM Unit :=
  modifyState fun context => { context with dispatched := true }

/-- `start_server` from the HTTP server on. -/
def startHttp : StartM Int := do
  if (← runHttpServer succeeds httpAddr) < 0 then
    stopServerContext
    return -1
  else
    yaServerSetComponentReady .http true
    eventBaseDispatch
    yaServerSetState .stopping
    stopServerContext
    yaServerSetState .stopped
    return 0

/-- `start_server` from the point on where the session server runs. -/
def startComponents : StartM Int := do
  yaServerSetComponentReady .session true
  if (← runCommandServer succeeds) < 0 then
    stopServerContext
    return -1
  else
    yaServerSetComponentReady .command true
    if (← runDiscoveryServer succeeds) = 0 then
      yaServerSetComponentReady .discovery true
      startHttp succeeds httpAddr
    else
      startHttp succeeds httpAddr

/-- `start_server`. -/
def startServer : StartM Int := do
  yaServerSetState .init
  if !succeeds .eventBaseNew then
    return -1
  else if !succeeds .evsignalNew then
    fault .nullDereference
  else if (← runSessionServer succeeds) < 0 then
    stopServerContext
    return -1
  else
    startComponents succeeds httpAddr

end Components

/-! ## What the components make of their calls -/

section Outcomes

variable (succeeds : StartCall → Bool) (httpAddr : CString)

/-- The UDP socket is bound. -/
def commandBinds : Bool :=
  succeeds .socket && succeeds .makeSocketNonblocking && succeeds .bind

/-- The UDP socket is bound, and its read event is registered. -/
def commandStarts : Bool :=
  commandBinds succeeds && succeeds .eventNew && succeeds .eventAdd

/-- The HTTP server is bound, or none is configured. -/
def HttpStarts : Prop :=
  HttpConfigured httpAddr →
    succeeds .evhttpNew = true ∧ succeeds .strdup = true ∧
      succeeds .evhttpBindSocket = true

/-- What there is behind `run_command_server`. -/
def Listening.withCommand (listening : Listening) : Listening :=
  { listening with
    commandBound := commandBinds succeeds || listening.commandBound
    commandReads := commandStarts succeeds || listening.commandReads }

/-- No result of `run_command_server` is one that its caller looks for. -/
theorem runCommandServer_apply (context : StartContext) :
    ∃ code, 0 ≤ code ∧
      runCommandServer succeeds context =
        (.ok code, { context with
          listening := context.listening.withCommand succeeds }) := by
  simp only [runCommandServer, Listening.withCommand, commandStarts,
    commandBinds]
  cases succeeds .socket with
  | false => exact ⟨2, by decide, rfl⟩
  | true =>
      cases succeeds .makeSocketNonblocking with
      | false => exact ⟨3, by decide, rfl⟩
      | true =>
          cases succeeds .bind with
          | false => exact ⟨4, by decide, rfl⟩
          | true =>
              cases succeeds .eventNew with
              | false => exact ⟨5, by decide, rfl⟩
              | true =>
                  cases succeeds .eventAdd with
                  | false => exact ⟨0, by decide, rfl⟩
                  | true => exact ⟨0, by decide, rfl⟩

private theorem runHttpServer_starts (starts : HttpStarts succeeds httpAddr)
    (context : StartContext) :
    runHttpServer succeeds httpAddr context =
      (.ok 0, { context with
        listening := { context.listening with
          httpBound := decide (HttpConfigured httpAddr) ||
            context.listening.httpBound } }) := by
  rw [runHttpServer]
  by_cases configured : HttpConfigured httpAddr
  · obtain ⟨created, copied, bound⟩ := starts configured
    simp only [configured, created, copied, bound, not_true_eq_false, if_false,
      Bool.not_true, Bool.false_eq_true, decide_true, Bool.true_or]
    rfl
  · simp only [configured, not_false_eq_true, if_true, decide_false,
      Bool.false_or]
    rfl

private theorem runHttpServer_fails (fails : ¬ HttpStarts succeeds httpAddr)
    (context : StartContext) :
    runHttpServer succeeds httpAddr context = (.ok (-1), context) := by
  obtain ⟨configured, calls⟩ := Classical.not_imp.mp fails
  simp only [runHttpServer, configured, not_true_eq_false, if_false]
  cases created : succeeds .evhttpNew with
  | false => rfl
  | true =>
      cases copied : succeeds .strdup with
      | false => rfl
      | true =>
          cases bound : succeeds .evhttpBindSocket with
          | false => rfl
          | true => exact absurd ⟨created, copied, bound⟩ calls

/-! ## A run of `start_server` -/

/-- The session server has been started, and nothing else. -/
def StartContext.sessionStarted : StartContext :=
  { initial with
    listening := { initial.listening with session := true }
    changes := [{ state := .init, listening := initial.listening }] }

/-- All but the HTTP server count as ready. -/
def StartContext.beforeHttp : StartContext :=
  { sessionStarted with
    componentsState := {
      sessionServerReady := true
      commandServerReady := true
      httpServerReady := false
      discoveryReady := true }
    listening := { sessionStarted.listening.withCommand succeeds with
      discoveryThread := succeeds .pthreadCreate } }

/-- What there is when all components count as ready. -/
def readyListening : Listening where
  session := true
  commandBound := commandBinds succeeds
  commandReads := commandStarts succeeds
  discoveryThread := succeeds .pthreadCreate
  httpBound := decide (HttpConfigured httpAddr)

private theorem startComponents_apply :
    startComponents succeeds httpAddr .sessionStarted =
      startHttp succeeds httpAddr (.beforeHttp succeeds) := by
  obtain ⟨code, nonnegative, command⟩ := runCommandServer_apply succeeds
    { StartContext.sessionStarted with
      componentsState := { StartContext.initial.componentsState with
        sessionServerReady := true } }
  have session : yaServerSetComponentReady .session true .sessionStarted =
      (.ok (), { StartContext.sessionStarted with
        componentsState := { StartContext.initial.componentsState with
          sessionServerReady := true } }) := rfl
  rw [startComponents, bind_of_ok session, bind_of_ok command,
    if_neg (Int.not_lt.mpr nonnegative)]
  rfl

private theorem startHttp_starts (starts : HttpStarts succeeds httpAddr) :
    (startHttp succeeds httpAddr (.beforeHttp succeeds)).1 = .ok 0 ∧
      (startHttp succeeds httpAddr (.beforeHttp succeeds)).2.changes.filter
          (·.state = .running) =
        [{ state := .running, listening := readyListening succeeds httpAddr }] := by
  have http := runHttpServer_starts succeeds httpAddr starts
    (.beforeHttp succeeds)
  have ready : { (StartContext.beforeHttp succeeds).listening with
        httpBound := decide (HttpConfigured httpAddr) ||
          (StartContext.beforeHttp succeeds).listening.httpBound } =
      readyListening succeeds httpAddr := by
    simp [StartContext.beforeHttp, StartContext.sessionStarted,
      StartContext.initial, Listening.withCommand, readyListening]
  rw [ready] at http
  rw [startHttp, bind_of_ok http]
  exact ⟨rfl, rfl⟩

private theorem startHttp_fails (fails : ¬ HttpStarts succeeds httpAddr) :
    (startHttp succeeds httpAddr (.beforeHttp succeeds)).1 = .ok (-1) ∧
      (startHttp succeeds httpAddr (.beforeHttp succeeds)).2.dispatched = false ∧
      (startHttp succeeds httpAddr (.beforeHttp succeeds)).2.changes.filter
          (·.state = .running) = [] := by
  have http := runHttpServer_fails succeeds httpAddr fails
    (.beforeHttp succeeds)
  rw [startHttp, bind_of_ok http]
  exact ⟨rfl, rfl, rfl⟩

/-- The calls in front of the command server succeed. -/
def SessionStarts : Prop :=
  succeeds .eventBaseNew = true ∧ succeeds .evsignalNew = true ∧
    succeeds .evconnlistenerNewBind = true

private theorem startServer_session (starts : SessionStarts succeeds) :
    startServer succeeds httpAddr .initial =
      startHttp succeeds httpAddr (.beforeHttp succeeds) := by
  obtain ⟨base, signal, listener⟩ := starts
  rw [← startComponents_apply, startServer]
  simp only [base, signal, runSessionServer, listener, Bool.not_true,
    Bool.false_eq_true, if_false]
  rfl

/-- Without the session server `start_server` fails early. -/
theorem startServer_noSession (fails : ¬ SessionStarts succeeds) :
    (startServer succeeds httpAddr .initial).1 ≠ .ok 0 ∧
      (startServer succeeds httpAddr .initial).2.dispatched = false ∧
      (startServer succeeds httpAddr .initial).2.changes.filter
          (·.state = .running) = [] := by
  have failed : (.ok (-1) : Except StartFault Int) ≠ .ok 0 := by decide
  rw [startServer]
  simp only [runSessionServer]
  cases base : succeeds .eventBaseNew with
  | false => exact ⟨failed, rfl, rfl⟩
  | true =>
      cases signal : succeeds .evsignalNew with
      | false => exact ⟨nofun, rfl, rfl⟩
      | true =>
          cases listener : succeeds .evconnlistenerNewBind with
          | false => exact ⟨failed, rfl, rfl⟩
          | true => exact absurd ⟨base, signal, listener⟩ fails

/-! ## What the state says -/

/-- All components are there that are configured. -/
structure AllListening (listening : Listening) : Prop where
  session : listening.session = true
  commandBound : listening.commandBound = true
  commandReads : listening.commandReads = true
  discoveryThread : listening.discoveryThread = true
  http : HttpConfigured httpAddr → listening.httpBound = true

/-- When the state becomes `running` all components are there, and if one of
the servers cannot be started, `start_server` fails before the event loop. -/
structure RunsHonestly : Prop where
  running :
    ∀ change ∈ (startServer succeeds httpAddr .initial).2.changes,
      change.state = .running → AllListening httpAddr change.listening
  refuses :
    ¬ (succeeds .evconnlistenerNewBind = true ∧
        commandStarts succeeds = true ∧ HttpStarts succeeds httpAddr) →
      (startServer succeeds httpAddr .initial).1 ≠ .ok 0 ∧
        (startServer succeeds httpAddr .initial).2.dispatched = false

private theorem running_of_filter_eq_nil {changes : List StateChange}
    (none : changes.filter (·.state = .running) = []) :
    ∀ change ∈ changes, change.state = .running →
      AllListening httpAddr change.listening := by
  intro change member isRunning
  have impossible := List.filter_eq_nil_iff.mp none change member
  exact absurd isRunning (by simpa using impossible)

private theorem allListening_iff :
    AllListening httpAddr (readyListening succeeds httpAddr) ↔
      commandStarts succeeds = true ∧ succeeds .pthreadCreate = true := by
  constructor
  · exact fun all => ⟨all.commandReads, all.discoveryThread⟩
  · intro starts
    have binds : commandBinds succeeds = true := by
      have := starts.1
      simp only [commandStarts, Bool.and_eq_true] at this
      exact this.1.1
    exact ⟨rfl, binds, starts.1, starts.2, fun configured => by
      simp [readyListening, configured]⟩

/-- The state is right if and only if the server fails for another reason, or
the command server and the discovery thread are there. -/
theorem startServer_honest_iff :
    RunsHonestly succeeds httpAddr ↔
      (SessionStarts succeeds → HttpStarts succeeds httpAddr →
        commandStarts succeeds = true ∧ succeeds .pthreadCreate = true) := by
  by_cases session : SessionStarts succeeds
  · by_cases http : HttpStarts succeeds httpAddr
    · obtain ⟨-, changes⟩ := startHttp_starts succeeds httpAddr http
      rw [← startServer_session succeeds httpAddr session] at changes
      constructor
      · intro honest _ _
        have member := List.mem_of_mem_filter
          (changes ▸ List.mem_singleton_self _)
        exact (allListening_iff succeeds httpAddr).mp
          (honest.running _ member rfl)
      · intro starts
        have ready := (allListening_iff succeeds httpAddr).mpr
          (starts session http)
        refine ⟨fun change member isRunning => ?_, fun fails => ?_⟩
        · have isReady : change ∈ List.filter (·.state = .running) _ :=
            List.mem_filter.mpr ⟨member, decide_eq_true isRunning⟩
          rw [changes, List.mem_singleton] at isReady
          rwa [isReady]
        · exact absurd ⟨session.2.2, (starts session http).1, http⟩ fails
    · obtain ⟨returned, loop, changes⟩ := startHttp_fails succeeds httpAddr http
      rw [← startServer_session succeeds httpAddr session] at returned loop changes
      refine iff_of_true ⟨running_of_filter_eq_nil httpAddr changes, fun _ => ?_⟩
        fun _ starts => absurd starts http
      rw [returned]
      exact ⟨by decide, loop⟩
  · obtain ⟨returned, loop, changes⟩ :=
      startServer_noSession succeeds httpAddr session
    exact iff_of_true
      ⟨running_of_filter_eq_nil httpAddr changes, fun _ => ⟨returned, loop⟩⟩
      fun starts => absurd starts session

end Outcomes

/-! ## A port that is taken -/

/-- Everything succeeds but the `bind` of the command server. -/
def commandPortTaken (call : StartCall) : Bool :=
  call ≠ .bind

/-- The server says that it runs, and returns 0 when the loop ends. -/
theorem startServer_commandPortTaken :
    commandStarts commandPortTaken = false ∧
      (startServer commandPortTaken (some [58, 56, 48]) .initial).1 = .ok 0 ∧
      (startServer commandPortTaken (some [58, 56, 48])
        .initial).2.dispatched = true ∧
      ¬ RunsHonestly commandPortTaken (some [58, 56, 48]) := by
  refine ⟨rfl, rfl, rfl, ?_⟩
  intro honest
  have refused := honest.refuses fun starts => Bool.false_ne_true starts.2.1
  exact refused.1 rfl

end MouseHero
