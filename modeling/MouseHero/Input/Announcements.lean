import MouseHero.Input.DeviceSetup

/-!
# What the device may send

Whichever system calls fail, and in whichever order the backend is started, used
and stopped: every write goes to a device that has been created behind a request for
every announcement.  The events are announced, too, but for some keys.
-/

namespace MouseHero

open FaultM

/-! ## The events of an operation -/

namespace DeviceCall

/-- What an operation writes, unless a write fails. -/
def inputEvents : DeviceCall → List InputEvent
  | mouseMove dx dy =>
      (if dx ≠ 0 then [.rel REL_X dx] else []) ++
        (if dy ≠ 0 then [.rel REL_Y dy] else []) ++ [.syn]
  | mousePress button => Uinput.keyEvents (buttonToLinuxCode button) .press
  | mouseRelease button => Uinput.keyEvents (buttonToLinuxCode button) .release
  | mouseClick button => Uinput.keyEvents (buttonToLinuxCode button) .click
  | mouseScroll direction amount =>
      if amount ≤ 0 then []
      else
        match direction with
        | .up => [.rel REL_WHEEL amount, .syn]
        | .down => [.rel REL_WHEEL (-amount), .syn]
        | .left => [.rel REL_HWHEEL (-amount), .syn]
        | .right => [.rel REL_HWHEEL amount, .syn]
  | keyAction key direction =>
      match ckeyToLinuxKeycode key with
      | none => []
      | some code => Uinput.keyEvents code direction
  | keyActionRaw evdevKey direction => Uinput.keyEvents (.ofInt evdevKey) direction
  | _ => []

/-- Keys that `ckey_to_linux_keycode` has a code for, which `enabled_keys` lacks. -/
def unannouncedKeys : List CKey :=
  [.power, .micMute, .mediaFast, .mediaRewind, .browserSearch, .browserFavorites,
    .launchMediaSelect, .launchApp1, .launchApp2, .help, .undo, .redo, .find, .select,
    .execute, .eject, .zoom, .kana, .hangeul, .hangul, .hanja, .kanji, .convert,
    .nonConvert]

/-- The operation sends nothing that the device does not announce. -/
def Supported : DeviceCall → Prop
  | keyAction key _ => key ∉ unannouncedKeys
  | keyActionRaw evdevKey _ => .ofInt evdevKey ∈ mouseButtons ++ enabledKeys
  | _ => True

end DeviceCall

theorem perform_inputEvents (call : DeviceCall) (uinput : Uinput) :
    (Uinput.perform call uinput).2 =
      (Uinput.emitEvents call.inputEvents uinput).2 := by
  cases call with
  | mouseClick button =>
      simp only [Uinput.perform, Uinput.mouseClick_eq, DeviceCall.inputEvents]
  | mouseScroll direction amount =>
      simp only [Uinput.perform, Uinput.mouseScroll, DeviceCall.inputEvents]
      split
      · rfl
      · cases direction <;> rfl
  | keyAction key direction =>
      simp only [Uinput.perform, Uinput.keyAction, DeviceCall.inputEvents]
      cases ckeyToLinuxKeycode key <;> rfl
  | _ => rfl

/-- The writes are among the events, and the first event is always written. -/
theorem emitEvents_attempts (events : List InputEvent) (uinput : Uinput) :
    ∃ attempts,
      (Uinput.emitEvents events uinput).2.attempts = attempts ++ uinput.attempts ∧
        (∀ attempt ∈ attempts, attempt.event ∈ events) ∧
        ∀ event ∈ events.head?, ∃ attempt ∈ attempts, attempt.event = event := by
  induction events generalizing uinput with
  | nil => exact ⟨[], rfl, by simp, by simp⟩
  | cons event events inductionHypothesis =>
      rw [Uinput.emitEvents_cons]
      by_cases fails : uinput.fails uinput.attempts.length = true
      · rw [if_pos fails]
        exact ⟨[⟨event, false⟩], rfl, by simp, by simp⟩
      · rw [if_neg fails]
        obtain ⟨attempts, reached, among, _⟩ := inductionHypothesis
          { uinput with attempts := ⟨event, true⟩ :: uinput.attempts }
        refine ⟨attempts ++ [⟨event, true⟩], by simp [reached], ?_, by simp⟩
        intro attempt isAttempt
        rcases List.mem_append.mp isAttempt with isLater | isFirst
        · exact List.mem_cons_of_mem event (among attempt isLater)
        · rw [List.mem_singleton.mp isFirst]
          exact List.mem_cons_self

/-! ## Announced events -/

theorem buttonToLinuxCode_announced (button : CButton) :
    buttonToLinuxCode button ∈ mouseButtons ++ enabledKeys := by
  cases button <;> decide

private theorem all_ckeyToLinuxKeycode (key : CKey) :
    (ckeyToLinuxKeycode key).all (mouseButtons ++ enabledKeys).contains =
      !DeviceCall.unannouncedKeys.contains key := by
  cases key with
  | f index => revert index; decide
  | num digit => revert digit; decide
  | numpad digit => revert digit; decide
  | _ => decide +kernel

theorem ckeyToLinuxKeycode_announced_iff (key : CKey) :
    (∀ code ∈ ckeyToLinuxKeycode key, code ∈ mouseButtons ++ enabledKeys) ↔
      key ∉ DeviceCall.unannouncedKeys := by
  rw [← List.contains_iff_mem, Bool.not_eq_true, ← Bool.not_eq_true',
    ← all_ckeyToLinuxKeycode, Option.all_eq_true]
  simp only [List.contains_iff_mem, Option.mem_def]

theorem keyEvents_announced_iff (code : UInt16) (direction : CDirection) :
    (∀ event ∈ Uinput.keyEvents code direction, event.Announced) ↔
      code ∈ mouseButtons ++ enabledKeys := by
  cases direction <;> simp [Uinput.keyEvents, InputEvent.Announced]

private theorem keyEvents_head (code : UInt16) (direction : CDirection) :
    ∃ down, (Uinput.keyEvents code direction).head? = some (.key code down) := by
  cases direction with
  | release => exact ⟨false, rfl⟩
  | press => exact ⟨true, rfl⟩
  | click => exact ⟨true, rfl⟩

/-- An operation sends only announced events if it is supported. -/
theorem supported_iff (call : DeviceCall) :
    call.Supported ↔ ∀ event ∈ call.inputEvents, event.Announced := by
  cases call with
  | keyAction key direction =>
      simp only [DeviceCall.Supported, DeviceCall.inputEvents,
        ← ckeyToLinuxKeycode_announced_iff]
      cases ckeyToLinuxKeycode key with
      | none => simp
      | some code => simp only [Option.mem_some_iff, forall_eq', keyEvents_announced_iff]
  | keyActionRaw evdevKey direction =>
      simp only [DeviceCall.Supported, DeviceCall.inputEvents, keyEvents_announced_iff]
  | mousePress button | mouseRelease button | mouseClick button =>
      simp only [DeviceCall.Supported, DeviceCall.inputEvents, keyEvents_announced_iff,
        buttonToLinuxCode_announced]
  | mouseMove dx dy =>
      by_cases isX : dx = 0 <;> by_cases isY : dy = 0 <;>
        simp [DeviceCall.Supported, DeviceCall.inputEvents, InputEvent.Announced,
          relativeAxes, isX, isY]
  | mouseScroll direction amount =>
      by_cases isNone : amount ≤ 0 <;> cases direction <;>
        simp [DeviceCall.Supported, DeviceCall.inputEvents, InputEvent.Announced,
          relativeAxes, isNone]
  | _ => simp [DeviceCall.Supported, DeviceCall.inputEvents]

/-- What is not announced is found at the first event. -/
theorem supported_of_head {call : DeviceCall}
    (announced : ∀ event ∈ call.inputEvents.head?, event.Announced) :
    call.Supported := by
  cases call with
  | keyAction key direction =>
      rw [DeviceCall.Supported, ← ckeyToLinuxKeycode_announced_iff]
      intro code isCode
      simp only [DeviceCall.inputEvents, Option.mem_def.mp isCode] at announced
      obtain ⟨down, isHead⟩ := keyEvents_head code direction
      exact announced _ isHead
  | keyActionRaw evdevKey direction =>
      obtain ⟨down, isHead⟩ := keyEvents_head (.ofInt evdevKey) direction
      exact announced _ isHead
  | _ => trivial

/-! ## Requests -/

namespace UinputBackend

variable {fd : Nat} {trace requests : List (UinputCall × Bool)}

theorem requestAll_cases (calls : List UinputCall) (backend : UinputBackend) :
    ∃ succeeds requests,
      requestAll calls backend =
        (.ok succeeds, { backend with trace := requests ++ backend.trace }) ∧
      (∀ entry ∈ requests, entry.1 ∈ calls) ∧
      (succeeds = true → requests = (calls.map fun call => (call, true)).reverse) := by
  induction calls generalizing backend with
  | nil => exact ⟨true, [], rfl, by simp, by simp⟩
  | cons call calls inductionHypothesis =>
      cases outcome : backend.fails backend.trace.length with
      | true =>
          refine ⟨false, [(call, false)], ?_, by simp, by simp⟩
          simp [requestAll, request, bind_apply, outcome]
      | false =>
          obtain ⟨succeeds, requests, reached, among, exact'⟩ := inductionHypothesis
            { backend with trace := (call, true) :: backend.trace }
          refine ⟨succeeds, requests ++ [(call, true)], ?_, ?_, ?_⟩
          · simp [requestAll, request, bind_apply, outcome, reached]
          · intro entry isEntry
            rcases List.mem_append.mp isEntry with isLater | isFirst
            · exact List.mem_cons_of_mem call (among entry isLater)
            · rw [List.mem_singleton.mp isFirst]
              exact List.mem_cons_self
          · intro succeeded
            simp [exact' succeeded]

theorem requestEach_cases (calls : List UinputCall) (backend : UinputBackend) :
    ∃ requests,
      requestEach calls backend =
        (.ok (), { backend with trace := requests ++ backend.trace }) ∧
      requests.map Prod.fst = calls.reverse := by
  induction calls generalizing backend with
  | nil => exact ⟨[], rfl, rfl⟩
  | cons call calls inductionHypothesis =>
      obtain ⟨requests, reached, order⟩ :=
        inductionHypothesis (request call backend).2
      refine ⟨requests ++ [(call, !backend.fails backend.trace.length)], ?_, ?_⟩
      · simpa [requestEach, bind_apply, request] using reached
      · simp [order]

/-! ## A device that is set up -/

/-- The requests that set a device up, the latest first.  Those for the keys and
the axes may have failed. -/
def setup (fd : Nat) (bits : List (UinputCall × Bool)) : List (UinputCall × Bool) :=
  [(.devCreate fd, true), (.devSetup fd, true)] ++ bits ++
    [(.setEvBit fd EV_SYN, true), (.setEvBit fd EV_REL, true),
      (.setEvBit fd EV_KEY, true), (.openDevice fd, true)]

/-- The device has been set up with every announcement requested, and has only been
written to since. -/
def Prepared (fd : Nat) (trace : List (UinputCall × Bool)) : Prop :=
  ∃ since bits before,
    trace = since ++ setup fd bits ++ before ∧
      (∀ entry ∈ since, ∃ event, entry.1 = .write fd event) ∧
      bits.map Prod.fst = (announcements fd).reverse

theorem Prepared.append (prepared : Prepared fd trace)
    (writes : ∀ entry ∈ requests, ∃ event, entry.1 = .write fd event) :
    Prepared fd (requests ++ trace) := by
  obtain ⟨since, bits, before, isTrace, onlyWrites, allBits⟩ := prepared
  refine ⟨requests ++ since, bits, before, by simp [isTrace], ?_, allBits⟩
  intro entry isEntry
  exact (List.mem_append.mp isEntry).elim (writes entry) (onlyWrites entry)

/-- Requests without a write. -/
def Quiet (requests : List (UinputCall × Bool)) : Prop :=
  ∀ fd event written, (.write fd event, written) ∉ requests

theorem Quiet.append {later earlier : List (UinputCall × Bool)}
    (quiet : Quiet later) (before : Quiet earlier) : Quiet (later ++ earlier) :=
  fun fd event written isWrite =>
    (List.mem_append.mp isWrite).elim (quiet fd event written) (before fd event written)

/-- Requests of some calls, none of which is a write. -/
theorem quiet_of_calls (calls : List UinputCall)
    (among : ∀ entry ∈ requests, entry.1 ∈ calls)
    (noWrite : ∀ fd event, .write fd event ∉ calls) : Quiet requests :=
  fun fd event _ isWrite => noWrite fd event (among _ isWrite)

/-- Everything that is written goes to a device that is set up. -/
def Guarded (trace : List (UinputCall × Bool)) : Prop :=
  ∀ fd event written earlier,
    (.write fd event, written) :: earlier <:+ trace → Prepared fd earlier

theorem Guarded.append_quiet (guarded : Guarded trace) (quiet : Quiet requests) :
    Guarded (requests ++ trace) := by
  induction requests with
  | nil => exact guarded
  | cons entry requests inductionHypothesis =>
      intro fd event written earlier isSuffix
      rcases List.suffix_cons_iff.mp isSuffix with isFirst | isLater
      · rw [(List.cons.inj isFirst).1.symm] at quiet
        exact absurd List.mem_cons_self (quiet fd event written)
      · exact inductionHypothesis
          (fun fd event written isWrite =>
            quiet fd event written (List.mem_cons_of_mem entry isWrite))
          fd event written earlier isLater

theorem Guarded.append_writes (guarded : Guarded trace) (prepared : Prepared fd trace)
    (writes : ∀ entry ∈ requests, ∃ event, entry.1 = .write fd event) :
    Guarded (requests ++ trace) := by
  induction requests with
  | nil => exact guarded
  | cons entry requests inductionHypothesis =>
      obtain ⟨isWrite, areWrites⟩ := List.forall_mem_cons.mp writes
      intro target event written earlier isSuffix
      rcases List.suffix_cons_iff.mp isSuffix with isFirst | isLater
      · obtain ⟨isEntry, rfl⟩ := List.cons.inj isFirst
        obtain ⟨sent, isSent⟩ := isWrite
        rw [← isEntry] at isSent
        cases isSent
        exact prepared.append areWrites
      · exact inductionHypothesis areWrites target event written earlier isLater

/-! ## Outcomes -/

variable {backend : UinputBackend}

/-- What the start of the backend does: it writes nothing, and it leaves no
device behind or one that it has set up. -/
def Starts (before after : UinputBackend) : Prop :=
  ∃ requests,
    after.trace = requests ++ before.trace ∧
    Quiet requests ∧
    ∀ fd, after.uinputFd = some fd →
      ∃ bits, requests = setup fd bits ∧
        bits.map Prod.fst = (announcements fd).reverse

theorem starts_abandon {reached : UinputBackend}
    (isTrace : reached.trace = requests ++ backend.trace) (quiet : Quiet requests) :
    Starts backend (abandon fd reached).2 := by
  refine ⟨(.close fd, !reached.fails reached.trace.length) :: requests, ?_, ?_, ?_⟩
  · exact congrArg _ isTrace
  · exact (show Quiet [_] from by simp [Quiet]).append quiet
  · intro fd isOpen
    cases isOpen

theorem starts_inputLinuxInit (backend : UinputBackend) :
    Starts backend (inputLinuxInit backend).2 := by
  simp only [inputLinuxInit, openUinput, bind_apply, getState_apply, request]
  cases backend.fails backend.trace.length with
  | true =>
      refine ⟨[(.openDevice backend.trace.length, false)], rfl, by simp [Quiet], ?_⟩
      intro fd isOpen
      cases isOpen
  | false =>
      generalize backend.trace.length = fd
      obtain ⟨succeeds, types, typesReached, areTypes, allTypes⟩ := requestAll_cases
        [.setEvBit fd EV_KEY, .setEvBit fd EV_REL, .setEvBit fd EV_SYN]
        { backend with
          uinputFd := some fd, trace := (.openDevice fd, true) :: backend.trace }
      have quietTypes : Quiet (types ++ [(.openDevice fd, true)]) :=
        (quiet_of_calls _ areTypes (by simp)).append (by simp [Quiet])
      simp only [setUinputFd, modifyState_apply, Bool.not_false, if_true, pure_apply]
      rw [bind_of_ok typesReached]
      cases succeeds with
      | false => exact starts_abandon (by simp) quietTypes
      | true =>
          obtain ⟨bits, bitsReached, allBits⟩ := requestEach_cases (announcements fd)
            { backend with
              uinputFd := some fd
              trace := types ++ (.openDevice fd, true) :: backend.trace }
          obtain ⟨created, creation, creationReached, isCreation, allCreation⟩ :=
            requestAll_cases [.devSetup fd, .devCreate fd]
              { backend with
                uinputFd := some fd
                trace := bits ++ (types ++ (.openDevice fd, true) :: backend.trace) }
          have quietBits : Quiet bits := by
            refine quiet_of_calls (announcements fd) (fun entry isEntry => ?_) ?_
            · rw [← List.mem_reverse, ← allBits]
              exact List.mem_map_of_mem isEntry
            · simp [announcements]
          have quiet := (quiet_of_calls _ isCreation (by simp)).append
            (quietBits.append quietTypes)
          rw [if_pos rfl, bind_of_ok bitsReached, bind_of_ok creationReached]
          cases created with
          | false => exact starts_abandon (by simp) quiet
          | true =>
              refine ⟨_, by simp, quiet, ?_⟩
              intro opened isOpen
              cases isOpen
              exact ⟨bits, by simp [setup, allTypes rfl, allCreation rfl], allBits⟩

/-- What an operation does with an open device. -/
theorem performOn_cases (fd : Nat) (call : DeviceCall) (backend : UinputBackend) :
    ∃ requests,
      (performOn fd call backend).2 =
        { backend with trace := requests ++ backend.trace } ∧
      (∀ entry ∈ requests, ∃ event ∈ call.inputEvents, entry.1 = .write fd event) ∧
      ∀ event ∈ call.inputEvents.head?,
        ∃ written, (.write fd event, written) ∈ requests := by
  obtain ⟨attempts, reached, among, head⟩ := emitEvents_attempts call.inputEvents
    { fails := fun attempt => backend.fails (backend.trace.length + attempt), attempts := [] }
  rw [List.append_nil, ← perform_inputEvents] at reached
  refine ⟨attempts.map fun attempt => (.write fd attempt.event, attempt.written), ?_, ?_, ?_⟩
  · simp only [performOn, reached]
  · intro entry isEntry
    obtain ⟨attempt, isAttempt, rfl⟩ := List.mem_map.mp isEntry
    exact ⟨attempt.event, among attempt isAttempt, rfl⟩
  · intro event isHead
    obtain ⟨attempt, isAttempt, rfl⟩ := head event isHead
    exact ⟨attempt.written, List.mem_map_of_mem isAttempt⟩

theorem inputLinuxShutdown_cases (backend : UinputBackend) :
    ∃ requests,
      (inputLinuxShutdown backend).2.trace = requests ++ backend.trace ∧
      Quiet requests ∧
      ∀ fd, (inputLinuxShutdown backend).2.uinputFd = some fd →
        requests = [] ∧ backend.uinputFd = some fd := by
  cases isOpen : backend.uinputFd with
  | none =>
      refine ⟨[], by simp [inputLinuxShutdown, bind_apply, isOpen], by simp [Quiet], ?_⟩
      simp [inputLinuxShutdown, bind_apply, isOpen]
  | some fd =>
      refine ⟨[(.close fd, !backend.fails backend.trace.length)], ?_, by simp [Quiet], ?_⟩ <;>
        simp [inputLinuxShutdown, bind_apply, isOpen, request, setUinputFd]

theorem run_call_of_open {call : DeviceCall} (isOpen : backend.uinputFd = some fd) :
    run (.call call) backend = (performOn fd call backend).2 := by
  simp [run, perform, bind_apply, isOpen]

/-! ## Runs -/

/-- Between two calls: an open device is one that is set up. -/
structure Sound (backend : UinputBackend) : Prop where
  prepared : ∀ fd, backend.uinputFd = some fd → Prepared fd backend.trace
  guarded : Guarded backend.trace

theorem Sound.run (sound : Sound backend) (op : BackendOp) :
    Sound (run op backend) := by
  cases op with
  | init =>
      obtain ⟨requests, reached, quiet, isSetup⟩ := starts_inputLinuxInit backend
      constructor
      · intro fd isOpen
        obtain ⟨bits, rfl, allBits⟩ := isSetup fd isOpen
        exact ⟨[], bits, backend.trace, reached, by simp, allBits⟩
      · rw [UinputBackend.run, reached]
        exact sound.guarded.append_quiet quiet
  | shutdown =>
      obtain ⟨requests, reached, quiet, isOpen⟩ := inputLinuxShutdown_cases backend
      constructor
      · intro fd remains
        obtain ⟨rfl, wasOpen⟩ := isOpen fd remains
        rw [UinputBackend.run, reached]
        exact sound.prepared fd wasOpen
      · rw [UinputBackend.run, reached]
        exact sound.guarded.append_quiet quiet
  | call call =>
      cases isOpen : backend.uinputFd with
      | none => simpa [UinputBackend.run, perform, bind_apply, isOpen] using sound
      | some fd =>
          obtain ⟨requests, reached, among, _⟩ := performOn_cases fd call backend
          have writes : ∀ entry ∈ requests, ∃ event, entry.1 = .write fd event := by
            intro entry isEntry
            obtain ⟨event, _, isWrite⟩ := among entry isEntry
            exact ⟨event, isWrite⟩
          have prepared := sound.prepared fd isOpen
          rw [run_call_of_open isOpen, reached]
          constructor
          · intro opened remains
            obtain rfl := Option.some.inj (isOpen.symm.trans remains)
            exact prepared.append writes
          · exact sound.guarded.append_writes prepared writes

theorem sound_afterOps (fails : Nat → Bool) (ops : List BackendOp) :
    Sound (afterOps fails ops) := by
  induction ops with
  | nil =>
      constructor
      · intro fd isOpen
        cases isOpen
      · intro fd event written earlier isSuffix
        cases List.suffix_nil.mp isSuffix
  | cons op ops inductionHypothesis => exact inductionHypothesis.run op

/-! ## Announced events -/

/-- Everything that is written is announced. -/
def AllAnnounced (trace : List (UinputCall × Bool)) : Prop :=
  ∀ fd event written, (.write fd event, written) ∈ trace → event.Announced

theorem allAnnounced_append :
    AllAnnounced (requests ++ trace) ↔ AllAnnounced requests ∧ AllAnnounced trace := by
  simp only [AllAnnounced, List.mem_append, or_imp, forall_and]

theorem Quiet.allAnnounced (quiet : Quiet requests) : AllAnnounced requests :=
  fun fd event written isWrite => absurd isWrite (quiet fd event written)

/-- Operations on an open device are supported. -/
def AllSupported (fails : Nat → Bool) (ops : List BackendOp) : Prop :=
  ∀ call earlier, .call call :: earlier <:+ ops →
    (afterOps fails earlier).uinputFd.isSome → call.Supported

theorem allSupported_cons (fails : Nat → Bool) (op : BackendOp) (ops : List BackendOp) :
    AllSupported fails (op :: ops) ↔
      (∀ call, op = .call call → (afterOps fails ops).uinputFd.isSome → call.Supported) ∧
        AllSupported fails ops := by
  constructor
  · intro supported
    constructor
    · intro call isCall
      rw [isCall] at supported
      exact supported call ops List.suffix_rfl
    · exact fun call earlier isSuffix =>
        supported call earlier (isSuffix.trans (List.suffix_cons op ops))
  · intro supported call earlier isSuffix
    obtain ⟨latest, before⟩ := supported
    rcases List.suffix_cons_iff.mp isSuffix with isFirst | isLater
    · obtain ⟨isCall, rfl⟩ := List.cons.inj isFirst
      exact latest call isCall.symm
    · exact before call earlier isLater

theorem allAnnounced_run (op : BackendOp) (backend : UinputBackend) :
    AllAnnounced (run op backend).trace ↔
      (∀ call, op = .call call → backend.uinputFd.isSome → call.Supported) ∧
        AllAnnounced backend.trace := by
  cases op with
  | init =>
      obtain ⟨requests, reached, quiet, _⟩ := starts_inputLinuxInit backend
      simp [run, reached, allAnnounced_append, quiet.allAnnounced]
  | shutdown =>
      obtain ⟨requests, reached, quiet, _⟩ := inputLinuxShutdown_cases backend
      simp [run, reached, allAnnounced_append, quiet.allAnnounced]
  | call call =>
      cases isOpen : backend.uinputFd with
      | none => simp [run, perform, bind_apply, isOpen]
      | some fd =>
          obtain ⟨requests, reached, among, head⟩ := performOn_cases fd call backend
          have announced : AllAnnounced requests ↔ call.Supported := by
            constructor
            · intro announced
              refine supported_of_head fun event isHead => ?_
              obtain ⟨written, isWrite⟩ := head event isHead
              exact announced fd event written isWrite
            · intro supported target event written isWrite
              obtain ⟨sent, isSent, isEvent⟩ := among _ isWrite
              cases isEvent
              exact (supported_iff call).mp supported event isSent
          rw [run_call_of_open isOpen, reached, allAnnounced_append, announced]
          simp

/-- In every run of the backend, whichever system calls fail, everything written
goes to a device that has been set up with every announcement requested.  It is among
them itself exactly if the operations on an open device are supported. -/
theorem writes_announced_iff (fails : Nat → Bool) (ops : List BackendOp) :
    (∀ fd event written earlier,
      (.write fd event, written) :: earlier <:+ (afterOps fails ops).trace →
        Prepared fd earlier) ∧
    ((∀ fd event written,
        (.write fd event, written) ∈ (afterOps fails ops).trace → event.Announced) ↔
      ∀ call earlier, .call call :: earlier <:+ ops →
        (afterOps fails earlier).uinputFd.isSome → call.Supported) := by
  refine ⟨(sound_afterOps fails ops).guarded, ?_⟩
  change AllAnnounced (afterOps fails ops).trace ↔ AllSupported fails ops
  induction ops with
  | nil => simp [AllAnnounced, AllSupported, afterOps, start]
  | cons op ops inductionHypothesis =>
      rw [allSupported_cons, ← inductionHypothesis]
      exact allAnnounced_run op (afterOps fails ops)

end UinputBackend

end MouseHero
