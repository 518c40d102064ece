import MouseHero.Input.Uinput

/-!
# Setting up the uinput device

`input_linux_init`, `input_linux_shutdown` and the check of `uinput_fd` in front
of every operation.  Each system call can fail.  What the device may send has to
be announced before it is created.
-/

namespace MouseHero

open FaultM

/-! ## What is announced -/

def EV_SYN : UInt16 := 0

def EV_KEY : UInt16 := 1

def EV_REL : UInt16 := 2

def mouseButtons : List UInt16 := [272, 273, 274]

/-- The axes: `REL_X`, `REL_Y`, the wheels and their high resolution. -/
def relativeAxes : List UInt16 := [REL_X, REL_Y, REL_WHEEL, REL_HWHEEL, 11, 12]

/-- `enabled_keys`, line by line. -/
def enabledKeys : List UInt16 :=
  [11, 2, 3, 4, 5, 6, 7, 8, 9, 10,
    30, 48, 46, 32, 18, 33, 34, 35, 23, 36, 37, 38, 50, 49, 24, 25, 16, 19, 31, 20,
    22, 47, 17, 45, 21, 44,
    12, 13, 26, 27, 43, 39, 40, 41, 51, 52, 53,
    1, 59, 60, 61, 62, 63, 64, 65, 66, 67, 68, 87, 88,
    183, 184, 185, 186, 187, 188, 189, 190, 191, 192, 193, 194,
    42, 54, 29, 97, 56, 100, 125, 126, 58, 69, 70,
    110, 111, 102, 107, 104, 109, 103, 108, 105, 106,
    15, 28, 57, 14,
    82, 79, 80, 81, 75, 76, 77, 71, 72, 73, 78, 74, 55, 98, 83, 96, 121, 179, 180,
    210, 99, 177, 178, 119, 411, 128, 155, 172, 159, 158, 173, 157, 140, 142, 143,
    113, 114, 115, 163, 165, 164, 166, 167,
    224, 225, 245,
    127]

/-- The event is one that the device announces. -/
def InputEvent.Announced : InputEvent → Prop
  | key code _ => code ∈ mouseButtons ++ enabledKeys
  | rel code _ => code ∈ relativeAxes
  | syn => True

/-! ## System calls -/

inductive UinputCall where
  | openDevice (fd : Nat)
  | setEvBit (fd : Nat) (type : UInt16)
  | setKeyBit (fd : Nat) (code : UInt16)
  | setRelBit (fd : Nat) (code : UInt16)
  | devSetup (fd : Nat)
  | devCreate (fd : Nat)
  | write (fd : Nat) (event : InputEvent)
  | close (fd : Nat)
  deriving DecidableEq, Repr

/-- `uinput_fd`, and the system calls so far, the latest first, each with its
success.  `fails` decides which of them fail. -/
structure UinputBackend where
  uinputFd : Option Nat
  fails : Nat → Bool
  trace : List (UinputCall × Bool)

/-- Computations of the backend.  They have no faults. -/
abbrev BackendM := FaultM PEmpty UinputBackend

def INPUT_BACKEND_ERROR_INIT : Int := -1

namespace UinputBackend

/-- The program has started. -/
def start (fails : Nat → Bool) : UinputBackend where
  uinputFd := none
  fails
  trace := []

def request (call : UinputCall) : BackendM Bool :=
  fun backend =>
    let succeeds := !backend.fails backend.trace.length
    (.ok succeeds, { backend with trace := (call, succeeds) :: backend.trace })

/-- The requests in order, up to the first one that fails. -/
def requestAll : List UinputCall → BackendM Bool
  | [] => return true
  | call :: calls => do
      if ← request call then requestAll calls else return false

/-- The requests in order, whether they fail or not. -/
def requestEach : List UinputCall → BackendM Unit
  | [] => return ()
  | call :: calls => do
      let _ ← request call
      requestEach calls

def setUinputFd (uinputFd : Option Nat) : BackendM Unit :=
  modifyState fun backend => { backend with uinputFd }

/-- `open`.  Every device that is opened gets a descriptor of its own. -/
def openUinput : BackendM (Option Nat) := do
  let backend ← getState
  let fd := backend.trace.length
  if ← request (.openDevice fd) then return some fd else return none

/-- The requests whose results are ignored. -/
def announcements (fd : Nat) : List UinputCall :=
  mouseButtons.map (.setKeyBit fd) ++ relativeAxes.map (.setRelBit fd) ++
    enabledKeys.map (.setKeyBit fd)

/-- The exit of `input_linux_init` behind a request that has failed. -/
def abandon (fd : Nat) : BackendM Int := do
  let _ ← request (.close fd)
  setUinputFd none
  return INPUT_BACKEND_ERROR_INIT

/-- `input_linux_init`. -/
def inputLinuxInit : BackendM Int := do
  let opened ← openUinput
  setUinputFd opened
  match opened with
  | none => return INPUT_BACKEND_ERROR_DEVICE
  | some fd =>
      if ← requestAll [.setEvBit fd EV_KEY, .setEvBit fd EV_REL, .setEvBit fd EV_SYN] then
        requestEach (announcements fd)
        if ← requestAll [.devSetup fd, .devCreate fd] then
          return INPUT_BACKEND_OK
        else abandon fd
      else abandon fd

/-- `input_linux_shutdown`. -/
def inputLinuxShutdown : BackendM Unit := do
  let backend ← getState
  match backend.uinputFd with
  | none => return ()
  | some fd =>
      let _ ← request (.close fd)
      setUinputFd none

/-- The writes of an operation go to a descriptor. -/
def performOn (fd : Nat) (call : DeviceCall) : BackendM Int :=
  fun backend =>
    let fails attempt := backend.fails (backend.trace.length + attempt)
    let (status, uinput) := Uinput.perform call { fails, attempts := [] }
    (status,
      { backend with
        trace := uinput.attempts.map (fun attempt =>
          (.write fd attempt.event, attempt.written)) ++ backend.trace })

/-- An operation, behind its check of `uinput_fd`. -/
def perform (call : DeviceCall) : BackendM Int := do
  let backend ← getState
  match backend.uinputFd with
  | none => return INPUT_BACKEND_ERROR_INIT
  | some fd => performOn fd call

end UinputBackend

/-- A call of the backend by the server. -/
inductive BackendOp where
  | init
  | shutdown
  | call (call : DeviceCall)
  deriving DecidableEq, Repr

namespace UinputBackend

def run : BackendOp → UinputBackend → UinputBackend
  | .init, backend => (inputLinuxInit backend).2
  | .shutdown, backend => (inputLinuxShutdown backend).2
  | .call call, backend => (perform call backend).2

/-- The backend behind some calls, the latest first. -/
def afterOps (fails : Nat → Bool) : List BackendOp → UinputBackend
  | [] => start fails
  | op :: earlier => run op (afterOps fails earlier)

end UinputBackend

end MouseHero
