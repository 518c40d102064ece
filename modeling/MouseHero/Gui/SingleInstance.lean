import MouseHero.Library.Runs
import Mathlib.Logic.Function.Basic

/-!
# A single instance

`SingleInstanceService` on Linux.  A launch looks for the socket of an instance
that runs, deletes a socket that nobody listens to and binds one of its own; an
instance that closes deletes what it finds under the path.  The launches of a
user share nothing but that path, and their calls happen in any order.  The
window that an instance shows when it is called is left out.
-/

namespace MouseHero

/-- What is under `_socketPath`: the socket of a launch, or anything else. -/
inductive SocketEntry where
  | socket (owner : Nat)
  | file
  | directory
  deriving DecidableEq, Repr

/-- Everything but a directory is a file to `exists`. -/
def SocketEntry.isFile : SocketEntry → Bool
  | directory => false
  | _ => true

/-- Where a launch is.  From `checking` to `binding` it is in `_checkLinux`, and
it waits there for the next call; in `closed` and `leaving` it is in `dispose`.
An instance that runs has a server socket, or could not get one. -/
inductive LaunchPhase where
  | absent
  | checking
  | found
  | connected
  | refused
  | binding
  | turnedAway
  | running (listens : Bool)
  | closed
  | leaving
  deriving DecidableEq, Repr

namespace LaunchPhase

/-- The check has returned `true`. -/
def isRunning : LaunchPhase → Bool
  | running _ => true
  | _ => false

/-- The check has found the path free, and is going to return `true`. -/
def isCommitted : LaunchPhase → Bool
  | refused => true
  | binding => true
  | _ => false

def isClosing : LaunchPhase → Bool
  | closed => true
  | leaving => true
  | _ => false

/-- What has been found under the path is about to be used. -/
def isBusy (phase : LaunchPhase) : Bool :=
  phase = found || phase.isCommitted || phase.isClosing

end LaunchPhase

/-- The calls of the launches.  The operating system says whether one that can
fail succeeds, and a process can end at any time.  A server socket that is closed
may take what is under its path away. -/
inductive LaunchEvent where
  | launch (launch : Nat)
  | look (launch : Nat)
  | connect (launch : Nat) (succeeds : Bool)
  | send (launch : Nat) (succeeds : Bool)
  | delete (launch : Nat) (succeeds : Bool)
  | bind (launch : Nat) (succeeds : Bool)
  | dispose (launch : Nat) (unlinks : Bool)
  | disposeLook (launch : Nat)
  | disposeDelete (launch : Nat) (succeeds : Bool)
  | exit (launch : Nat)
  deriving DecidableEq, Repr

/-- The launches of a user, and what is under the path. -/
structure Launches where
  phase : Nat → LaunchPhase
  entry : Option SocketEntry

namespace Launches

variable {launches next : Launches} {event : LaunchEvent} {launch other : Nat}

/-- Nothing runs, whatever has been left behind. -/
def start (entry : Option SocketEntry) : Launches where
  phase := fun _ => .absent
  entry

/-- The result of `socketFile.exists()`. -/
def fileExists (launches : Launches) : Bool :=
  launches.entry.any SocketEntry.isFile

/-- An instance listens to the socket under the path. -/
def served (launches : Launches) : Bool :=
  match launches.entry with
  | some (.socket owner) => launches.phase owner = .running true
  | _ => false

/-- What `exists` sends a launch to. -/
def looked (launches : Launches) : LaunchPhase :=
  if launches.fileExists then .found else .binding

def goTo (launches : Launches) (launch : Nat) (phase : LaunchPhase) : Launches :=
  { launches with phase := Function.update launches.phase launch phase }

def withEntry (launches : Launches) (entry : Option SocketEntry) : Launches :=
  { launches with entry }

/-- One step, if the call can have this outcome. -/
def step (launches : Launches) : LaunchEvent → Option Launches
  | .launch launch =>
      if launches.phase launch = .absent then
        some (launches.goTo launch .checking)
      else none
  | .look launch =>
      if launches.phase launch = .checking then
        some (launches.goTo launch launches.looked)
      else none
  | .connect launch succeeds =>
      if launches.phase launch = .found ∧ (succeeds → launches.served) then
        some (launches.goTo launch (if succeeds then .connected else .refused))
      else none
  | .send launch succeeds =>
      -- `add` and `close` are in the `try` of `connect`.
      if launches.phase launch = .connected then
        some (launches.goTo launch (if succeeds then .turnedAway else .refused))
      else none
  | .delete launch succeeds =>
      if launches.phase launch = .refused ∧ (succeeds → launches.entry.isSome) then
        some (if succeeds then (launches.goTo launch .binding).withEntry none
          else launches.goTo launch (.running false))
      else none
  | .bind launch succeeds =>
      -- A socket that is bound accepts connections, and `listen` follows at once.
      if launches.phase launch = .binding ∧ (succeeds → launches.entry.isNone) then
        some (if succeeds then
            (launches.goTo launch (.running true)).withEntry (some (.socket launch))
          else launches.goTo launch (.running false))
      else none
  | .dispose launch unlinks =>
      if (launches.phase launch).isRunning ∧
          (unlinks → launches.phase launch = .running true) then
        some ((launches.goTo launch .closed).withEntry
          (if unlinks then none else launches.entry))
      else none
  | .disposeLook launch =>
      if launches.phase launch = .closed then
        some (launches.goTo launch (if launches.fileExists then .leaving else .absent))
      else none
  | .disposeDelete launch succeeds =>
      if launches.phase launch = .leaving ∧ (succeeds → launches.entry.isSome) then
        some ((launches.goTo launch .absent).withEntry
          (if succeeds then none else launches.entry))
      else none
  | .exit launch =>
      if launches.phase launch = .absent then none
      else some (launches.goTo launch .absent)

/-- Two launches never run at a time. -/
def AtMostOne (launches : Launches) : Prop :=
  ∀ first second, (launches.phase first).isRunning = true →
    (launches.phase second).isRunning = true → first = second

/-- A call fails only if it has to. -/
def Faultless (launches : Launches) : LaunchEvent → Prop
  | .connect _ succeeds => succeeds = launches.served
  | .send _ succeeds => succeeds = true
  | .delete _ succeeds => succeeds = launches.entry.isSome
  | .bind _ succeeds => succeeds = launches.entry.isNone
  | _ => True

/-- No launch begins to look, or to close, while another one is about to use what
it has found. -/
def Alone (launches : Launches) : LaunchEvent → Prop
  | .look _ => ∀ other, (launches.phase other).isBusy = false
  | .dispose _ _ => ∀ other, (launches.phase other).isBusy = false
  | _ => True

def Orderly (launches : Launches) (event : LaunchEvent) : Prop :=
  launches.Faultless event ∧ launches.Alone event

/-! ## Phases and entries -/

@[simp] theorem entry_goTo {phase : LaunchPhase} :
    (launches.goTo launch phase).entry = launches.entry :=
  rfl

@[simp] theorem phase_goTo_self {phase : LaunchPhase} :
    (launches.goTo launch phase).phase launch = phase :=
  Function.update_self ..

theorem phase_goTo_of_ne {phase : LaunchPhase} (differs : other ≠ launch) :
    (launches.goTo launch phase).phase other = launches.phase other :=
  Function.update_of_ne differs ..

@[simp] theorem phase_withEntry {entry : Option SocketEntry} :
    (launches.withEntry entry).phase = launches.phase :=
  rfl

@[simp] theorem entry_withEntry {entry : Option SocketEntry} :
    (launches.withEntry entry).entry = entry :=
  rfl

theorem served_iff :
    launches.served = true ↔
      ∃ owner, launches.entry = some (.socket owner) ∧
        launches.phase owner = .running true := by
  rw [served]
  split
  · rename_i owner isSocket
    rw [decide_eq_true_iff]
    constructor
    · intro listens
      exact ⟨owner, isSocket, listens⟩
    · rintro ⟨other, isOther, listens⟩
      rw [isSocket] at isOther
      cases isOther
      exact listens
  · rename_i isOther
    constructor
    · intro absurdly
      cases absurdly
    · rintro ⟨owner, isSocket, -⟩
      exact absurd isSocket (isOther owner)

end Launches

end MouseHero
