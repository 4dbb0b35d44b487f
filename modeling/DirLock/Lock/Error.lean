import DirLock.Disk.Fault
import DirLock.Disk.Path
import DirLock.Lock.Name

/-!
# Errors of lock operations

Contention is no error: an operation that finds the lock taken says so in its result. What is left
are bad names and settings, failing requests to the system, and releasing what one does not hold.
-/

namespace DirLock

/-- What was being done when a request failed. -/
inductive Action where
  | createParent
  | inspectClaim
  | createStaging
  | writeHeld
  | writeHolder
  | moveStaging
  | releaseClaim
  | removeReleased
  | readHolder
  | parseHolder
  | runCommand
  /-- An action of the caller's own. -/
  | other (text : String)
  deriving DecidableEq, Repr

/-- The action in words, to stand between "failed to" and a path. -/
def Action.text : Action → String
  | .createParent => "create parent directory"
  | .inspectClaim => "inspect claim directory"
  | .createStaging => "create staging directory in"
  | .writeHeld => "write held marker"
  | .writeHolder => "write holder metadata"
  | .moveStaging => "move staging directory to"
  | .releaseClaim => "release claim directory"
  | .removeReleased => "remove released claim directory"
  | .readHolder => "read holder metadata"
  | .parseHolder => "parse holder metadata"
  | .runCommand => "run command"
  | .other text => text

/-! ## Exit statuses -/

namespace ExitStatus

def success : Nat := 0

/-- The user asked for something that makes no sense. -/
def userError : Nat := 1

/-- The file system or the random source failed. -/
def ioFailure : Nat := 3

/-- The lock is held by someone else, or was not free in time. -/
def notAcquired : Nat := 4

end ExitStatus

inductive LockError where
  /-- The name does not match the pattern of lock names. -/
  | invalidName (name pattern : String)
  /-- A request to the system failed. -/
  | io (action : Action) (path : Disk.Path) (source : Disk.Fault)
  /-- The handle does not own the lock it was asked to release. -/
  | notHeld (name : String)
  /-- The random source gave no nonce. -/
  | randomSource (reason : String)
  /-- The settings could not be read or make no sense. -/
  | config (reason : String)
  deriving DecidableEq, Repr

namespace LockError

def message : LockError → String
  | invalidName name pattern =>
    s!"invalid lock name {Text.quoted name}: names must match {Text.quoted pattern}"
  | io action path source => s!"failed to {action.text} '{path.display}': {source.message}"
  | notHeld name => s!"lock '{name}' is not held by this instance"
  | randomSource reason => s!"failed to generate lock nonce: {reason}"
  | config reason => reason

/-- The status with which a program ends because of the error. -/
def exitStatus : LockError → Nat
  | invalidName _ _ => ExitStatus.userError
  | config _ => ExitStatus.userError
  | notHeld _ => ExitStatus.userError
  | io _ _ _ => ExitStatus.ioFailure
  | randomSource _ => ExitStatus.ioFailure

end LockError

def validateName (name : String) : Except LockError LockName :=
  match LockName.ofString? name with
  | some name => .ok name
  | none => .error (.invalidName name LockName.pattern)

/-- Whether a failed rename means that somebody else's claim got there first. -/
def isLostRace (fault : Disk.Fault) : Bool :=
  fault.kind == .alreadyExists || fault.kind == .directoryNotEmpty

end DirLock
