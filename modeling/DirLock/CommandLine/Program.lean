import DirLock.CommandLine.Arguments
import DirLock.Config.Reader
import DirLock.Lock.Acquire
import DirLock.Lock.Opening
import DirLock.Log.Filter
import DirLock.Number.Shortest

/-!
# The program

What the program does for each command. A command that is run is run once, only while the lock is
held, and the lock is released before anything else is said about how the command ended.
-/

namespace DirLock.CommandLine

open Number (Binary64)
open Time (Span)

def loadConfig (choice : LockChoice) : Routine (Except LockError Config) :=
  match choice.config with
  | none => return .ok .default
  | some text => do
    let path := Disk.Path.ofString text
    return Config.ofContent path (← Routine.request (.readFile path))

/-- A handle for the lock that the command line names. -/
def openLock (choice : LockChoice) : Routine (Except LockError Lock) := do
  match ← loadConfig choice with
  | .error error => return .error error
  | .ok config => Lock.openIn (.ofString choice.dir) choice.name config

/-- The span of a number of seconds that a user gave. -/
def timeoutSpan (seconds : Binary64) : Except LockError Span :=
  match Span.ofSeconds? seconds with
  | some span => .ok span
  | none => .error (.config
      s!"invalid timeout {seconds.plain false}: expected a non-negative number of seconds")

/-- The status for the end of a child: its own, or 128 and the number of the signal that killed
it. -/
def childStatus : ChildEnd → Nat
  | .exited status => status
  | .killed signal => 128 + signal

/-- Run the program under a guard and release the lock. A program that cannot be started goes before
a lock that cannot be released, and that before the program's own end. -/
def runGuarded (guard : Guard) (program : String) (arguments : List String) :
    Routine (Except LockError Nat) := do
  Routine.note (.running guard.lock.name.text program)
  let ended ← Routine.request (.runProgram program arguments)
  let (_, released) ← guard.release
  match ended, released with
  | .error fault, _ => return .error (.io .runCommand (.ofString program) fault)
  | .ok _, .error error => return .error error
  | .ok ended, .ok () => return .ok (childStatus ended)

/-- Say that the time for waiting is over, and who holds the lock. -/
def reportTimeout (lock : Lock) (limit : Span) : Routine Unit := do
  Routine.request (.complain
    s!"{programName}: timed out after {limit.text} waiting for lock '{lock.name.text}'\n")
  match ← lock.holder? with
  | none => return ()
  | some holder =>
    let now ← Routine.request .now
    Routine.request (.complain s!"{programName}: held by {holder.describe now}\n")

/-- Acquire the lock, run a program, release the lock. There is no result if the lock is not free
after so many attempts and there is no deadline. -/
def runCommand (claimant : Claimant) (tries : Nat) (choice : LockChoice) (timeout : Option Binary64)
    (program : String) (arguments : List String) : Routine (Option (Except LockError Nat)) := do
  match timeout.mapM timeoutSpan with
  | .error error => return some (.error error)
  | .ok limit =>
    match ← openLock choice with
    | .error error => return some (.error error)
    | .ok lock =>
      match limit with
      | none =>
        match ← lock.hold claimant tries with
        | none => return none
        | some (.error error) => return some (.error error)
        | some (.ok guard) => return some (← runGuarded guard program arguments)
      | some limit =>
        match ← lock.tryHold claimant limit with
        | .error error => return some (.error error)
        | .ok (some guard) => return some (← runGuarded guard program arguments)
        | .ok none =>
          reportTimeout lock limit
          return some (.ok ExitStatus.notAcquired)

/-- Tell the status of a lock through a handle for it. -/
def tellOpened (choice : LockChoice) : Routine (Except LockError Nat) := do
  match ← openLock choice with
  | .error error => return .error error
  | .ok lock =>
    match ← lock.isLocked with
    | .error error => return .error error
    | .ok false =>
      Routine.request (.print s!"{lock.name.text}: free\n")
      return .ok ExitStatus.success
    | .ok true =>
      match ← lock.holder? with
      | some holder =>
        let now ← Routine.request .now
        Routine.request (.print s!"{lock.name.text}: held by {holder.describe now}\n")
      | none => Routine.request (.print s!"{lock.name.text}: held (holder unknown)\n")
      return .ok ExitStatus.notAcquired

/-- Tell whether the lock is held. Nothing is made, not even the directory of the lock. -/
def tellStatus (choice : LockChoice) : Routine (Except LockError Nat) := do
  if ← Routine.request (.isDirectory (.ofString choice.dir)) then tellOpened choice
  else
    match validateName choice.name with
    | .error error => return .error error
    | .ok name =>
      Routine.request (.print s!"{name.text}: free\n")
      return .ok ExitStatus.success

def perform (claimant : Claimant) (tries : Nat) : Command → Routine (Option (Except LockError Nat))
  | .run lock timeout program arguments =>
    runCommand claimant tries lock timeout program arguments
  | .status lock => some <$> tellStatus lock

/-- The status for a result: one that does not fit in a byte is that of a failure. -/
def finalStatus (status : Nat) : Nat := if status < 256 then status else ExitStatus.ioFailure

/-- The program from its arguments to its status. -/
def program (claimant : Claimant) (tries : Nat) (arguments : List String) :
    Routine (Option Nat) := do
  match readArguments arguments with
  | .error error =>
    if error.isRequest then Routine.request (.print (error.message programName))
    else Routine.request (.complain (error.message programName))
    return some error.exitStatus
  | .ok arguments =>
    match ← perform claimant tries arguments.command with
    | none => return none
    | some (.ok status) => return some (finalStatus status)
    | some (.error error) =>
      Routine.request (.complain s!"Error: {error.message}\n")
      return some (finalStatus error.exitStatus)

def eventFilter (setting : Option String) (arguments : List String) : Log.Filter :=
  Log.filterFor setting
    (match readArguments arguments with
      | .ok arguments => arguments.verbosity
      | .error _ => 0)

end DirLock.CommandLine
