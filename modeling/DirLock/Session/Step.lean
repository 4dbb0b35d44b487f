import DirLock.CommandLine.Program
import DirLock.Session.Basic
import DirLock.Shell.Run

/-!
# The steps of a session

One step is one call on a handle or a guard, one look at the disk, or one deed of somebody else.
Steps that name a handle or guard that is not there say so and do nothing.
-/

namespace DirLock

open Disk (Path Fault EntryKind)
open Time (Span)

inductive Step where
  | openLock (id : String) (parent : Path) (name : String) (config : Config)
  | tryClaim (id : String)
  | acquire (id : String)
  | tryAcquire (id : String) (limit : Span)
  | hold (id guard : String)
  | tryHold (id : String) (limit : Span) (guard : String)
  | isHeld (id : String)
  | isLocked (id : String)
  | holder (id : String)
  | unlock (id : String)
  | releaseGuard (guard : String)
  | dropGuard (guard : String)
  | loadConfig (path : Path)
  | readHolder (path : Path)
  | outside (deed : Outsider)
  | readText (path : Path)
  /-- What kind of entry the path leads to. -/
  | look (path : Path)
  /-- Run the program with arguments, under a setting of the events to show. -/
  | program (claimant : Claimant) (events : Option String) (arguments : List String)

inductive Answer where
  | noSuchLock
  | noSuchGuard
  | opened (result : Except LockError Lock)
  | flag (value : Bool)
  | tried (result : Except LockError Bool)
  | finished (result : Except LockError Unit)
  /-- A guard, and whether its lock is held; or no guard. -/
  | guarded (result : Except LockError (Option Bool))
  | holder (holder : Option Holder)
  | dropped
  | config (result : Except LockError Config)
  | described (result : Except LockError Holder)
  | outside (result : Except Fault Unit)
  | content (result : Except Fault (List UInt8))
  | kind (result : Option EntryKind)
  /-- A program's status, which events it shows, and all that was written. -/
  | ended (status : Nat) (filter : Log.Filter) (transcript : List Output)
  /-- The call would wait for ever. -/
  | waiting

namespace Session

/-- Do something with the handle of this name. -/
def withLock (session : Session) (id : String) (act : Lock → Answer × Session) : Answer × Session :=
  match session.lock? id with
  | none => (.noSuchLock, session)
  | some lock => act lock

/-- Run a routine and put its value into an answer. -/
def callFor {α : Type} (session : Session) (answer : α → Answer) (routine : Routine α) :
    Answer × Session :=
  let (value, session) := session.call routine
  (answer value, session)

/-- Keep the guard that a call gave, and say whether its lock is held. -/
def keepNew (session : Session) (name : String) (guard : Guard) : Answer × Session :=
  let (held, session) := session.call guard.lock.isHeld
  (.guarded (.ok (some held)), session.keepGuard name guard)

def runProgram (session : Session) (claimant : Claimant) (events : Option String)
    (arguments : List String) : Answer × Session :=
  let machine := { session.machine with written := [] }
  let routine := CommandLine.program claimant patience arguments
  let programs := Shell.programs (claimant.pid.toNat + 1)
  let (status, machine) := routine.run (Machine.answer session.supply programs) machine
  let answer := match status with
    | none => .waiting
    | some status =>
      .ended status (CommandLine.eventFilter events arguments) machine.transcript
  (answer, { session with machine := { machine with written := session.machine.written } })

def perform (session : Session) : Step → Answer × Session
  | .openLock id parent name config =>
    let (result, session) := session.call (Lock.openIn parent name config)
    match result with
    | .ok lock => (.opened (.ok lock), session.setLock id lock)
    | .error error => (.opened (.error error), session)
  | .tryClaim id => session.withLock id fun lock =>
    session.callFor .tried (lock.tryClaim session.claimant)
  | .acquire id => session.withLock id fun lock =>
    session.callFor (fun result => result.elim .waiting .finished)
      (lock.acquire session.claimant patience)
  | .tryAcquire id limit => session.withLock id fun lock =>
    session.callFor .tried (lock.tryAcquire session.claimant limit)
  | .hold id guard => session.withLock id fun lock =>
    let (result, session) := session.call (lock.hold session.claimant patience)
    match result with
    | none => (.waiting, session)
    | some (.error error) => (.guarded (.error error), session)
    | some (.ok new) => session.keepNew guard new
  | .tryHold id limit guard => session.withLock id fun lock =>
    let (result, session) := session.call (lock.tryHold session.claimant limit)
    match result with
    | .error error => (.guarded (.error error), session)
    | .ok none => (.guarded (.ok none), session)
    | .ok (some new) => session.keepNew guard new
  | .isHeld id => session.withLock id fun lock => session.callFor .flag lock.isHeld
  | .isLocked id => session.withLock id fun lock => session.callFor .tried lock.isLocked
  | .holder id => session.withLock id fun lock => session.callFor .holder lock.holder?
  | .unlock id => session.withLock id fun lock => session.callFor .finished lock.unlock
  | .releaseGuard name =>
    match session.guard? name with
    | none => (.noSuchGuard, session)
    | some guard =>
      let ((_, result), session) := (session.eraseGuard name).call guard.release
      (.finished result, session)
  | .dropGuard name =>
    match session.guard? name with
    | none => (.noSuchGuard, session)
    | some guard => (.dropped, (session.eraseGuard name).dropGuard guard)
  | .loadConfig path => session.callFor .config (loadConfig path)
  | .readHolder path => session.callFor .described (readHolder path)
  | .outside deed => session.callFor .outside deed.routine
  | .readText path => session.callFor .content (Routine.request (.readFile path))
  | .look path =>
    (.kind (session.machine.tree.targetKind session.machine.directory path).toOption, session)
  | .program claimant events arguments => session.runProgram claimant events arguments

/-- Take a step; a deed of somebody else that has not fallen due by its end is done after it. The
number tells how many nanoseconds the step itself took. -/
def take (session : Session) (step : Step) : Answer × Nat × Session :=
  let before := session.machine.clock
  let (answer, session) := session.perform step
  let elapsed := Time.Instant.nanosBetween before session.machine.clock
  (answer, elapsed.toNat, session.settle)

end Session

end DirLock
