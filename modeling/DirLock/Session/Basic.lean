import DirLock.Config.Reader
import DirLock.Lock.Acquire
import DirLock.Lock.Opening
import DirLock.Machine
import DirLock.Session.Outsider

/-!
# Sessions

A session is one machine with any number of handles and guards, each under a name of its own, that
are used one call after the other. During a call that waits, one deed of somebody else may fall due;
it is done while the call waits, or else when the call is over.
-/

namespace DirLock

open Disk (Path Fault)

/-- What somebody else does during a call. -/
inductive Deed where
  | unlock (handle : String)
  | outside (deed : Outsider)

inductive DeedEnd where
  | noSuchLock
  | unlocked (result : Except LockError Unit)
  | outside (result : Except Fault Unit)

/-- A deed that falls due after so many nanoseconds. -/
structure Pending where
  due : Nat
  deed : Routine DeedEnd

structure Session where
  machine : Machine
  claimant : Claimant
  supply : Supply
  locks : List (String × Lock)
  guards : List (String × Guard)
  pending : Option Pending
  /-- How the deed of somebody else ended, once it is done. -/
  ended : Option DeedEnd

namespace Session

/-- A session in which nothing has happened. -/
def start (machine : Machine) (claimant : Claimant) (supply : Supply) : Session :=
  ⟨machine, claimant, supply, [], [], none, none⟩

def lock? (session : Session) (name : String) : Option Lock := session.locks.lookup name

def guard? (session : Session) (name : String) : Option Guard := session.guards.lookup name

def setLock (session : Session) (name : String) (lock : Lock) : Session :=
  { session with locks := (name, lock) :: session.locks.filter fun entry => entry.1 ≠ name }

def setGuard (session : Session) (name : String) (guard : Guard) : Session :=
  { session with guards := (name, guard) :: session.guards.filter fun entry => entry.1 ≠ name }

def eraseGuard (session : Session) (name : String) : Session :=
  { session with guards := session.guards.filter fun entry => entry.1 ≠ name }

/-! ## Calls -/

/-- Do the deed that is pending, its time passing first. -/
def settle (session : Session) : Session :=
  match session.pending with
  | none => session
  | some pending =>
    let machine := session.machine.pass pending.due
    let (result, machine) := pending.deed.run (Machine.answerPlain session.supply) machine
    { session with machine, pending := none, ended := some result }

/-- Let time pass; a deed that falls due is done at its time. -/
def elapse (nanos : Nat) (session : Session) : Session :=
  match session.pending with
  | none => { session with machine := session.machine.pass nanos }
  | some pending =>
    if pending.due ≤ nanos then
      let session := session.settle
      { session with machine := session.machine.pass (nanos - pending.due) }
    else
      { session with
        machine := session.machine.pass nanos
        pending := some { pending with due := pending.due - nanos } }

/-- The answer to a request that is made during a call. -/
def answer (r : Request) (session : Session) : r.Reply × Session :=
  match r with
  | .pause nanos => (nanos, session.elapse nanos)
  | r =>
    let (reply, machine) := Machine.answerPlain session.supply r session.machine
    (reply, { session with machine })

def call {α : Type} (session : Session) (routine : Routine α) : α × Session :=
  routine.run answer session

def deedRoutine (session : Session) : Deed → Routine DeedEnd
  | .outside deed => DeedEnd.outside <$> deed.routine
  | .unlock handle =>
    match session.lock? handle with
    | none => return .noSuchLock
    | some lock => DeedEnd.unlocked <$> lock.unlock

/-- Let a deed fall due after so many nanoseconds. -/
def schedule (session : Session) (due : Nat) (deed : Deed) : Session :=
  { session with pending := some ⟨due, session.deedRoutine deed⟩, ended := none }

/-- How often a call without a deadline attempts to claim before it is given up. -/
def patience : Nat := 100000

def dropGuard (session : Session) (guard : Guard) : Session := (session.call guard.drop).2

/-- Keep a new guard; one that had the name before goes away. -/
def keepGuard (session : Session) (name : String) (guard : Guard) : Session :=
  let before := session.guard? name
  let session := session.setGuard name guard
  match before with
  | none => session
  | some old => session.dropGuard old

def loadConfig (path : Path) : Routine (Except LockError Config) :=
  return Config.ofContent path (← Routine.request (.readFile path))

def readHolder (path : Path) : Routine (Except LockError Holder) :=
  return Holder.ofContent path (← Routine.request (.readFile path))

end Session

end DirLock
