import DirLock.Lock.Claim
import DirLock.Lock.Guard
import DirLock.Wait.Handshake

/-!
# Acquiring a lock

Waiting for a lock is attempting to claim it again and again: without limit, or until a deadline. A
failure ends every wait at once. A wait with a deadline makes at least one attempt, and an attempt
that is under way when the deadline passes still counts.
-/

namespace DirLock.Lock

/-- Let the time between two attempts pass. -/
def pauseBetween (lock : Lock) : Routine Unit := do
  let _ ← Routine.request (.pause lock.pauseNanos)

/-- Attempt until the lock is acquired, at most `tries` times. There is no result if the tries are
used up: with more of them the wait would go on. -/
def acquire (lock : Lock) (claimant : Claimant) (tries : Nat) :
    Routine (Option (Except LockError Unit)) := do
  match ← Wait.untilDecided (lock.tryClaim claimant) lock.pauseBetween tries 0 with
  | none => return none
  | some (.error error) => return some (.error error)
  | some (.ok attempts) =>
    Routine.note (.acquired lock.name.text attempts)
    return some (.ok ())

/-- Go on with a wait with a deadline for a number of turns. -/
def takeTurns (lock : Lock) (claimant : Claimant) (limit : Time.Span) :
    Nat → Wait.Handshake LockError → Routine (Option (Except LockError Bool))
  | 0, _ => return none
  | turns + 1, wait => do
    match wait.turn with
    | .over outcome => return some outcome
    | .call next =>
      if wait.isCancelling then
        Routine.note (.deadlineReached lock.name.text limit)
      takeTurns lock claimant limit turns next
    | .work next => takeTurns lock claimant limit turns next
    | .attempt =>
      let outcome ← lock.tryClaim claimant
      takeTurns lock claimant limit turns (wait.afterAttempt outcome)
    | .idle nanos =>
      let passed ← Routine.request (.pause nanos)
      takeTurns lock claimant limit turns { wait with clock := wait.clock + passed }

/-- As many turns as a wait can take: three for each attempt that the delay leaves time for, and
those around them. -/
def turnsWithin (lock : Lock) (limit : Time.Span) : Nat :=
  4 * (limit.toNanos / max 1 lock.pauseNanos + 4)

/-- Attempt until the lock is acquired or the deadline has passed. -/
def tryAcquire (lock : Lock) (claimant : Claimant) (limit : Time.Span) :
    Routine (Except LockError Bool) := do
  let wait := Wait.Handshake.start lock.pauseNanos limit.toNanos
  return (← lock.takeTurns claimant limit (lock.turnsWithin limit) wait).getD (.ok false)

def hold (lock : Lock) (claimant : Claimant) (tries : Nat) :
    Routine (Option (Except LockError Guard)) := do
  return (← lock.acquire claimant tries).map fun result => result.map fun _ => Guard.of lock

/-- Guard the lock if it is acquired before the deadline. -/
def tryHold (lock : Lock) (claimant : Claimant) (limit : Time.Span) :
    Routine (Except LockError (Option Guard)) := do
  return (← lock.tryAcquire claimant limit).map fun acquired =>
    if acquired then some (Guard.of lock) else none

end DirLock.Lock
