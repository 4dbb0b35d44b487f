import DirLock.Lock.Staging

/-!
# Claiming a lock

One attempt to become the holder. Nothing may stand at the claim's place; a complete claim is then
moved there in one step, which fails if somebody else's claim got there first, since that directory
is not empty. Finding the lock taken, early or late, is a result and no error.
-/

namespace DirLock.Lock

/-- Whether the lock is held by anyone: whether an entry stands at the claim's place. -/
def isLocked (lock : Lock) : Routine (Except LockError Bool) := do
  match ← Routine.request (.entryKind lock.claimDir) with
  | .ok _ => return .ok true
  | .error fault =>
    if fault.kind = .notFound then return .ok false
    else return .error (.io .inspectClaim lock.claimDir fault)

/-- Move a staged claim into its place. -/
def putInPlace (lock : Lock) (staging : Disk.Path) : Routine (Except LockError Bool) := do
  match ← Routine.request (.rename staging lock.claimDir) with
  | .ok () =>
    Routine.note (.claimed lock.name.text)
    return .ok true
  | .error fault =>
    if isLostRace fault then
      Routine.note (.lostRace lock.name.text)
      discard staging
      return .ok false
    else
      discard staging
      return .error (.io .moveStaging lock.claimDir fault)

def tryClaim (lock : Lock) (claimant : Claimant) : Routine (Except LockError Bool) := do
  match ← lock.isLocked with
  | .error error => return .error error
  | .ok true =>
    Routine.note (.heldElsewhere lock.name.text)
    return .ok false
  | .ok false =>
    match ← lock.stage claimant with
    | .error error => return .error error
    | .ok staging => lock.putInPlace staging

end DirLock.Lock
