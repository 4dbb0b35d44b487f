import DirLock.Holder.File
import DirLock.Lock.Basic
import DirLock.Routine.Directories

/-!
# Holding and releasing

A handle holds its lock as long as the held marker is exactly its nonce. To release the lock the
claim is first moved aside, which frees the lock in one step, and is then deleted.
-/

namespace DirLock.Lock

/-- Whether this handle holds the lock. A marker that cannot be read is not this handle's. -/
def isHeld (lock : Lock) : Routine Bool := do
  match ← Routine.request (.readFile lock.heldFile) with
  | .ok content => return content = lock.nonce.bytes
  | .error _ => return false

/-- Who holds the lock, if that is known. -/
def holder? (lock : Lock) : Routine (Option Holder) := do
  let content ← Routine.request (.readFile lock.holderFile)
  return (Holder.ofContent lock.holderFile content).toOption

/-- Delete the claim that was moved aside. -/
def deleteReleased (lock : Lock) : Routine (Except LockError Unit) := do
  match ← Routine.removeTree lock.releasedDir with
  | .ok () => return .ok ()
  | .error fault => return .error (.io .removeReleased lock.releasedDir fault)

/-- Release the lock. If the claim cannot be moved aside this handle still holds the lock. -/
def unlock (lock : Lock) : Routine (Except LockError Unit) := do
  if ← lock.isHeld then
    match ← Routine.request (.rename lock.claimDir lock.releasedDir) with
    | .error fault => return .error (.io .releaseClaim lock.claimDir fault)
    | .ok () =>
      Routine.note (.released lock.name.text)
      lock.deleteReleased
  else return .error (.notHeld lock.name.text)

end DirLock.Lock
