import DirLock.Lock.Release

/-!
# Guards

A guard stands for an acquisition. It releases the lock when it is told to or when it goes away,
whichever comes first, and does nothing after that.
-/

namespace DirLock

structure Guard where
  lock : Lock
  /-- Whether the guard has been told to release the lock. -/
  spent : Bool
  deriving DecidableEq

namespace Guard

def of (lock : Lock) : Guard := ⟨lock, false⟩

/-- Release the lock. The guard is spent even if that fails. -/
def release (guard : Guard) : Routine (Guard × Except LockError Unit) := do
  let result ← guard.lock.unlock
  return ({ guard with spent := true }, result)

/-- What happens when the guard goes away: the lock is released if the guard is not spent and the
lock is still held. A failure is reported and no more. -/
def drop (guard : Guard) : Routine Unit := do
  if guard.spent then return ()
  if ← guard.lock.isHeld then
    match ← guard.lock.unlock with
    | .ok () => return ()
    | .error error => Routine.note (.guardFailed guard.lock.name.text error)

end Guard

end DirLock
