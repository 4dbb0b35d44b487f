import DirLock.Config.Basic
import DirLock.Lock.Nonce

/-!
# Locks

A lock is a name in a parent directory. Whoever has put a directory of that name there, with a held
marker inside that is exactly their nonce, holds the lock. A handle says which lock is meant, under
which nonce and with which settings; it does not say whether the lock is held.
-/

namespace DirLock

open Disk (Path)

structure Lock where
  name : LockName
  parent : Path
  nonce : Nonce
  config : Config
  deriving DecidableEq

namespace Lock

def heldName : Path := .ofString "held"

/-- The name of the file about the holder in a claim. -/
def holderName : Path := .ofString "info.json"

/-- The directory whose existence is the claim. -/
def claimDir (lock : Lock) : Path := lock.parent.join lock.name.toPath

def heldFile (lock : Lock) : Path := lock.claimDir.join heldName

def holderFile (lock : Lock) : Path := lock.claimDir.join holderName

/-- Where a claim of this handle is moved to be deleted. -/
def releasedDir (lock : Lock) : Path :=
  lock.parent.join (.ofString ("." ++ String.ofList lock.nonce.hex ++ ".released"))

def stagingName (lock : Lock) (suffix : List Char) : Path :=
  .ofString ("." ++ String.ofList lock.nonce.hex ++ "." ++ String.ofList suffix)

/-- The time between two attempts, in nanoseconds. -/
def pauseNanos (lock : Lock) : Nat := lock.config.delay.toNanos

end Lock

end DirLock
