import DirLock.Time.Instant

/-!
# Holders

Who claimed a lock, and when. A holder is written next to the held marker for people to read;
nothing is ever decided by it.
-/

namespace DirLock

open Time (Instant)

/-- Whoever claims locks: a user on a host, with a process number and a place for temporary
files. -/
structure Claimant where
  user : Option String
  userName : Option String
  host : String
  pid : UInt32
  temporary : Option String
  deriving DecidableEq, Repr

/-- The name under which the claimant owns locks: `user@host`. -/
def Claimant.owner (claimant : Claimant) : String :=
  let user := match claimant.user, claimant.userName with
    | some user, _ => user
    | none, some user => user
    | none, none => "unknown"
  s!"{user}@{claimant.host}"

structure Holder where
  owner : String
  pid : Option UInt32
  createdAt : Instant
  deriving DecidableEq, Repr

/-- The text of an age in nanoseconds: its two largest units of days, hours and minutes, or minutes
alone, or seconds alone. An age below zero counts as zero. -/
def ageText (nanos : Int) : String :=
  let seconds := nanos.toNat / Time.nanosPerSecond
  let minutes := seconds / 60
  let hours := minutes / 60
  let days := hours / 24
  if days > 0 then s!"{days}d {hours % 24}h"
  else if hours > 0 then s!"{hours}h {minutes % 60}m"
  else if minutes > 0 then s!"{minutes}m"
  else s!"{seconds}s"

namespace Holder

/-- The holder that a claimant becomes by claiming now. -/
def ofClaimant (claimant : Claimant) (now : Instant) : Holder :=
  ⟨claimant.owner, some claimant.pid, now⟩

/-- How long ago the lock was claimed. -/
def ageText (holder : Holder) (now : Instant) : String :=
  DirLock.ageText (Instant.nanosBetween holder.createdAt now)

def describe (holder : Holder) (now : Instant) : String :=
  let pid := match holder.pid with
    | some pid => s!" (pid {pid})"
    | none => ""
  s!"{holder.owner}{pid}, held for {holder.ageText now}"

end Holder

end DirLock
