import DirLock.Routine.Directories

/-!
# What others do to the tree

Somebody who is no party to any lock can make, remove, rename, link and write entries. Each of these
is made of requests like those of the parties.
-/

namespace DirLock

open Disk (Path Fault)

/-- A deed of somebody who is no party to a lock. -/
inductive Outsider where
  | makeDirectories (path : Path)
  /-- Remove a directory with all it holds, or any other entry. -/
  | remove (path : Path)
  | rename (source target : Path)
  | link (target path : Path)
  | write (path : Path) (content : List UInt8)
  deriving DecidableEq, Repr

namespace Outsider

def routine : Outsider → Routine (Except Fault Unit)
  | makeDirectories path => Routine.makeDirectories path
  | remove path => do
    match ← Routine.request (.entryKind path) with
    | .error fault => return .error fault
    | .ok .directory => Routine.removeTree path
    | .ok _ => Routine.request (.unlink path)
  | rename source target => Routine.request (.rename source target)
  | link target path => Routine.request (.makeLink target path)
  | write path content => Routine.request (.writeFile path content)

end Outsider

end DirLock
