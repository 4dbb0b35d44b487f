import DirLock.Routine.Basic

/-!
# Whole directory trees

Making a directory together with those above it, and removing one together with what it holds. Both
take many requests, so what stands on the disk in between can be seen by others, and a fault part of
the way leaves what was done so far.
-/

namespace DirLock.Routine

open Disk (Path Fault)

/-- The path and those above it that may have to be made, nearest first. -/
def candidates (path : Path) : List Path :=
  (path.ancestors (path.bytes.length + 1)).takeWhile fun p => !p.isEmpty && p.hasName

/-- Try to make the first path; as long as the directory above is missing, try that one instead. The
paths that are still missing are given outermost first. -/
def makeFirst : List Path → Routine (Except Fault (List Path))
  | [] => return .ok []
  | path :: above => do
    match ← request (.makeDirectory path) with
    | .ok () => return .ok []
    | .error fault =>
      if fault.kind = .notFound then
        return (← makeFirst above).map (· ++ [path])
      if fault.kind = .alreadyExists then
        if ← request (.isDirectory path) then return .ok []
      return .error fault

/-- Make the directories in this order. One that is there by now is no failure. -/
def makeEach : List Path → Routine (Except Fault Unit)
  | [] => return .ok ()
  | path :: rest => do
    match ← request (.makeDirectory path) with
    | .ok () => makeEach rest
    | .error fault =>
      if fault.kind = .alreadyExists then
        if ← request (.isDirectory path) then makeEach rest else return .error fault
      else return .error fault

/-- Make the directory and those above it that are missing. -/
def makeDirectories (path : Path) : Routine (Except Fault Unit) := do
  match ← makeFirst (candidates path) with
  | .error fault => return .error fault
  | .ok missing => makeEach missing

/-- Take the steps of a removal until one fails. -/
def removeEach : List Disk.Tree.Removal → Routine (Except Fault Unit)
  | [] => return .ok ()
  | step :: rest => do
    match ← request (.remove step) with
    | .ok () => removeEach rest
    | .error fault => return .error fault

/-- Remove the directory with all it holds, entry by entry. Of a link only the link goes. -/
def removeTree (path : Path) : Routine (Except Fault Unit) := do
  match ← request (.removals path) with
  | .error fault => return .error fault
  | .ok steps => removeEach steps

end DirLock.Routine
