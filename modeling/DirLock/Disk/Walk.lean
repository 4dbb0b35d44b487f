import DirLock.Disk.Fault
import DirLock.Disk.Tree

/-!
# Following a path through a tree

A path is followed name by name from the directory it starts in. A symbolic link on the way is
replaced by its target, at most forty times in all; at the end of the path it is followed only where
the request asks for it. Nothing here changes the tree.
-/

namespace DirLock.Disk

inductive Spot where
  /-- An entry stands there. -/
  | found (place : Place) (entry : Entry)
  /-- Only the directory that would hold it is there. -/
  | missing (parent : Place) (name : Name)
  deriving DecidableEq, Repr

/-- The last name of a path, as far as requests tell them apart. -/
inductive LastName where
  /-- There is none: the path is the root. -/
  | root
  /-- A dot. -/
  | here
  /-- Two dots. -/
  | up
  /-- Any other name. -/
  | name (name : Name)
  deriving DecidableEq, Repr

namespace Path

def longestName : Nat := 255

/-- A path must be shorter than this. -/
def lengthLimit : Nat := 4096

/-- How many links are followed for one path. -/
def linkLimit : Nat := 40

/-- The names to follow. A separator at the end asks for a directory, as a last dot does. -/
def steps (path : Path) : List Name :=
  if path.endsInSlash then path.names ++ [dot] else path.names

/-- Whether the path holds a zero byte. -/
def hasZero (path : Path) : Bool := path.bytes.contains 0

/-- Refuse a path that no tree can hold: one with a zero byte, an empty one, one too long. -/
def check (path : Path) : Except Fault Unit :=
  if path.hasZero then .error .zeroByte
  else if path.isEmpty then .error (.os .notFound)
  else if path.bytes.length ≥ lengthLimit then .error (.os .nameTooLong)
  else .ok ()

/-- Where the path starts when the current directory is `cwd`. -/
def start (cwd : Place) (path : Path) : Place :=
  if path.isAbsolute then [] else cwd

def lastName (path : Path) : LastName :=
  match path.names.getLast? with
  | none => .root
  | some name => if name = dot then .here else if name = dotDot then .up else .name name

end Path

namespace Tree

/-- Follow the names from a directory. What to do at a link is given by `again`, which is told the
directory of the link, its target and the names after it. -/
def walkWith (again : Place → Path → List Name → Except Errno Spot) (tree : Tree) (follow : Bool) :
    Place → List Name → Except Errno Spot
  | cur, [] => .ok (.found cur .directory)
  | cur, name :: rest =>
    if name = Path.dot then walkWith again tree follow cur rest
    else if name = Path.dotDot then walkWith again tree follow cur.dropLast rest
    else if name.length > Path.longestName then .error .nameTooLong
    else match tree.get? (cur ++ [name]), rest with
      | none, [] => .ok (.missing cur name)
      | none, _ :: _ => .error .notFound
      | some .directory, rest => walkWith again tree follow (cur ++ [name]) rest
      | some (.file content), [] => .ok (.found (cur ++ [name]) (.file content))
      | some (.file _), _ :: _ => .error .notDirectory
      | some (.link target), [] =>
        if follow then again cur target [] else .ok (.found (cur ++ [name]) (.link target))
      | some (.link target), next :: rest => again cur target (next :: rest)

/-- Follow the names from a directory with a number of links still allowed. -/
def walk (tree : Tree) (follow : Bool) : Nat → Place → List Name → Except Errno Spot
  | 0, cur, names => walkWith (fun _ _ _ => .error .loop) tree follow cur names
  | links + 1, cur, names =>
    walkWith
      (fun at_ target rest => walk tree follow links (target.start at_) (target.steps ++ rest))
      tree follow cur names

/-- Where the path leads from the current directory. -/
def seek (tree : Tree) (cwd : Place) (path : Path) (follow : Bool) : Except Fault Spot := do
  path.check
  (tree.walk follow Path.linkLimit (path.start cwd) path.steps).mapError .os

/-- The directory that holds the last name of the path, and that name. -/
def seekParent (tree : Tree) (cwd : Place) (path : Path) : Except Fault (Place × LastName) := do
  path.check
  let spot ← (tree.walk true Path.linkLimit (path.start cwd)
    (path.names.dropLast ++ [Path.dot])).mapError .os
  match spot with
  | .found place _ => pure (place, path.lastName)
  | .missing _ _ => throw (.os .notFound)

end Tree

end DirLock.Disk
