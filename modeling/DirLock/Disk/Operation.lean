import DirLock.Disk.Walk

/-!
# Operations on a tree

What the operating system does on request, each in one indivisible step: look, make, read, write,
rename, remove. A refused request changes nothing, so each changing operation returns either a fault
or the new tree. Renaming follows POSIX: a directory replaces a missing or an empty one only.
-/

namespace DirLock.Disk

namespace Tree

/-- The kind of what the path names, a link at its end not followed. -/
def entryKind (tree : Tree) (cwd : Place) (path : Path) : Except Fault EntryKind := do
  match ← tree.seek cwd path false with
  | .found _ entry => pure entry.kind
  | .missing _ _ => throw (.os .notFound)

/-- The kind of what the path leads to, all links followed. -/
def targetKind (tree : Tree) (cwd : Place) (path : Path) : Except Fault EntryKind := do
  match ← tree.seek cwd path true with
  | .found _ entry => pure entry.kind
  | .missing _ _ => throw (.os .notFound)

/-- Whether the path leads to a directory. -/
def isDirectory (tree : Tree) (cwd : Place) (path : Path) : Bool :=
  match tree.targetKind cwd path with
  | .ok kind => kind == .directory
  | .error _ => false

/-- The content of the file that the path leads to. -/
def readFile (tree : Tree) (cwd : Place) (path : Path) : Except Fault (List UInt8) := do
  match ← tree.seek cwd path true with
  | .found _ (.file content) => pure content
  | .found _ _ => throw (.os .isDirectory)
  | .missing _ _ => throw (.os .notFound)

def makeDirectory (tree : Tree) (cwd : Place) (path : Path) : Except Fault Tree := do
  match ← tree.seekParent cwd path with
  | (parent, .name name) =>
    if name.length > Path.longestName then throw (.os .nameTooLong)
    else match tree.get? (parent ++ [name]) with
      | some _ => throw (.os .alreadyExists)
      | none => pure (tree.insert (parent ++ [name]) .directory)
  | _ => throw (.os .alreadyExists)

/-- Give a file this content, making the file if it is missing. -/
def writeFile (tree : Tree) (cwd : Place) (path : Path) (content : List UInt8) :
    Except Fault Tree := do
  if path.endsInSlash then
    let _ ← tree.seekParent cwd path
    throw (.os .isDirectory)
  match ← tree.seek cwd path true with
  | .found place (.file _) => pure (tree.insert place (.file content))
  | .found _ _ => throw (.os .isDirectory)
  | .missing parent name => pure (tree.insert (parent ++ [name]) (.file content))

/-- Make a symbolic link. The target may be anything but empty; it is not looked at. -/
def makeLink (tree : Tree) (cwd : Place) (target path : Path) : Except Fault Tree := do
  if path.hasZero then throw .zeroByte
  target.check
  match ← tree.seekParent cwd path with
  | (parent, .name name) =>
    if name.length > Path.longestName then throw (.os .nameTooLong)
    else match tree.get? (parent ++ [name]) with
      | some _ => throw (.os .alreadyExists)
      | none =>
        if path.endsInSlash then throw (.os .notFound)
        else pure (tree.insert (parent ++ [name]) (.link target))
  | _ => throw (.os .alreadyExists)

/-- Remove an entry that is no directory. -/
def unlink (tree : Tree) (cwd : Place) (path : Path) : Except Fault Tree := do
  match ← tree.seekParent cwd path with
  | (parent, .name name) =>
    if name.length > Path.longestName then throw (.os .nameTooLong)
    else match tree.get? (parent ++ [name]) with
      | none => throw (.os .notFound)
      | some .directory => throw (.os .isDirectory)
      | some _ =>
        if path.endsInSlash then throw (.os .notDirectory)
        else pure (tree.erase (parent ++ [name]))
  | _ => throw (.os .isDirectory)

def removeDirectory (tree : Tree) (cwd : Place) (path : Path) : Except Fault Tree := do
  match ← tree.seekParent cwd path with
  | (_, .root) => throw (.os .busy)
  | (_, .here) => throw (.os .invalid)
  | (_, .up) => throw (.os .notEmpty)
  | (parent, .name name) =>
    if name.length > Path.longestName then throw (.os .nameTooLong)
    else match tree.get? (parent ++ [name]) with
      | none => throw (.os .notFound)
      | some .directory =>
        if tree.isBare (parent ++ [name]) then pure (tree.erase (parent ++ [name]))
        else throw (.os .notEmpty)
      | some _ => throw (.os .notDirectory)

/-- Whether an entry of the first kind may take the place of an entry of the second. -/
def replaceable (tree : Tree) (moved : Entry) (place : Place) : Except Fault Unit :=
  match moved, tree.get? place with
  | _, none => .ok ()
  | .directory, some .directory =>
    if tree.isBare place then .ok () else .error (.os .notEmpty)
  | .directory, some _ => .error (.os .notDirectory)
  | _, some .directory => .error (.os .isDirectory)
  | _, some _ => .ok ()

/-- Rename an entry with everything below it. -/
def rename (tree : Tree) (cwd : Place) (source target : Path) : Except Fault Tree := do
  if source.hasZero || target.hasZero then throw .zeroByte
  let (sourceParent, sourceLast) ← tree.seekParent cwd source
  let (targetParent, targetLast) ← tree.seekParent cwd target
  match sourceLast, targetLast with
  | .name sourceName, .name targetName =>
    let here := sourceParent ++ [sourceName]
    let there := targetParent ++ [targetName]
    if sourceName.length > Path.longestName then throw (.os .nameTooLong)
    match tree.get? here with
    | none => throw (.os .notFound)
    | some moved =>
      if targetName.length > Path.longestName then throw (.os .nameTooLong)
      if moved ≠ .directory && (source.endsInSlash || target.endsInSlash) then
        throw (.os .notDirectory)
      if here.isPrefixOf targetParent then throw (.os .invalid)
      if there.isPrefixOf sourceParent then throw (.os .notEmpty)
      if here = there then return tree
      tree.replaceable moved there
      return tree.move here there
  | _, _ => throw (.os .busy)

/-- The names in the directory that the path leads to. -/
def list (tree : Tree) (cwd : Place) (path : Path) : Except Fault (List Name) := do
  match ← tree.seek cwd path true with
  | .found place .directory => pure (tree.children place)
  | .found _ _ => throw (.os .notDirectory)
  | .missing _ _ => throw (.os .notFound)

/-- One step of removing a directory with all it holds: which entry goes, told by the path of the
directory and the names from there. A directory is entered name by name, so that the names on the way
to an entry may be of any length together. -/
inductive Removal where
  | unlink (path : Path) (inside : List Name)
  | removeDirectory (path : Path) (inside : List Name)
  deriving DecidableEq, Repr

/-- What to remove, in which order, to remove the path: the inside of a directory first, and of a
link only the link. A file in the place of the directory is refused. -/
def removals (tree : Tree) (cwd : Place) (path : Path) : Except Fault (List Removal) := do
  match ← tree.seek cwd path false with
  | .missing _ _ => throw (.os .notFound)
  | .found _ (.file _) => throw (.os .notDirectory)
  | .found _ (.link _) => pure [.unlink path []]
  | .found place .directory =>
    pure ((tree.under place).reverse.map fun e =>
      let inside := e.1.drop place.length
      if e.2 = .directory then .removeDirectory path inside else .unlink path inside)

/-- The place that the names lead to from the directory at the path, which is no link. -/
def seekInside (tree : Tree) (cwd : Place) (path : Path) (inside : List Name) :
    Except Fault Place := do
  match ← tree.seek cwd path false with
  | .found place .directory => pure (place ++ inside)
  | .found _ _ => throw (.os .notDirectory)
  | .missing _ _ => throw (.os .notFound)

/-- Remove an entry inside the directory at the path that is no directory, or what the path names
itself. -/
def unlinkInside (tree : Tree) (cwd : Place) (path : Path) (inside : List Name) :
    Except Fault Tree := do
  if inside = [] then tree.unlink cwd path
  else
    let place ← tree.seekInside cwd path inside
    match tree.get? place with
    | none => throw (.os .notFound)
    | some .directory => throw (.os .isDirectory)
    | some _ => pure (tree.erase place)

/-- Remove an empty directory inside the directory at the path, or what the path names itself. -/
def removeInside (tree : Tree) (cwd : Place) (path : Path) (inside : List Name) :
    Except Fault Tree := do
  if inside = [] then tree.removeDirectory cwd path
  else
    let place ← tree.seekInside cwd path inside
    match tree.get? place with
    | none => throw (.os .notFound)
    | some .directory =>
      if tree.isBare place then pure (tree.erase place) else throw (.os .notEmpty)
    | some _ => throw (.os .notDirectory)

end Tree

end DirLock.Disk
