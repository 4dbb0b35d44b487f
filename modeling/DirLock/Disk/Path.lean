import DirLock.Text.Quoted
import DirLock.Text.Utf8

/-!
# Paths

A path is the text that callers write: bytes in which `/` separates names. Appending a name, the
text of the parent, and the names along the path are all read off that text, before any directory
is looked at.
-/

namespace DirLock.Disk

abbrev Name := List UInt8

structure Path where
  bytes : List UInt8
  deriving DecidableEq, Repr, Inhabited

namespace Path

def slash : UInt8 := 0x2f

/-- The name of a directory inside itself. -/
def dot : Name := [0x2e]

/-- The name of the parent inside a directory. -/
def dotDot : Name := [0x2e, 0x2e]

def ofString (text : String) : Path := ⟨Text.bytesOf text⟩

/-- The path as text, undecodable bytes replaced. -/
def display (path : Path) : String := Text.lossyString path.bytes

def quoted (path : Path) : String := Text.quoted path.display

def empty : Path := ⟨[]⟩

def isEmpty (path : Path) : Bool := path.bytes.isEmpty

/-- Whether the path starts at the root. -/
def isAbsolute (path : Path) : Bool := path.bytes.head? == some slash

/-- Whether the text ends in a separator. -/
def endsInSlash (path : Path) : Bool := path.bytes.getLast? == some slash

/-- Cut bytes at every separator; there is one piece more than there are separators. -/
def pieces : List UInt8 → List Name
  | [] => [[]]
  | b :: rest =>
    if b = slash then [] :: pieces rest
    else match pieces rest with
      | [] => [[b]]
      | piece :: more => (b :: piece) :: more

/-- Write pieces with a separator between each two. -/
def joined : List Name → List UInt8
  | [] => []
  | [piece] => piece
  | piece :: more => piece ++ slash :: joined more

/-- The names along the path, separators left out. -/
def names (path : Path) : List Name :=
  (pieces path.bytes).filter fun piece => !piece.isEmpty

/-- Append a path: an absolute one replaces, and no separator is doubled. -/
def join (base tail : Path) : Path :=
  if tail.isAbsolute then tail
  else if base.isEmpty || base.endsInSlash then ⟨base.bytes ++ tail.bytes⟩
  else ⟨base.bytes ++ slash :: tail.bytes⟩

/-- Pieces from the last one backwards, without those at the end that add nothing: empty pieces,
and dots anywhere but at the very start. -/
def dropIdle : List Name → List Name
  | [] => []
  | piece :: before =>
    if piece.isEmpty || (piece == dot && !before.isEmpty) then dropIdle before
    else piece :: before

/-- The path without its last meaningful name; none if it has no such name. -/
def parent? (path : Path) : Option Path :=
  match dropIdle (pieces path.bytes).reverse with
  | [] => none
  | _ :: before =>
    match dropIdle before with
    | [] => some (if path.isAbsolute then ⟨[slash]⟩ else empty)
    | kept => some ⟨joined kept.reverse⟩

/-- The last meaningful name, unless it is that of a directory itself or of a parent. -/
def fileName? (path : Path) : Option Name :=
  match dropIdle (pieces path.bytes).reverse with
  | [] => none
  | name :: _ => if name = dot ∨ name = dotDot then none else some name

def hasName (path : Path) : Bool := path.parent?.isSome

/-- The path and the parents above it, nearest first, at most `depth` of them. -/
def ancestors : Nat → Path → List Path
  | 0, _ => []
  | depth + 1, path =>
    path :: match path.parent? with
      | none => []
      | some above => ancestors depth above

theorem pieces_ne_nil (bytes : List UInt8) : pieces bytes ≠ [] := by
  induction bytes with
  | nil => simp [pieces]
  | cons b rest ih =>
    unfold pieces
    split
    · simp
    · split <;> simp

/-- Writing the pieces back gives the text. -/
theorem joined_pieces (bytes : List UInt8) : joined (pieces bytes) = bytes := by
  induction bytes with
  | nil => rfl
  | cons b rest ih =>
    unfold pieces
    split
    · rename_i h
      cases hp : pieces rest with
      | nil => exact absurd hp (pieces_ne_nil rest)
      | cons piece more => rw [← ih, hp]; simp [joined, h]
    · split
      · rename_i hp; exact absurd hp (pieces_ne_nil rest)
      · rename_i piece more hp
        rw [hp] at ih
        cases more with
        | nil => simpa [joined] using ih
        | cons next more => simpa [joined] using ih

end Path

end DirLock.Disk
