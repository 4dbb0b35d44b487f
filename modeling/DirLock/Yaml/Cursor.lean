import DirLock.Yaml.Error

/-!
# Reading YAML character by character

A cursor is the rest of a text and the place reached in it. A line may end in a line feed, a
carriage return, both, or one of three further line separators; when a break becomes part of a value
it is a line feed, except for the last two separators, which stand for themselves.
-/

namespace DirLock.Yaml

/-- Whether a text may hold the character. -/
def isAllowed (c : Char) : Bool :=
  let code := c.toNat
  code == 0x09 || code == 0x0a || code == 0x0d || (0x20 ≤ code && code ≤ 0x7e) || code == 0x85 ||
    (0xa0 ≤ code && code ≤ 0xd7ff) || (0xe000 ≤ code && code ≤ 0xfffd) || 0x10000 ≤ code

/-- The number of bytes before the first character that no text may hold. -/
def firstForbidden : List Char → Nat → Option Nat
  | [], _ => none
  | c :: rest, offset =>
    if isAllowed c then firstForbidden rest (offset + c.utf8Size) else some offset

def isBreak (c : Char) : Bool :=
  c == '\n' || c == '\r' || c == '\u0085' || c == '\u2028' || c == '\u2029'

/-- Whether the character is a space or a tab. -/
def isBlank (c : Char) : Bool := c == ' ' || c == '\t'

/-- Whether the character may stand in the name of an anchor, a handle or a directive. -/
def isWord (c : Char) : Bool := c.isAlphanum || c == '_' || c == '-'

/-- The rest of a text and the place it starts at. -/
structure Cursor where
  rest : List Char
  mark : Mark
  deriving DecidableEq, Repr

namespace Cursor

def ofText (text : List Char) : Cursor := ⟨text, Mark.start⟩

def ahead (cursor : Cursor) (n : Nat) : Option Char := cursor.rest[n]?

def peek (cursor : Cursor) : Option Char := cursor.rest.head?

def atEnd (cursor : Cursor) : Bool := cursor.rest.isEmpty

/-- Whether the next character is this one. -/
def sees (cursor : Cursor) (c : Char) : Bool := cursor.peek == some c

/-- Whether the character is missing, or is a blank or a break. -/
def isGap : Option Char → Bool
  | none => true
  | some c => isBlank c || isBreak c

def atLineEnd (cursor : Cursor) : Bool :=
  match cursor.peek with
  | none => true
  | some c => isBreak c

def atBreak (cursor : Cursor) : Bool :=
  match cursor.peek with
  | none => false
  | some c => isBreak c

/-- Whether a space or a tab comes next. -/
def atBlank (cursor : Cursor) : Bool :=
  match cursor.peek with
  | none => false
  | some c => isBlank c

/-- Go past one character of a line. -/
def advance (cursor : Cursor) : Cursor :=
  match cursor.rest with
  | [] => cursor
  | _ :: rest =>
    ⟨rest, ⟨cursor.mark.index + 1, cursor.mark.line, cursor.mark.column + 1⟩⟩

/-- Go past `n` characters of a line. -/
def advanceBy (cursor : Cursor) : Nat → Cursor
  | 0 => cursor
  | n + 1 => cursor.advance.advanceBy n

/-- Go past a break, if one comes next. -/
def advanceLine (cursor : Cursor) : Cursor :=
  match cursor.rest with
  | '\r' :: '\n' :: rest => ⟨rest, ⟨cursor.mark.index + 2, cursor.mark.line + 1, 0⟩⟩
  | c :: rest =>
    if isBreak c then ⟨rest, ⟨cursor.mark.index + 1, cursor.mark.line + 1, 0⟩⟩ else cursor
  | [] => cursor

/-- What the break that comes next adds to a value. -/
def breakText (cursor : Cursor) : List Char :=
  match cursor.peek with
  | some c =>
    if c = '\u2028' ∨ c = '\u2029' then [c]
    else if isBreak c then ['\n']
    else []
  | none => []

/-- Go past the characters of a line that satisfy `p`, and give them. -/
def takeWhile (p : Char → Bool) (cursor : Cursor) : List Char × Cursor :=
  let taken := cursor.rest.takeWhile p
  (taken, ⟨cursor.rest.dropWhile p,
    ⟨cursor.mark.index + taken.length, cursor.mark.line, cursor.mark.column + taken.length⟩⟩)

def skipBlanks (cursor : Cursor) : Cursor := (cursor.takeWhile isBlank).2

/-- Go past a comment, up to the end of its line. -/
def skipComment (cursor : Cursor) : Cursor :=
  if cursor.sees '#' then (cursor.takeWhile fun c => !isBreak c).2 else cursor

/-- Whether a line starts here with the three characters and a gap. -/
def atIndicator (cursor : Cursor) (c : Char) : Bool :=
  cursor.mark.column == 0 && cursor.rest.take 3 == [c, c, c] && isGap (cursor.ahead 3)

/-- Whether a document starts or ends here. -/
def atDocumentIndicator (cursor : Cursor) : Bool :=
  cursor.atIndicator '-' || cursor.atIndicator '.'

def fail {α : Type} (cursor : Cursor) (problem : Problem) : Except Trouble α :=
  .error ⟨problem, cursor.mark, none⟩

/-- Fail here, inside a construct that began at `began`. -/
def failIn {α : Type} (cursor : Cursor) (problem : Problem) (context : Context) (began : Mark) :
    Except Trouble α :=
  .error ⟨problem, cursor.mark, some (context, began)⟩

end Cursor

end DirLock.Yaml
