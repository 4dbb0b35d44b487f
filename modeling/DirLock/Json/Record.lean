import DirLock.Json.Value

/-!
# Records in JSON

A record is written as an object with one member to a line, and read from an object or from a list
of its fields in order. What is wrong with the record as a whole is reported where its closing
bracket stands, or where that bracket should have stood.
-/

namespace DirLock.Json

/-- The step to the next member of an object: whether there is one, its opening quote not yet
read. -/
def nextMember (first : Bool) (text : List Char) : Except Failure (Bool × List Char) :=
  match skipSpace text with
  | [] => failOn .endInObject []
  | '\x7d' :: rest => .ok (false, '\x7d' :: rest)
  | c :: rest =>
    if c = ',' ∧ !first then
      match skipSpace rest with
      | '"' :: more => .ok (true, '"' :: more)
      | '\x7d' :: more => failOn .trailingComma ('\x7d' :: more)
      | [] => failOn .endInValue []
      | other => failOn .keyNotString other
    else if first then
      if c = '"' then .ok (true, c :: rest) else failOn .keyNotString (c :: rest)
    else failOn .expectedObjectComma (c :: rest)

/-- The step to the next element of a list: whether there is one. -/
def nextElement (first : Bool) (text : List Char) : Except Failure (Bool × List Char) :=
  match skipSpace text with
  | [] => failOn .endInList []
  | ']' :: rest => .ok (false, ']' :: rest)
  | c :: rest =>
    if c = ',' ∧ !first then
      match skipSpace rest with
      | ']' :: more => failOn .trailingComma (']' :: more)
      | [] => failOn .endInValue []
      | other => .ok (true, other)
    else if first then .ok (true, c :: rest)
    else failOn .expectedListComma (c :: rest)

def endObject (text : List Char) : Except Failure (List Char) :=
  match skipSpace text with
  | '\x7d' :: rest => .ok rest
  | [] => failOn .endInObject []
  | c :: rest => failOn (if c = ',' then .trailingComma else .trailingCharacters) (c :: rest)

def endList (text : List Char) : Except Failure (List Char) :=
  match skipSpace text with
  | ']' :: rest => .ok rest
  | [] => failOn .endInList []
  | ',' :: rest =>
    match skipSpace rest with
    | ']' :: more => failOn .trailingComma (']' :: more)
    | other => failOn .trailingCharacters other
  | rest => failOn .trailingCharacters rest

/-- Where an object is left when its end is looked for in vain. -/
def leaveObject (text : List Char) : List Char :=
  match skipSpace text with
  | '\x7d' :: rest => rest
  | rest => rest

/-- Where a list is left when its end is looked for in vain. -/
def leaveList (text : List Char) : List Char :=
  match skipSpace text with
  | ']' :: rest => rest
  | ',' :: rest => skipSpace rest
  | rest => rest

/-- What the fields of a record came to: the record, or what is wrong with it as a whole. -/
abbrev Outcome (α : Type) := Except Data.Mismatch α

/-- A record, read from its members or from its elements. -/
def readRecord {α : Type} (expected : String) (members elements : Reader (Outcome α)) : Reader α :=
  fun text =>
    match skipSpace text with
    | [] => failOn .endInValue []
    | '[' :: rest => do
      match ← elements rest with
      | (.ok value, rest) => pure (value, ← endList rest)
      | (.error cause, rest) => misfit cause (leaveList rest)
    | '\x7b' :: rest => do
      match ← members rest with
      | (.ok value, rest) => pure (value, ← endObject rest)
      | (.error cause, rest) => misfit cause (leaveObject rest)
    | rest => surprise expected rest

/-- A whole text that holds one value and spaces. -/
def readAll {α : Type} (read : Reader α) (text : List Char) : Except Failure α := do
  let (value, rest) ← read text
  match skipSpace rest with
  | [] => pure value
  | rest => failOn .trailingCharacters rest

/-- An object with its members on lines of their own, indented by two spaces. -/
def renderObject (members : List (String × List Char)) : List Char :=
  let lines := members.map fun (key, value) =>
    [' ', ' '] ++ renderString key.toList ++ [':', ' '] ++ value
  '\x7b' :: '\n' :: (lines.intersperse [',', '\n']).flatten ++ ['\n', '\x7d']

end DirLock.Json
