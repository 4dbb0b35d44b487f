import DirLock.Json.Numeral
import DirLock.Json.Quoting

/-!
# JSON values

Reading a value of the type that a field takes, naming a value of another type, and passing over a
value that nobody asked for. Brackets of passed values are kept on a list, so they may nest to any
depth.
-/

namespace DirLock.Json

/-- The rest of a word whose first letter was read. -/
def readWord : List Char → List Char → Except Failure (List Char)
  | [], rest => .ok rest
  | _ :: _, [] => failAt .endInValue []
  | c :: more, d :: rest => if c = d then readWord more rest else failOn .expectedWord (d :: rest)

/-- Fail because the value just read does not fit. -/
def misfit {α : Type} (cause : Data.Mismatch) (rest : List Char) : Except Failure α :=
  failAt (.mismatch cause) rest

/-- Fail because a value of another type stands here. The value is read as far as its name asks. -/
def surprise {α : Type} (expected : String) (text : List Char) : Except Failure α :=
  let wrong (found : Data.Found) := misfit (α := α) (.wrongType found expected)
  match text with
  | 'n' :: rest => do wrong .null (← readWord ['u', 'l', 'l'] rest)
  | 't' :: rest => do wrong (.boolean true) (← readWord ['r', 'u', 'e'] rest)
  | 'f' :: rest => do wrong (.boolean false) (← readWord ['a', 'l', 's', 'e'] rest)
  | '-' :: rest => do
    let (number, rest) ← readNumber true rest
    wrong number.found rest
  | '"' :: rest => do
    let (value, rest) ← readString rest
    wrong (.text (String.ofList value)) rest
  | '[' :: _ => wrong .sequence text
  | '\x7b' :: _ => wrong .map text
  | c :: _ =>
    if c.isDigit then do
      let (number, rest) ← readNumber false text
      wrong number.found rest
    else failOn .expectedValue text
  | [] => failOn .expectedValue text

def readText (expected : String) : Reader (List Char) := fun text =>
  match skipSpace text with
  | [] => failOn .endInValue []
  | '"' :: rest => readString rest
  | rest => surprise expected rest

/-- The whole number that a field of 32 bits takes. -/
def narrow (number : Numeral) (rest : List Char) : Except Failure (UInt32 × List Char) :=
  match number with
  | .unsigned value =>
    if value < UInt32.size then .ok (UInt32.ofNat value, rest)
    else misfit (.wrongValue number.found "u32") rest
  | .signed _ => misfit (.wrongValue number.found "u32") rest
  | .float _ => misfit (.wrongType number.found "u32") rest

def readUnsigned : Reader UInt32 := fun text =>
  match skipSpace text with
  | [] => failOn .endInValue []
  | '-' :: rest => do
    let (number, rest) ← readNumber true rest
    narrow number rest
  | c :: rest =>
    if c.isDigit then do
      let (number, rest) ← readNumber false (c :: rest)
      narrow number rest
    else surprise "u32" (c :: rest)

def readOptional {α : Type} (read : Reader α) : Reader (Option α) := fun text =>
  match skipSpace text with
  | 'n' :: rest => do
    let rest ← readWord ['u', 'l', 'l'] rest
    pure (none, rest)
  | rest => do
    let (value, rest) ← read rest
    pure (some value, rest)

/-! ## Passing over a value -/

inductive Bracket where
  | list
  | object
  deriving DecidableEq, Repr

/-- The failure at the end of the text inside a bracket. -/
def Bracket.endCause : Bracket → Cause
  | .list => .endInList
  | .object => .endInObject

/-- The failure where a comma or the closing bracket should stand. -/
def Bracket.commaCause : Bracket → Cause
  | .list => .expectedListComma
  | .object => .expectedObjectComma

def Bracket.closing : Bracket → Char
  | .list => ']'
  | .object => '\x7d'

def readColon (text : List Char) : Except Failure (List Char) :=
  match skipSpace text with
  | ':' :: rest => .ok rest
  | [] => failOn .endInObject []
  | rest => failOn .expectedColon rest

/-- Pass over a key and its colon. -/
def skipKey (text : List Char) : Except Failure (List Char) :=
  match skipSpace text with
  | '"' :: rest => do
    let (_, rest) ← skipString rest
    readColon rest
  | [] => failOn .endInObject []
  | rest => failOn .keyNotString rest

/-- What stands before a value inside a bracket: a key in an object, nothing in a list. -/
def Bracket.enter (bracket : Bracket) (text : List Char) : Except Failure (List Char) :=
  match bracket with
  | .list => .ok text
  | .object => skipKey text

/-- Pass over a value that is no list and no object. -/
def skipScalar (text : List Char) : Except Failure (List Char) :=
  match text with
  | 'n' :: rest => readWord ['u', 'l', 'l'] rest
  | 't' :: rest => readWord ['r', 'u', 'e'] rest
  | 'f' :: rest => readWord ['a', 'l', 's', 'e'] rest
  | '-' :: rest => (skipNumber rest).map (·.2)
  | '"' :: rest => (skipString rest).map (·.2)
  | c :: rest =>
    if c.isDigit then (skipNumber (c :: rest)).map (·.2) else failOn .expectedValue (c :: rest)
  | [] => failOn .endInValue []

inductive Passing where
  /-- A value comes next. -/
  | value
  /-- A bracket was just opened. -/
  | opened
  /-- A value just ended. -/
  | ended
  deriving DecidableEq, Repr

/-- Pass over a value with these brackets open around it. The number bounds the steps. -/
def skipFrom : Nat → List Bracket → Passing → List Char → Except Failure (List Char)
  | 0, _, _, rest => failAt .endInValue rest
  | fuel + 1, open_, .value, text =>
    match skipSpace text with
    | '[' :: rest => skipFrom fuel (.list :: open_) .opened rest
    | '\x7b' :: rest => skipFrom fuel (.object :: open_) .opened rest
    | rest => do skipFrom fuel open_ .ended (← skipScalar rest)
  | _ + 1, [], _, text => .ok text
  | fuel + 1, bracket :: outer, state, text =>
    match skipSpace text with
    | [] => failOn bracket.endCause []
    | c :: rest =>
      if c = ',' ∧ state = .ended then do
        skipFrom fuel (bracket :: outer) .value (← bracket.enter rest)
      else if c = bracket.closing then skipFrom fuel outer .ended rest
      else if state = .ended then failOn bracket.commaCause (c :: rest)
      else do skipFrom fuel (bracket :: outer) .value (← bracket.enter (c :: rest))

def skipValue (text : List Char) : Except Failure (List Char) :=
  skipFrom (2 * text.length + 2) [] .value text

end DirLock.Json
