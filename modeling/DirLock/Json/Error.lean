import DirLock.Data.Mismatch
import DirLock.Text.Utf8

/-!
# Failures of JSON reading

Each failure carries the number of bytes that were not yet read; the line and column of the message
are counted from that. Columns count bytes, and the first line is line 1.
-/

namespace DirLock.Json

inductive Cause where
  | endInValue
  | endInList
  | endInObject
  | endInString
  | expectedValue
  | expectedWord
  | expectedColon
  | expectedListComma
  | expectedObjectComma
  | keyNotString
  | trailingComma
  | trailingCharacters
  | badNumber
  | numberTooLarge
  | badEscape
  | controlCharacter
  | loneSurrogate
  | endOfSurrogate
  /-- The text is JSON, but its value does not fit. -/
  | mismatch (cause : Data.Mismatch)
  deriving DecidableEq, Repr

def Cause.message : Cause → String
  | .endInValue => "EOF while parsing a value"
  | .endInList => "EOF while parsing a list"
  | .endInObject => "EOF while parsing an object"
  | .endInString => "EOF while parsing a string"
  | .expectedValue => "expected value"
  | .expectedWord => "expected ident"
  | .expectedColon => "expected `:`"
  | .expectedListComma => "expected `,` or `]`"
  | .expectedObjectComma => "expected `,` or `\x7d`"
  | .keyNotString => "key must be a string"
  | .trailingComma => "trailing comma"
  | .trailingCharacters => "trailing characters"
  | .badNumber => "invalid number"
  | .numberTooLarge => "number out of range"
  | .badEscape => "invalid escape"
  | .controlCharacter => "control character (\\u0000-\\u001F) found while parsing a string"
  | .loneSurrogate => "lone leading surrogate in hex escape"
  | .endOfSurrogate => "unexpected end of hex escape"
  | .mismatch cause => cause.message

/-- Whether more text could have made it right. -/
def Cause.isEnd : Cause → Bool
  | .endInValue | .endInList | .endInObject | .endInString => true
  | _ => false

/-- The number of bytes of a text. -/
def byteCount : List Char → Nat
  | [] => 0
  | char :: rest => char.utf8Size + byteCount rest

/-- A failure, with the number of bytes left when it was found. -/
structure Failure where
  cause : Cause
  left : Nat
  deriving DecidableEq, Repr

/-- The line and column reached after so many bytes of the text. -/
def position (text : List Char) (offset : Nat) : Nat × Nat :=
  let read := (Text.utf8Encode text).take offset
  (1 + read.count 0x0a, (read.reverse.takeWhile (· ≠ 0x0a)).length)

/-- The failure in words, for the text in which it was found. -/
def Failure.message (failure : Failure) (text : List Char) : String :=
  let (line, column) := position text (byteCount text - failure.left)
  s!"{failure.cause.message} at line {line} column {column}"

/-- A reader takes a part of the text and gives the rest. -/
abbrev Reader (α : Type) := List Char → Except Failure (α × List Char)

def failAt {α : Type} (cause : Cause) (rest : List Char) : Except Failure α :=
  .error ⟨cause, byteCount rest⟩

/-- Fail at the next byte of `rest`, or at the end if there is none. -/
def failOn {α : Type} (cause : Cause) (rest : List Char) : Except Failure α :=
  .error ⟨cause, byteCount rest - 1⟩

/-- Whether the character may stand between tokens. -/
def isSpace (c : Char) : Bool := c == ' ' || c == '\n' || c == '\t' || c == '\r'

/-- The text without the spaces in front. -/
def skipSpace (text : List Char) : List Char := text.dropWhile isSpace

end DirLock.Json
