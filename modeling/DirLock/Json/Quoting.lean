import DirLock.Json.Error
import DirLock.Text.Hex

/-!
# JSON strings

Writing escapes the quote, the backslash and the controls below U+0020, with a short escape where
there is one. Reading takes every escape of the format; a character beyond U+FFFF may be written as
two escapes that belong together.
-/

namespace DirLock.Json

def escapedChar (c : Char) : List Char :=
  if c = '"' ∨ c = '\\' then ['\\', c]
  else if c = '\x08' then ['\\', 'b']
  else if c = '\x0c' then ['\\', 'f']
  else if c = '\n' then ['\\', 'n']
  else if c = '\r' then ['\\', 'r']
  else if c = '\t' then ['\\', 't']
  else if c.toNat < 0x20 then ['\\', 'u'] ++ Text.hexPadded 4 c.toNat
  else [c]

def renderString (text : List Char) : List Char :=
  '"' :: text.flatMap escapedChar ++ ['"']

/-- The value of the four digits at the front. Four bytes are read whatever they are. -/
def hexEscape : Reader Nat := fun text =>
  if byteCount text < 4 then failAt .endInString []
  else match text with
    | a :: b :: c :: d :: rest =>
      match Text.hexValue? a, Text.hexValue? b, Text.hexValue? c, Text.hexValue? d with
      | some a, some b, some c, some d => .ok (((a * 16 + b) * 16 + c) * 16 + d, rest)
      | _, _, _, _ => .error ⟨.badEscape, byteCount text - 4⟩
    | _ => .error ⟨.badEscape, byteCount text - 4⟩

def shortEscape? (c : Char) : Option Char :=
  match c with
  | '"' => some '"'
  | '\\' => some '\\'
  | '/' => some '/'
  | 'b' => some '\x08'
  | 'f' => some '\x0c'
  | 'n' => some '\n'
  | 'r' => some '\r'
  | 't' => some '\t'
  | _ => none

/-- The second half of a character that is written as two escapes. -/
def secondHalf (high : Nat) : Reader Char
  | [] => failAt .endInString []
  | '\\' :: [] => failAt .endInString []
  | '\\' :: 'u' :: rest => do
    let (low, rest) ← hexEscape rest
    if 0xdc00 ≤ low ∧ low ≤ 0xdfff then
      pure (Char.ofNat ((high - 0xd800) * 0x400 + (low - 0xdc00) + 0x10000), rest)
    else failAt .loneSurrogate rest
  | '\\' :: rest => failOn .endOfSurrogate rest
  | rest => failOn .endOfSurrogate rest

/-- The character that an escape stands for, read after its backslash. -/
def readEscape : Reader Char
  | [] => failAt .endInString []
  | 'u' :: rest => do
    let (code, rest) ← hexEscape rest
    if 0xdc00 ≤ code ∧ code ≤ 0xdfff then failAt .loneSurrogate rest
    else if 0xd800 ≤ code ∧ code ≤ 0xdbff then secondHalf code rest
    else pure (Char.ofNat code, rest)
  | c :: rest =>
    match shortEscape? c with
    | some d => .ok (d, rest)
    | none => failOn .badEscape (c :: rest)

/-- Add the characters up to the closing quote to those read so far, which are kept backwards. The
number bounds the characters looked at. -/
def stringBody : Nat → List Char → Reader (List Char)
  | 0, _, text => failAt .endInString text
  | fuel + 1, done, text =>
    match text with
    | [] => failAt .endInString []
    | '"' :: rest => .ok (done.reverse, rest)
    | '\\' :: rest => do
      let (c, rest) ← readEscape rest
      stringBody fuel (c :: done) rest
    | c :: rest =>
      if c.toNat < 0x20 then failAt .controlCharacter rest
      else stringBody fuel (c :: done) rest

def readString : Reader (List Char) := fun text => stringBody (text.length + 1) [] text

/-- Pass over a string whose opening quote was just read. Escapes are not put together. -/
def skipStringBody : Nat → Reader Unit
  | 0, text => failAt .endInString text
  | fuel + 1, text =>
    match text with
    | [] => failAt .endInString []
    | '"' :: rest => .ok ((), rest)
    | '\\' :: [] => failAt .endInString []
    | '\\' :: 'u' :: rest => do
      let (_, rest) ← hexEscape rest
      skipStringBody fuel rest
    | '\\' :: c :: rest =>
      match shortEscape? c with
      | some _ => skipStringBody fuel rest
      | none => failOn .badEscape (c :: rest)
    | c :: rest =>
      if c.toNat < 0x20 then failAt .controlCharacter (c :: rest)
      else skipStringBody fuel rest

/-- Pass over a string whose opening quote was just read. -/
def skipString : Reader Unit := fun text => skipStringBody (text.length + 1) text

end DirLock.Json
