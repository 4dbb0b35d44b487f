import DirLock.Yaml.Cursor

/-!
# Tokens

The pieces that a YAML text is made of. Some are not written: where indentation opens or closes a
collection, and where a key turns out to be one only at the colon behind it, tokens stand for that.
-/

namespace DirLock.Yaml

inductive ScalarStyle where
  | plain
  | singleQuoted
  | doubleQuoted
  | literal
  | folded
  deriving DecidableEq, Repr

inductive TokenKind where
  | streamStart
  | streamEnd
  | version (major minor : Nat)
  | tagHandle (handle expansion : List Char)
  | documentStart
  | documentEnd
  | blockSequenceStart
  | blockMappingStart
  | blockEnd
  | flowSequenceStart
  | flowSequenceEnd
  | flowMappingStart
  | flowMappingEnd
  | blockEntry
  | flowEntry
  | key
  | value
  | anchorRef (name : List Char)
  | anchor (name : List Char)
  | tag (handle suffix : List Char)
  | scalar (value : List Char) (style : ScalarStyle)
  deriving DecidableEq, Repr

/-- A token and the places where it starts and ends. -/
structure Token where
  kind : TokenKind
  start : Mark
  stop : Mark
  deriving DecidableEq, Repr

/-- What a stage makes of a text: the items up to the first failure, and that failure. -/
structure Produced (α : Type) where
  items : List α
  failure : Option Trouble
  deriving Repr

end DirLock.Yaml
