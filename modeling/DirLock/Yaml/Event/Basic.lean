import DirLock.Yaml.Token.Basic

/-!
# Events

The structure of a text, node by node: where documents, sequences and mappings start and end, and
the scalars and aliases between.
-/

namespace DirLock.Yaml

structure ScalarNode where
  tag : Option (List Char)
  value : List Char
  style : ScalarStyle
  deriving DecidableEq, Repr

def ScalarNode.empty : ScalarNode := ⟨none, [], .plain⟩

inductive EventKind where
  | streamStart
  | streamEnd
  | documentStart
  | documentEnd
  | reference (name : List Char)
  | scalar (anchor : Option (List Char)) (node : ScalarNode)
  | sequenceStart (anchor : Option (List Char))
  | sequenceEnd
  | mappingStart (anchor : Option (List Char))
  | mappingEnd
  deriving DecidableEq, Repr

/-- An event and the place where its node starts. -/
structure Event where
  kind : EventKind
  mark : Mark
  deriving DecidableEq, Repr

end DirLock.Yaml
