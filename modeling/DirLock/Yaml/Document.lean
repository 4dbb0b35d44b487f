import DirLock.Yaml.Event.Grammar
import DirLock.Yaml.Resolution
import DirLock.Yaml.Token.Stream

/-!
# Documents

A document is the sequence of its nodes, each collection followed by its end. An alias refers to a
node by the number of its anchor. Anchors are numbered by how many different ones were set before;
the number of an anchor that is set again is therefore shared with the next new one, and an alias
leads to the last node that got its number.
-/

namespace DirLock.Yaml

inductive Part where
  /-- There is nothing in the document. -/
  | void
  | reference (number : Nat)
  | scalar (node : ScalarNode)
  | sequenceStart
  | sequenceEnd
  | mappingStart
  | mappingEnd
  deriving DecidableEq, Repr

/-- A part and the place where it starts. -/
structure Item where
  part : Part
  mark : Mark
  deriving DecidableEq, Repr

/-- A document, complete or up to a failure. -/
structure Document where
  items : List Item
  /-- For each number of an anchor the position of its node; later pairs count. -/
  anchors : List (Nat × Nat)
  failure : Option Error

namespace Document

/-- A document being put together, its items backwards. -/
structure Draft where
  items : List Item
  names : List (List Char × Nat)
  anchors : List (Nat × Nat)

def Draft.empty : Draft := ⟨[], [], []⟩

/-- Give the anchor a number, and let that number lead to the next item. -/
def Draft.anchor (draft : Draft) : Option (List Char) → Draft
  | none => draft
  | some name =>
    let number := draft.names.length
    let others := draft.names.filter fun n => n.1 != name
    { draft with
      names := (name, number) :: others,
      anchors := (number, draft.items.length) :: draft.anchors }

def Draft.add (draft : Draft) (part : Part) (mark : Mark) : Draft :=
  { draft with items := ⟨part, mark⟩ :: draft.items }

/-- The document as far as it was put together. -/
def Draft.finish (draft : Draft) (failure : Option Error) : Document :=
  ⟨draft.items.reverse, draft.anchors, failure⟩

/-- The first document of the events, and whether anything but the end of the text follows it. -/
def collect (failure : Option Trouble) : Draft → List Event → Document × Bool
  | draft, [] => (draft.finish (failure.map .malformed), false)
  | draft, event :: rest =>
    match event.kind with
    | .streamStart => collect failure draft rest
    | .documentStart => collect failure draft rest
    | .streamEnd => ((draft.add .void event.mark).finish none, false)
    | .documentEnd =>
      (draft.finish none, match rest with
        | [] => failure.isSome
        | next :: _ => next.kind != .streamEnd)
    | .reference name =>
      match draft.names.find? fun n => n.1 == name with
      | some (_, number) => collect failure (draft.add (.reference number) event.mark) rest
      | none => (draft.finish (some (.unknownAnchor event.mark)), false)
    | .scalar anchor node =>
      collect failure ((draft.anchor anchor).add (.scalar node) event.mark) rest
    | .sequenceStart anchor =>
      collect failure ((draft.anchor anchor).add .sequenceStart event.mark) rest
    | .sequenceEnd => collect failure (draft.add .sequenceEnd event.mark) rest
    | .mappingStart anchor =>
      collect failure ((draft.anchor anchor).add .mappingStart event.mark) rest
    | .mappingEnd => collect failure (draft.add .mappingEnd event.mark) rest

/-- The first document of a text, and whether anything but the end of the text follows it. -/
def ofText (text : List Char) : Document × Bool :=
  match firstForbidden text 0 with
  | some offset => (⟨[], [], some (.controlCharacter offset)⟩, false)
  | none =>
    let events := Event.ofTokens (Token.scan text)
    collect events.failure Draft.empty events.items

/-- The items from the node on that the number of an anchor leads to. -/
def target (document : Document) (number : Nat) : List Item :=
  match document.anchors.find? fun a => a.1 == number with
  | some (_, position) => document.items.drop position
  | none => []

/-! ## Reading values -/

def cutOff {α : Type} (document : Document) : Except Error α :=
  .error (document.failure.getD .manyDocuments)

/-- Fail because a value does not fit at the path. -/
def misfit {α : Type} (path : String) (cause : Data.Mismatch) (mark : Mark) : Except Error α :=
  .error (.misfit path cause mark)

/-- The tag of one of the types of scalars. -/
def isTag (node : ScalarNode) (name : String) : Bool :=
  node.tag == some ("tag:yaml.org,2002:" ++ name).toList

/-- What is wrong with a scalar where something else was expected. A tag may ask for a type that the
scalar does not have. -/
def scalarMismatch (node : ScalarNode) (expected : String) : Data.Mismatch :=
  let text := Data.Found.text (String.ofList node.value)
  let wrong (found : Data.Found) := Data.Mismatch.wrongType found expected
  let plain := wrong (Resolution.resolve node.value).found
  match node.tag with
  | none => if node.style = .plain then plain else wrong text
  | some tag =>
    if isTag node "bool" then
      match Resolution.boolean? node.value with
      | some value => wrong (.boolean value)
      | none => .wrongValue text "a boolean"
    else if isTag node "int" then
      match Resolution.whole? node.value with
      | some value => wrong (Resolution.foundWhole value)
      | none => .wrongValue text "an integer"
    else if isTag node "float" then
      match Resolution.float? node.value with
      | some value => wrong (.float (value.plain true))
      | none => .wrongValue text "a float"
    else if isTag node "null" then
      if Resolution.isNull node.value then wrong .unit else .wrongValue text "null"
    else if tag.head? = some '!' && node.style == .plain then plain
    else wrong text

/-- What is wrong with a node where something else was expected. -/
def mismatch (part : Part) (expected : String) : Data.Mismatch :=
  match part with
  | .scalar node => scalarMismatch node expected
  | .sequenceStart => .wrongType .sequence expected
  | .mappingStart => .wrongType .map expected
  | _ => .wrongType .unit expected

/-- A reader takes the items of a node and gives those behind it. -/
abbrev Reader (α : Type) := Document → List Item → Except Error (α × List Item)

/-- Read a scalar, directly or through an alias. -/
def readScalar {α : Type} (path expected : String) (read : ScalarNode → Option α) : Reader α :=
  fun document items =>
    let take (item : Item) : Except Error α :=
      match item.part with
      | .scalar node =>
        match read node with
        | some value => .ok value
        | none => misfit path (mismatch item.part expected) item.mark
      | _ => misfit path (mismatch item.part expected) item.mark
    match items with
    | [] => document.cutOff
    | item :: rest =>
      match item.part with
      | .reference number =>
        match document.target number with
        | target :: _ => (take target).map fun value => (value, rest)
        | [] => document.cutOff
      | _ => (take item).map fun value => (value, rest)

def readText (path expected : String) : Reader (List Char) :=
  readScalar path expected fun node => some node.value

/-- A whole number of 64 bits: a plain scalar, or a literal block that is tagged as one. -/
def readUnsigned (path : String) : Reader Nat :=
  readScalar path "u64" fun node =>
    if node.style = .plain || (node.style == .literal && isTag node "int") then
      Resolution.unsigned? node.value
    else none

/-- Whether a scalar stands for no value, or what is wrong with its tag. -/
def standsForNone (node : ScalarNode) : Except Data.Mismatch Bool :=
  if node.style ≠ .plain then .ok false
  else match node.tag with
    | none => .ok (node.value.isEmpty || Resolution.isNull node.value)
    | some _ =>
      if isTag node "null" then
        if Resolution.isNull node.value then .ok true
        else .error (.wrongValue (.text (String.ofList node.value)) "null")
      else .ok false

/-- A value, or none. What is wrong with a tag is reported at `around`. -/
def readOptional {α : Type} (around : Mark) (read : Reader α) : Reader (Option α) :=
  fun document items =>
    let node? := match items with
      | [] => none
      | item :: _ =>
        match item.part with
        | .reference number => (document.target number).head?.map Item.part
        | part => some part
    let isNone := match node? with
      | some (.scalar node) => standsForNone node
      | some .void => .ok true
      | _ => .ok false
    match isNone with
    | .error cause => misfit "" cause around
    | .ok true => .ok (none, items.drop 1)
    | .ok false => do
      let (value, rest) ← read document items
      pure (some value, rest)

/-- Pass over a node, with so many collections open. -/
def skipNode (document : Document) : Nat → List Item → Except Error (List Item)
  | _, [] => document.cutOff
  | depth, item :: rest =>
    match item.part with
    | .sequenceStart => skipNode document (depth + 1) rest
    | .mappingStart => skipNode document (depth + 1) rest
    | .sequenceEnd => if depth ≤ 1 then .ok rest else skipNode document (depth - 1) rest
    | .mappingEnd => if depth ≤ 1 then .ok rest else skipNode document (depth - 1) rest
    | _ => if depth = 0 then .ok rest else skipNode document depth rest

/-- The name of a member, and the path that messages give its value. -/
def readKey : Reader (List Char × String) := fun document items => do
  let (name, rest) ← readText "" "field identifier" document items
  let isAlias := match items with
    | item :: _ => match item.part with
      | .reference _ => true
      | _ => false
    | [] => false
  pure ((name, if isAlias then "?" else String.ofList name), rest)

end Document

end DirLock.Yaml
