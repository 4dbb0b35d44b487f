import DirLock.Yaml.Event.Basic

/-!
# From tokens to events

The grammar is an automaton with a stack: the state says what may come next, and the stack what to
return to when the node in hand is complete. Each step looks at the next token, takes as many tokens
as belong to one event, and gives that event.
-/

namespace DirLock.Yaml

inductive Expecting where
  | stream
  | bareDocument
  | document
  | documentContent
  | documentEnd
  | blockNode
  | blockSequenceFirst
  | blockSequenceEntry
  | flatSequenceEntry
  | blockMappingFirst
  | blockMappingKey
  | blockMappingValue
  | flowSequenceFirst
  | flowSequenceEntry
  | flowPairKey
  | flowPairValue
  | flowPairEnd
  | flowMappingFirst
  | flowMappingKey
  | flowMappingValue
  | flowMappingNoValue
  | nothing
  deriving DecidableEq, Repr

structure Grammar where
  expecting : Expecting
  /-- What to return to, the innermost first. -/
  stack : List Expecting
  /-- Where the open collections began, the innermost first. -/
  began : List Mark
  /-- The tokens not yet taken. -/
  tokens : List Token
  /-- Why there are no more tokens than these. -/
  failure : Option Trouble
  /-- The handles that tags may be shortened with. -/
  handles : List (List Char × List Char)

namespace Grammar

def ofTokens (tokens : Produced Token) : Grammar :=
  ⟨.stream, [], [], tokens.items, tokens.failure, []⟩

def peek (g : Grammar) : Except Trouble Token :=
  match g.tokens with
  | token :: _ => .ok token
  | [] => .error (g.failure.getD ⟨.nodeMissing, Mark.start, none⟩)

def skip (g : Grammar) : Grammar := { g with tokens := g.tokens.drop 1 }

def expect (g : Grammar) (expecting : Expecting) : Grammar := { g with expecting := expecting }

/-- Read a node next, and then return to `after`. -/
def push (g : Grammar) (after : Expecting) : Grammar := { g with stack := after :: g.stack }

/-- Return to what was expected before the node. -/
def pop (g : Grammar) : Grammar :=
  { g with expecting := g.stack.headD .nothing, stack := g.stack.drop 1 }

/-- Note where a collection began, and take its first token. -/
def openAt (g : Grammar) (mark : Mark) : Grammar := { g.skip with began := mark :: g.began }

def close (g : Grammar) : Grammar := { g.pop with began := g.began.drop 1 }

/-- Fail at the token, inside the innermost collection. -/
def failIn {α : Type} (g : Grammar) (context : Context) (problem : Problem) (token : Token) :
    Except Trouble α :=
  .error ⟨problem, token.start, some (context, g.began.headD Mark.start)⟩

def emptyScalar (g : Grammar) (mark : Mark) : Except Trouble (Event × Grammar) :=
  .ok (⟨.scalar none ScalarNode.empty, mark⟩, g)

/-! ## Nodes -/

structure Properties where
  anchor : Option (List Char)
  tag : Option (List Char × List Char × Mark)
  start : Mark
  deriving Repr

/-- An anchor and a tag in either order, each at most once. -/
def properties (g : Grammar) : Except Trouble (Properties × Grammar) := do
  let token ← g.peek
  match token.kind with
  | .anchor name =>
    let g := g.skip
    let next ← g.peek
    match next.kind with
    | .tag handle suffix =>
      pure (⟨some name, some (handle, suffix, next.start), token.start⟩, g.skip)
    | _ => pure (⟨some name, none, token.start⟩, g)
  | .tag handle suffix =>
    let g := g.skip
    let next ← g.peek
    match next.kind with
    | .anchor name => pure (⟨some name, some (handle, suffix, token.start), token.start⟩, g.skip)
    | _ => pure (⟨none, some (handle, suffix, token.start), token.start⟩, g)
  | _ => pure (⟨none, none, token.start⟩, g)

def fullTag (g : Grammar) (p : Properties) : Except Trouble (Option (List Char)) :=
  match p.tag with
  | none => .ok none
  | some (handle, suffix, mark) =>
    if handle.isEmpty then .ok (some suffix)
    else match g.handles.find? fun h => h.1 == handle with
      | some (_, expansion) => .ok (some (expansion ++ suffix))
      | none => .error ⟨.tagHandleUndefined, mark, some (.node, p.start)⟩

/-- A node. Block collections may stand where `block` allows, and a sequence without indentation of
its own where `flat` does. -/
def node (g : Grammar) (block flat : Bool) : Except Trouble (Event × Grammar) := do
  let token ← g.peek
  match token.kind with
  | .anchorRef name => pure (⟨.reference name, token.start⟩, g.skip.pop)
  | _ =>
    let (p, g) ← g.properties
    let token ← g.peek
    let tag ← g.fullTag p
    match token.kind with
    | .blockEntry =>
      if flat then pure (⟨.sequenceStart p.anchor, p.start⟩, g.expect .flatSequenceEntry)
      else missing g p tag token
    | .scalar value style =>
      let tag := if tag = some ['!'] then none else tag
      pure (⟨.scalar p.anchor ⟨tag, value, style⟩, p.start⟩, g.skip.pop)
    | .flowSequenceStart => pure (⟨.sequenceStart p.anchor, p.start⟩, g.expect .flowSequenceFirst)
    | .flowMappingStart => pure (⟨.mappingStart p.anchor, p.start⟩, g.expect .flowMappingFirst)
    | .blockSequenceStart =>
      if block then pure (⟨.sequenceStart p.anchor, p.start⟩, g.expect .blockSequenceFirst)
      else missing g p tag token
    | .blockMappingStart =>
      if block then pure (⟨.mappingStart p.anchor, p.start⟩, g.expect .blockMappingFirst)
      else missing g p tag token
    | _ => missing g p tag token
where
  /-- A node of which there is nothing but what may stand before one. -/
  missing (g : Grammar) (p : Properties) (tag : Option (List Char)) (token : Token) :
      Except Trouble (Event × Grammar) :=
    if p.anchor.isSome || tag.isSome then
      .ok (⟨.scalar p.anchor ⟨tag, [], .plain⟩, p.start⟩, g.pop)
    else .error ⟨.nodeMissing, token.start,
      some (if block then .blockNode else .flowNode, p.start)⟩

/-! ## Documents -/

def defaultHandles : List (List Char × List Char) :=
  [(['!'], ['!']), (['!', '!'], "tag:yaml.org,2002:".toList)]

/-- The directives before a document. Default handles yield to those set here. -/
def directives : Nat → Bool → Grammar → Except Trouble Grammar
  | 0, _, g => .ok g
  | fuel + 1, versioned, g => do
    let token ← g.peek
    match token.kind with
    | .version major minor =>
      if versioned then throw ⟨.duplicateVersion, token.start, none⟩
      if major ≠ 1 ∨ (minor ≠ 1 ∧ minor ≠ 2) then
        throw ⟨.incompatibleVersion, token.start, none⟩
      directives fuel true g.skip
    | .tagHandle handle expansion =>
      if g.handles.any fun h => h.1 == handle then
        throw ⟨.duplicateTagHandle, token.start, none⟩
      directives fuel versioned { g.skip with handles := g.handles ++ [(handle, expansion)] }
    | _ =>
      let extra := defaultHandles.filter fun d => !g.handles.any fun h => h.1 == d.1
      pure { g with handles := g.handles ++ extra }

def skipDocumentEnds (g : Grammar) : Grammar :=
  { g with tokens := g.tokens.dropWhile fun token => token.kind == .documentEnd }

/-- The start of a document, or the end of the text. Only the first document may start without being
announced. -/
def documentStart (g : Grammar) (bare : Bool) : Except Trouble (Event × Grammar) := do
  let g := if bare then g else g.skipDocumentEnds
  let token ← g.peek
  let announced := match token.kind with
    | .version _ _ => true
    | .tagHandle _ _ => true
    | .documentStart => true
    | _ => false
  if token.kind = .streamEnd then
    pure (⟨.streamEnd, token.start⟩, g.skip.expect .nothing)
  else if bare && !announced then
    let g ← directives 1 false g
    pure (⟨.documentStart, token.start⟩, (g.push .documentEnd).expect .blockNode)
  else
    let g ← directives (g.tokens.length + 1) false g
    let next ← g.peek
    if next.kind ≠ .documentStart then throw ⟨.documentStartMissing, next.start, none⟩
    pure (⟨.documentStart, token.start⟩, (g.skip.push .documentEnd).expect .documentContent)

def documentContent (g : Grammar) : Except Trouble (Event × Grammar) := do
  let token ← g.peek
  match token.kind with
  | .version _ _ => g.pop.emptyScalar token.start
  | .tagHandle _ _ => g.pop.emptyScalar token.start
  | .documentStart => g.pop.emptyScalar token.start
  | .documentEnd => g.pop.emptyScalar token.start
  | .streamEnd => g.pop.emptyScalar token.start
  | _ => g.node true false

/-- The end of a document. Handles do not outlive it. -/
def documentEnd (g : Grammar) : Except Trouble (Event × Grammar) := do
  let token ← g.peek
  let g := { g with handles := [] }
  let g := if token.kind = .documentEnd then g.skip else g
  pure (⟨.documentEnd, token.start⟩, g.expect .document)

/-! ## Collections -/

def blockSequenceEntry (g : Grammar) : Except Trouble (Event × Grammar) := do
  let token ← g.peek
  match token.kind with
  | .blockEntry =>
    let g := g.skip
    let next ← g.peek
    if next.kind = .blockEntry ∨ next.kind = .blockEnd then
      (g.expect .blockSequenceEntry).emptyScalar token.stop
    else (g.push .blockSequenceEntry).node true false
  | .blockEnd => pure (⟨.sequenceEnd, token.start⟩, g.skip.close)
  | _ => g.failIn .blockSequence .dashMissing token

/-- An entry of a sequence that has the indentation of the mapping around it, or its end. -/
def flatSequenceEntry (g : Grammar) : Except Trouble (Event × Grammar) := do
  let token ← g.peek
  match token.kind with
  | .blockEntry =>
    let g := g.skip
    let next ← g.peek
    if next.kind = .blockEntry ∨ next.kind = .key ∨ next.kind = .value ∨ next.kind = .blockEnd then
      (g.expect .flatSequenceEntry).emptyScalar token.stop
    else (g.push .flatSequenceEntry).node true false
  | _ => pure (⟨.sequenceEnd, token.start⟩, g.pop)

/-- Whether a part of a block mapping is left out before this token. -/
def endsBlockPart (kind : TokenKind) : Bool :=
  kind == .key || kind == .value || kind == .blockEnd

def blockMappingKey (g : Grammar) : Except Trouble (Event × Grammar) := do
  let token ← g.peek
  match token.kind with
  | .key =>
    let g := g.skip
    let next ← g.peek
    if endsBlockPart next.kind then (g.expect .blockMappingValue).emptyScalar token.stop
    else (g.push .blockMappingValue).node true true
  | .blockEnd => pure (⟨.mappingEnd, token.start⟩, g.skip.close)
  | _ => g.failIn .blockMapping .keyMissing token

def blockMappingValue (g : Grammar) : Except Trouble (Event × Grammar) := do
  let token ← g.peek
  match token.kind with
  | .value =>
    let g := g.skip
    let next ← g.peek
    if endsBlockPart next.kind then (g.expect .blockMappingKey).emptyScalar token.stop
    else (g.push .blockMappingKey).node true true
  | _ => (g.expect .blockMappingKey).emptyScalar token.start

/-- An entry of a sequence in brackets behind its comma, or the end of the sequence. -/
def flowSequenceItem (g : Grammar) : Except Trouble (Event × Grammar) := do
  let token ← g.peek
  match token.kind with
  | .flowSequenceEnd => pure (⟨.sequenceEnd, token.start⟩, g.skip.close)
  | .key => pure (⟨.mappingStart none, token.start⟩, g.skip.expect .flowPairKey)
  | _ => (g.push .flowSequenceEntry).node false false

def flowSequenceEntry (g : Grammar) : Except Trouble (Event × Grammar) := do
  let token ← g.peek
  match token.kind with
  | .flowSequenceEnd => g.flowSequenceItem
  | .flowEntry => g.skip.flowSequenceItem
  | _ => g.failIn .flowSequence .flowSequenceOpen token

/-- The key of a pair that is an entry of a sequence in brackets. -/
def flowPairKey (g : Grammar) : Except Trouble (Event × Grammar) := do
  let token ← g.peek
  if token.kind = .value ∨ token.kind = .flowEntry ∨ token.kind = .flowSequenceEnd then
    (g.skip.expect .flowPairValue).emptyScalar token.stop
  else (g.push .flowPairValue).node false false

/-- The value of a pair that is an entry of a sequence in brackets. -/
def flowPairValue (g : Grammar) : Except Trouble (Event × Grammar) := do
  let token ← g.peek
  match token.kind with
  | .value =>
    let g := g.skip
    let next ← g.peek
    if next.kind = .flowEntry ∨ next.kind = .flowSequenceEnd then
      (g.expect .flowPairEnd).emptyScalar next.start
    else (g.push .flowPairEnd).node false false
  | _ => (g.expect .flowPairEnd).emptyScalar token.start

/-- The end of a pair that is an entry of a sequence in brackets. -/
def flowPairEnd (g : Grammar) : Except Trouble (Event × Grammar) := do
  let token ← g.peek
  pure (⟨.mappingEnd, token.start⟩, g.expect .flowSequenceEntry)

/-- Whether a part of a mapping in brackets is left out before this token. -/
def endsFlowPart (kind : TokenKind) : Bool := kind == .flowEntry || kind == .flowMappingEnd

/-- A key of a mapping in brackets behind its comma, or the end of the mapping. -/
def flowMappingItem (g : Grammar) : Except Trouble (Event × Grammar) := do
  let token ← g.peek
  match token.kind with
  | .flowMappingEnd => pure (⟨.mappingEnd, token.start⟩, g.skip.close)
  | .key =>
    let g := g.skip
    let next ← g.peek
    if next.kind = .value || endsFlowPart next.kind then
      (g.expect .flowMappingValue).emptyScalar next.start
    else (g.push .flowMappingValue).node false false
  | _ => (g.push .flowMappingNoValue).node false false

/-- What follows an entry of a mapping in brackets. -/
def flowMappingKey (g : Grammar) : Except Trouble (Event × Grammar) := do
  let token ← g.peek
  match token.kind with
  | .flowMappingEnd => g.flowMappingItem
  | .flowEntry => g.skip.flowMappingItem
  | _ => g.failIn .flowMapping .flowMappingOpen token

def flowMappingValue (g : Grammar) : Except Trouble (Event × Grammar) := do
  let token ← g.peek
  match token.kind with
  | .value =>
    let g := g.skip
    let next ← g.peek
    if endsFlowPart next.kind then (g.expect .flowMappingKey).emptyScalar next.start
    else (g.push .flowMappingKey).node false false
  | _ => (g.expect .flowMappingKey).emptyScalar token.start

/-- Note where the collection began, and read on. -/
def first (g : Grammar) (next : Grammar → Except Trouble (Event × Grammar)) :
    Except Trouble (Event × Grammar) := do
  let token ← g.peek
  next (g.openAt token.start)

def step (g : Grammar) : Except Trouble (Event × Grammar) :=
  match g.expecting with
  | .stream => do
    let token ← g.peek
    pure (⟨.streamStart, token.start⟩, g.skip.expect .bareDocument)
  | .bareDocument => g.documentStart true
  | .document => g.documentStart false
  | .documentContent => g.documentContent
  | .documentEnd => g.documentEnd
  | .blockNode => g.node true false
  | .blockSequenceFirst => g.first blockSequenceEntry
  | .blockSequenceEntry => g.blockSequenceEntry
  | .flatSequenceEntry => g.flatSequenceEntry
  | .blockMappingFirst => g.first blockMappingKey
  | .blockMappingKey => g.blockMappingKey
  | .blockMappingValue => g.blockMappingValue
  | .flowSequenceFirst => g.first flowSequenceItem
  | .flowSequenceEntry => g.flowSequenceEntry
  | .flowPairKey => g.flowPairKey
  | .flowPairValue => g.flowPairValue
  | .flowPairEnd => g.flowPairEnd
  | .flowMappingFirst => g.first flowMappingItem
  | .flowMappingKey => g.flowMappingKey
  | .flowMappingValue => g.flowMappingValue
  | .flowMappingNoValue => do
    let token ← g.peek
    (g.expect .flowMappingKey).emptyScalar token.start
  | .nothing => g.emptyScalar Mark.start

/-- The events until the text ends or fails. Those found are kept backwards, and the number bounds
the steps. -/
def run : Nat → Grammar → List Event → Produced Event
  | 0, _, done => ⟨done.reverse, none⟩
  | fuel + 1, g, done =>
    if g.expecting = .nothing then ⟨done.reverse, none⟩
    else match g.step with
      | .ok (event, next) => run fuel next (event :: done)
      | .error trouble => ⟨done.reverse, some trouble⟩

end Grammar

def Event.ofTokens (tokens : Produced Token) : Produced Event :=
  Grammar.run (3 * tokens.items.length + 8) (Grammar.ofTokens tokens) []

end DirLock.Yaml
