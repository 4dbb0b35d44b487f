import DirLock.Yaml.Token.Property
import DirLock.Yaml.Token.Scalar

/-!
# The tokens of a text

A token is given out once nothing read later can put a token before it. What can is a simple key, a
key on one line whose colon has not come yet: the key token is then put before the key. A candidate
is given up when its line ends or 1024 characters have passed; at the indentation of an open mapping
it has to be a key, and giving it up is an error.
-/

namespace DirLock.Yaml

/-- A place where a simple key may have begun. -/
structure KeyCandidate where
  /-- Whether it may still turn out to be a key. -/
  possible : Bool
  /-- Whether it has to be one. -/
  required : Bool
  /-- The number of the token that the key begins with. -/
  number : Nat
  mark : Mark
  deriving DecidableEq, Repr

def KeyCandidate.none : KeyCandidate := ⟨false, false, 0, Mark.start⟩

structure Lexer where
  cursor : Cursor
  started : Bool
  ended : Bool
  /-- Tokens that were read and not yet given out. -/
  queue : List Token
  /-- How many tokens were given out. -/
  given : Nat
  /-- The column of the innermost open block collection; -1 outside of all. -/
  indent : Int
  /-- The columns of those around it. -/
  outer : List Int
  /-- Whether a simple key may begin here. -/
  keyAllowed : Bool
  /-- The candidate of each open bracket, the innermost first, and of the block around them. -/
  candidates : List KeyCandidate
  /-- How many brackets are open. -/
  flow : Nat

namespace Lexer

def ofText (text : List Char) : Lexer :=
  ⟨Cursor.ofText text, false, false, [], 0, -1, [], false, [], 0⟩

def inFlow (lexer : Lexer) : Bool := lexer.flow > 0

def push (lexer : Lexer) (kind : TokenKind) (start stop : Mark) : Lexer :=
  { lexer with queue := lexer.queue ++ [⟨kind, start, stop⟩] }

/-- Put a token before the one with this number. -/
def pushAt (lexer : Lexer) (number : Nat) (kind : TokenKind) (mark : Mark) : Lexer :=
  let before := number - lexer.given
  { lexer with
    queue := lexer.queue.take before ++ ⟨kind, mark, mark⟩ :: lexer.queue.drop before }

def candidate (lexer : Lexer) : KeyCandidate := lexer.candidates.headD KeyCandidate.none

def setCandidate (lexer : Lexer) (candidate : KeyCandidate) : Lexer :=
  { lexer with candidates := candidate :: lexer.candidates.drop 1 }

/-- The failure of a candidate that had to be a key. -/
def noColon {α : Type} (lexer : Lexer) (candidate : KeyCandidate) : Except Trouble α :=
  lexer.cursor.failIn .keyWithoutColon .simpleKey candidate.mark

/-- Whether the candidate can no longer be a key. -/
def isStale (mark : Mark) (candidate : KeyCandidate) : Bool :=
  candidate.possible &&
    (candidate.mark.line < mark.line || candidate.mark.index + 1024 < mark.index)

/-- The candidate, given up if it can no longer be a key. -/
def withered (mark : Mark) (candidate : KeyCandidate) : KeyCandidate :=
  if isStale mark candidate then { candidate with possible := false } else candidate

/-- Give up the candidates that can no longer be keys. The outermost is looked at first. -/
def dropStale (lexer : Lexer) : Except Trouble Lexer :=
  let mark := lexer.cursor.mark
  match lexer.candidates.reverse.find? fun c => isStale mark c && c.required with
  | some candidate => lexer.noColon candidate
  | none => .ok { lexer with candidates := lexer.candidates.map (withered mark) }

def dropCandidate (lexer : Lexer) : Except Trouble Lexer :=
  let candidate := lexer.candidate
  if candidate.possible && candidate.required then lexer.noColon candidate
  else .ok (lexer.setCandidate { candidate with possible := false })

/-- Note that a simple key may begin here. -/
def saveCandidate (lexer : Lexer) : Except Trouble Lexer :=
  if lexer.keyAllowed then do
    let required := !lexer.inFlow && lexer.indent == lexer.cursor.mark.column
    let number := lexer.given + lexer.queue.length
    let lexer ← lexer.dropCandidate
    pure (lexer.setCandidate ⟨true, required, number, lexer.cursor.mark⟩)
  else .ok lexer

/-- Open a block collection if the column lies deeper than the innermost one. Its token goes to the
end or before the token with the given number. -/
def openBlock (lexer : Lexer) (column : Nat) (number : Option Nat) (kind : TokenKind)
    (mark : Mark) : Lexer :=
  if lexer.inFlow || column ≤ lexer.indent then lexer
  else
    let lexer := { lexer with outer := lexer.indent :: lexer.outer, indent := column }
    match number with
    | none => lexer.push kind mark mark
    | some number => lexer.pushAt number kind mark

/-- Close the columns that lie deeper than this one. -/
def closeColumns (column : Int) (mark : Mark) :
    List Int → Int → List Token → List Int × Int × List Token
  | [], indent, queue => ([], indent, queue)
  | next :: outer, indent, queue =>
    if indent > column then closeColumns column mark outer next (queue ++ [⟨.blockEnd, mark, mark⟩])
    else (next :: outer, indent, queue)

/-- Close the block collections that lie deeper than the column. -/
def closeBlocks (lexer : Lexer) (column : Int) : Lexer :=
  if lexer.inFlow then lexer
  else
    let (outer, indent, queue) :=
      closeColumns column lexer.cursor.mark lexer.outer lexer.indent lexer.queue
    { lexer with outer := outer, indent := indent, queue := queue }

/-- Go past `n` characters and add them as a token. -/
def indicator (lexer : Lexer) (n : Nat) (kind : TokenKind) : Lexer :=
  let start := lexer.cursor.mark
  let cursor := lexer.cursor.advanceBy n
  { lexer with cursor := cursor }.push kind start cursor.mark

/-- Add a token that was read, and go on behind it. -/
def accept (lexer : Lexer) (result : Token × Cursor) : Lexer :=
  { lexer with queue := lexer.queue ++ [result.1], cursor := result.2 }

/-! ## Between tokens -/

/-- Go past blanks, comments and breaks. Tabs count as blanks where no simple key may begin. -/
def skipGaps : Nat → Lexer → Lexer
  | 0, lexer => lexer
  | fuel + 1, lexer =>
    let cursor := lexer.cursor
    let cursor :=
      if cursor.mark.index == 0 && cursor.sees '\ufeff' then cursor.advance else cursor
    let tabs := lexer.inFlow || !lexer.keyAllowed
    let cursor := (cursor.takeWhile fun c => c == ' ' || (tabs && c == '\t')).2
    let cursor := cursor.skipComment
    if cursor.atBreak then
      skipGaps fuel { lexer with
        cursor := cursor.advanceLine, keyAllowed := lexer.keyAllowed || !lexer.inFlow }
    else { lexer with cursor := cursor }

/-! ## One token -/

def start (lexer : Lexer) : Lexer :=
  { lexer with
    started := true, keyAllowed := true, candidates := [KeyCandidate.none] }.push
      .streamStart lexer.cursor.mark lexer.cursor.mark

/-- The end of the text, which counts as the start of a line. -/
def finish (lexer : Lexer) : Except Trouble Lexer := do
  let mark := lexer.cursor.mark
  let mark := if mark.column = 0 then mark else ⟨mark.index, mark.line + 1, 0⟩
  let lexer := { lexer with cursor := ⟨[], mark⟩ }.closeBlocks (-1)
  let lexer ← lexer.dropCandidate
  pure ({ lexer with keyAllowed := false, ended := true }.push .streamEnd mark mark)

def directive (lexer : Lexer) : Except Trouble Lexer := do
  let lexer ← (lexer.closeBlocks (-1)).dropCandidate
  pure ({ lexer with keyAllowed := false }.accept (← Property.directive lexer.cursor))

/-- The start or the end of a document. -/
def documentMark (lexer : Lexer) (kind : TokenKind) : Except Trouble Lexer := do
  let lexer ← (lexer.closeBlocks (-1)).dropCandidate
  pure ({ lexer with keyAllowed := false }.indicator 3 kind)

/-- An opening bracket, which may begin a simple key. -/
def openFlow (lexer : Lexer) (kind : TokenKind) : Except Trouble Lexer := do
  let lexer ← lexer.saveCandidate
  pure ({ lexer with
    candidates := KeyCandidate.none :: lexer.candidates, flow := lexer.flow + 1,
    keyAllowed := true }.indicator 1 kind)

def closeFlow (lexer : Lexer) (kind : TokenKind) : Except Trouble Lexer := do
  let lexer ← lexer.dropCandidate
  let lexer :=
    if lexer.inFlow then
      { lexer with flow := lexer.flow - 1, candidates := lexer.candidates.drop 1 }
    else lexer
  pure ({ lexer with keyAllowed := false }.indicator 1 kind)

def flowEntry (lexer : Lexer) : Except Trouble Lexer := do
  let lexer ← lexer.dropCandidate
  pure ({ lexer with keyAllowed := true }.indicator 1 .flowEntry)

/-- A dash. Between brackets it is left to the grammar to refuse it. -/
def blockEntry (lexer : Lexer) : Except Trouble Lexer := do
  if !lexer.inFlow && !lexer.keyAllowed then lexer.cursor.fail .blockEntryMisplaced
  let mark := lexer.cursor.mark
  let lexer ← (lexer.openBlock mark.column none .blockSequenceStart mark).dropCandidate
  pure ({ lexer with keyAllowed := true }.indicator 1 .blockEntry)

def explicitKey (lexer : Lexer) : Except Trouble Lexer := do
  if !lexer.inFlow && !lexer.keyAllowed then lexer.cursor.fail .mappingKeyMisplaced
  let mark := lexer.cursor.mark
  let lexer ← (lexer.openBlock mark.column none .blockMappingStart mark).dropCandidate
  pure ({ lexer with keyAllowed := !lexer.inFlow }.indicator 1 .key)

/-- A colon before a value. It makes the candidate a key if there is one. -/
def value (lexer : Lexer) : Except Trouble Lexer := do
  let candidate := lexer.candidate
  if candidate.possible then
    let lexer := lexer.pushAt candidate.number .key candidate.mark
    let lexer := lexer.openBlock candidate.mark.column (some candidate.number) .blockMappingStart
      candidate.mark
    let lexer := lexer.setCandidate { candidate with possible := false }
    pure ({ lexer with keyAllowed := false }.indicator 1 .value)
  else
    if !lexer.inFlow && !lexer.keyAllowed then lexer.cursor.fail .mappingValueMisplaced
    let mark := lexer.cursor.mark
    let lexer := lexer.openBlock mark.column none .blockMappingStart mark
    pure ({ lexer with keyAllowed := !lexer.inFlow }.indicator 1 .value)

/-- A token that may begin a simple key and after which none may begin. -/
def content (lexer : Lexer) (read : Cursor → Except Trouble (Token × Cursor)) :
    Except Trouble Lexer := do
  let lexer ← lexer.saveCandidate
  pure ({ lexer with keyAllowed := false }.accept (← read lexer.cursor))

def blockScalar (lexer : Lexer) (literal : Bool) : Except Trouble Lexer := do
  let lexer ← lexer.dropCandidate
  pure ({ lexer with keyAllowed := true }.accept
    (← Scalar.block literal lexer.indent lexer.cursor))

/-- A plain scalar. A break behind it lets a simple key begin. -/
def plainScalar (lexer : Lexer) : Except Trouble Lexer := do
  let lexer ← lexer.saveCandidate
  let (token, broken, cursor) ← Scalar.plain lexer.inFlow lexer.indent lexer.cursor
  pure ({ lexer with keyAllowed := broken }.accept (token, cursor))

/-- Whether a plain scalar may begin with the character, the next one being `next`. -/
def beginsPlain (inFlow : Bool) (c : Char) (next : Option Char) : Bool :=
  let indicators := "-?:,[]\x7b\x7d#&*!|>'\"%@".toList
  !(isBlank c || isBreak c || indicators.contains c || c.toNat == 0x60) ||
    (c == '-' && !(next.map isBlank).getD false) ||
    (!inFlow && (c == '?' || c == ':') && !Cursor.isGap next)

/-- Read the next token behind the gaps. -/
def token (lexer : Lexer) : Except Trouble Lexer :=
  let cursor := lexer.cursor
  match cursor.rest with
  | [] => lexer.finish
  | c :: rest =>
    let gap := Cursor.isGap rest.head?
    let flow := lexer.inFlow
    if c == '%' && cursor.mark.column == 0 then lexer.directive
    else if cursor.atIndicator '-' then lexer.documentMark .documentStart
    else if cursor.atIndicator '.' then lexer.documentMark .documentEnd
    else if c == '[' then lexer.openFlow .flowSequenceStart
    else if c == '\x7b' then lexer.openFlow .flowMappingStart
    else if c == ']' then lexer.closeFlow .flowSequenceEnd
    else if c == '\x7d' then lexer.closeFlow .flowMappingEnd
    else if c == ',' then lexer.flowEntry
    else if c == '-' && gap then lexer.blockEntry
    else if c == '?' && (flow || gap) then lexer.explicitKey
    else if c == ':' && (flow || gap) then lexer.value
    else if c == '*' then lexer.content (Property.anchor true)
    else if c == '&' then lexer.content (Property.anchor false)
    else if c == '!' then lexer.content (Property.tag flow)
    else if c == '|' && !flow then lexer.blockScalar true
    else if c == '>' && !flow then lexer.blockScalar false
    else if c == '\'' then lexer.content (Scalar.quoted true)
    else if c == '"' then lexer.content (Scalar.quoted false)
    else if beginsPlain flow c rest.head? then lexer.plainScalar
    else cursor.failIn .cannotStartToken .nextToken cursor.mark

def read (lexer : Lexer) : Except Trouble Lexer :=
  if !lexer.started then .ok lexer.start
  else do
    let lexer := skipGaps (lexer.cursor.rest.length + 1) lexer
    let lexer ← lexer.dropStale
    (lexer.closeBlocks lexer.cursor.mark.column).token

/-! ## All tokens -/

/-- Whether a key token may still come before the first token that was not given out. -/
def mustWait (lexer : Lexer) : Bool :=
  lexer.queue.isEmpty || lexer.candidates.any fun c => c.possible && c.number == lexer.given

/-- Give out tokens until the text ends or fails. Those given out are kept backwards, and the number
bounds the steps. -/
def run : Nat → Lexer → List Token → Produced Token
  | 0, _, done => ⟨done.reverse, none⟩
  | fuel + 1, lexer, done =>
    match lexer.queue with
    | [] =>
      if lexer.ended then ⟨done.reverse, none⟩
      else match lexer.read with
        | .ok next => run fuel next done
        | .error trouble => ⟨done.reverse, some trouble⟩
    | first :: rest =>
      match lexer.dropStale with
      | .error trouble => ⟨done.reverse, some trouble⟩
      | .ok lexer =>
        if lexer.mustWait then
          match lexer.read with
          | .ok next => run fuel next done
          | .error trouble => ⟨done.reverse, some trouble⟩
        else run fuel { lexer with queue := rest, given := lexer.given + 1 } (first :: done)

end Lexer

def Token.scan (text : List Char) : Produced Token :=
  Lexer.run (8 * text.length + 16) (Lexer.ofText text) []

end DirLock.Yaml
