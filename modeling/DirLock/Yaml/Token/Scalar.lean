import DirLock.Yaml.Token.Basic
import DirLock.Text.Hex

/-!
# Scalars

The three ways to write a scalar: in quotes, plain, and as a block. Line breaks inside quotes and
plain scalars are folded: one break is a space, and of more breaks all but the first are kept. In a
block, indentation delimits the lines, and its header says what becomes of the breaks at the end.
-/

namespace DirLock.Yaml

namespace Scalar

open Cursor

/-! ## Folding -/

/-- Blanks met between two words: those on the line so far, or the break that ended the line and the
breaks after it. -/
structure Gap where
  broken : Bool
  blanks : List Char
  first : List Char
  more : List Char
  deriving DecidableEq, Repr

def Gap.none : Gap := ⟨false, [], [], []⟩

/-- A line that ends in an escaped break, which adds nothing. -/
def Gap.escaped : Gap := ⟨true, [], [], []⟩

/-- What the blanks add to the value. -/
def Gap.text (gap : Gap) : List Char :=
  if gap.broken then
    if gap.first.head? = some '\n' then (if gap.more.isEmpty then [' '] else gap.more)
    else gap.first ++ gap.more
  else gap.blanks

/-- Go past one blank or break between words. -/
def Gap.step (gap : Gap) (cursor : Cursor) : Gap × Cursor :=
  if cursor.atBlank then
    if gap.broken then (gap, cursor.advance)
    else ({ gap with blanks := gap.blanks ++ cursor.rest.take 1 }, cursor.advance)
  else if gap.broken then
    ({ gap with more := gap.more ++ cursor.breakText }, cursor.advanceLine)
  else ({ gap with broken := true, blanks := [], first := cursor.breakText }, cursor.advanceLine)

/-! ## Quoted scalars -/

/-- The characters that an escape of one letter stands for. -/
def escaped? (c : Char) : Option Char :=
  match c with
  | '0' => some '\x00'
  | 'a' => some '\x07'
  | 'b' => some '\x08'
  | 't' => some '\t'
  | '\t' => some '\t'
  | 'n' => some '\n'
  | 'v' => some '\x0b'
  | 'f' => some '\x0c'
  | 'r' => some '\r'
  | 'e' => some '\x1b'
  | ' ' => some ' '
  | '"' => some '"'
  | '/' => some '/'
  | '\\' => some '\\'
  | 'N' => some '\u0085'
  | '_' => some '\u00a0'
  | 'L' => some '\u2028'
  | 'P' => some '\u2029'
  | _ => none

/-- How many digits the escape with this letter has. -/
def codeLength? (c : Char) : Option Nat :=
  match c with
  | 'x' => some 2
  | 'u' => some 4
  | 'U' => some 8
  | _ => none

/-- The value of so many hexadecimal digits. -/
def hexCode? : Nat → Nat → List Char → Option Nat
  | 0, value, _ => some value
  | _ + 1, _, [] => none
  | n + 1, value, c :: rest =>
    match Text.hexValue? c with
    | some digit => hexCode? n (value * 16 + digit) rest
    | none => none

/-- The character that an escape stands for, and the cursor behind it. -/
def readEscape (began : Mark) (cursor : Cursor) : Except Trouble (Char × Cursor) :=
  match cursor.ahead 1 with
  | none => cursor.failIn .unknownEscape .quotedEscape began
  | some letter =>
    match escaped? letter with
    | some c => .ok (c, cursor.advanceBy 2)
    | none =>
      match codeLength? letter with
      | none => cursor.failIn .unknownEscape .quotedEscape began
      | some length =>
        let digits := cursor.advanceBy 2
        match hexCode? length 0 digits.rest with
        | none => digits.failIn .hexDigitMissing .quotedEscape began
        | some code =>
          if (0xd800 ≤ code && code ≤ 0xdfff) || code > 0x10ffff then
            digits.failIn .escapedCodeInvalid .quotedEscape began
          else .ok (Char.ofNat code, digits.advanceBy length)

/-- Where the reading of a quoted scalar stands. -/
inductive Place where
  /-- Inside a word. -/
  | word
  /-- Between words. -/
  | gap (gap : Gap)
  deriving DecidableEq, Repr

/-- Read a quoted scalar whose opening quote was read. The characters read so far are kept
backwards; the number bounds the steps. -/
def quotedFrom (single : Bool) (began : Mark) :
    Nat → List Char → Place → Cursor → Except Trouble (List Char × Cursor)
  | 0, _, _, cursor => cursor.failIn .endInQuotes .quotedScalar began
  | fuel + 1, done, .gap gap, cursor =>
    if cursor.atBlank || cursor.atBreak then
      let (gap, cursor) := gap.step cursor
      quotedFrom single began fuel done (.gap gap) cursor
    else if cursor.atDocumentIndicator then
      cursor.failIn .documentIndicatorInQuotes .quotedScalar began
    else if cursor.atEnd then cursor.failIn .endInQuotes .quotedScalar began
    else quotedFrom single began fuel (gap.text.reverse ++ done) .word cursor
  | fuel + 1, done, .word, cursor =>
    match cursor.rest with
    | [] => cursor.failIn .endInQuotes .quotedScalar began
    | c :: rest =>
      if single && c == '\'' then
        if rest.head? = some '\'' then
          quotedFrom single began fuel ('\'' :: done) .word (cursor.advanceBy 2)
        else .ok (done.reverse, cursor.advance)
      else if !single && c == '"' then .ok (done.reverse, cursor.advance)
      else if isBlank c || isBreak c then
        quotedFrom single began fuel done (.gap Gap.none) cursor
      else if !single && c == '\\' then
        if cursor.advance.atBreak then
          quotedFrom single began fuel done (.gap Gap.escaped) cursor.advance.advanceLine
        else do
          let (value, cursor) ← readEscape began cursor
          quotedFrom single began fuel (value :: done) .word cursor
      else quotedFrom single began fuel (c :: done) .word cursor.advance

def quoted (single : Bool) (cursor : Cursor) : Except Trouble (Token × Cursor) := do
  let began := cursor.mark
  let style := if single then ScalarStyle.singleQuoted else .doubleQuoted
  let inside := cursor.advance
  let (value, cursor) ← quotedFrom single began (2 * inside.rest.length + 2) [] .word inside
  pure (⟨.scalar value style, began, cursor.mark⟩, cursor)

/-! ## Plain scalars -/

/-- Whether the character is an indicator inside brackets. -/
def isFlowIndicator (c : Char) : Bool :=
  c == ',' || c == '[' || c == ']' || c == '\x7b' || c == '\x7d'

def plainEnds (inFlow : Bool) (cursor : Cursor) : Bool :=
  (cursor.sees ':' && isGap (cursor.ahead 1)) ||
    (inFlow && (cursor.peek.map isFlowIndicator).getD false)

/-- Whether a colon and an indicator stand together where they cannot. -/
def colonMisplaced (inFlow : Bool) (cursor : Cursor) : Bool :=
  inFlow && cursor.sees ':' &&
    ((cursor.ahead 1).map fun c => c == '?' || isFlowIndicator c).getD false

structure Plain where
  /-- The value, backwards. -/
  done : List Char
  /-- Where the value ends. -/
  stop : Mark
  /-- The blanks after it. -/
  gap : Gap
  /-- Whether the next character starts or continues a word. -/
  inWord : Bool

/-- Read a plain scalar. Lines after the first must be indented to the column `indent` outside of
brackets; the number bounds the steps. -/
def plainFrom (inFlow : Bool) (indent : Int) (began : Mark) :
    Nat → Plain → Cursor → Except Trouble (Plain × Cursor)
  | 0, state, cursor => .ok (state, cursor)
  | fuel + 1, state, cursor =>
    if state.inWord then
      match cursor.rest with
      | [] => .ok (state, cursor)
      | c :: _ =>
        if isBlank c || isBreak c then
          plainFrom inFlow indent began fuel { state with inWord := false } cursor
        else if colonMisplaced inFlow cursor then
          cursor.failIn .colonInFlowScalar .plainScalar began
        else if plainEnds inFlow cursor then .ok (state, cursor)
        else
          let next := cursor.advance
          plainFrom inFlow indent began fuel
            ⟨c :: (state.gap.text.reverse ++ state.done), next.mark, Gap.none, true⟩ next
    else if cursor.atBlank || cursor.atBreak then
      if state.gap.broken && cursor.sees '\t' && cursor.mark.column < indent then
        cursor.failIn .tabInPlainScalar .plainScalar began
      else
        let (gap, cursor) := state.gap.step cursor
        plainFrom inFlow indent began fuel { state with gap := gap } cursor
    else if !inFlow && cursor.mark.column < indent then .ok (state, cursor)
    else if cursor.atDocumentIndicator || cursor.sees '#' then .ok (state, cursor)
    else plainFrom inFlow indent began fuel { state with inWord := true } cursor

/-- A plain scalar, and whether a line break follows it. -/
def plain (inFlow : Bool) (indent : Int) (cursor : Cursor) :
    Except Trouble (Token × Bool × Cursor) := do
  let began := cursor.mark
  let (state, cursor) ← plainFrom inFlow (indent + 1) began (2 * cursor.rest.length + 2)
    ⟨[], began, Gap.none, true⟩ cursor
  pure (⟨.scalar state.done.reverse .plain, began, state.stop⟩, state.gap.broken, cursor)

/-! ## Block scalars -/

/-- What becomes of the breaks at the end of a block. -/
inductive Chomping where
  /-- All are dropped. -/
  | strip
  /-- The first is kept. -/
  | clip
  /-- All are kept. -/
  | keep
  deriving DecidableEq, Repr

/-- The chomping that an indicator asks for. -/
def chomping? (c : Option Char) : Option Chomping :=
  match c with
  | some '+' => some .keep
  | some '-' => some .strip
  | _ => none

/-- The indentation that an indicator asks for, if the character is one. -/
def indentation? (began : Mark) (cursor : Cursor) : Except Trouble (Option Nat × Cursor) :=
  match cursor.peek with
  | some c =>
    if c = '0' then cursor.failIn .zeroIndentation .blockScalar began
    else if c.isDigit then .ok (some (c.toNat - 0x30), cursor.advance)
    else .ok (none, cursor)
  | none => .ok (none, cursor)

/-- The header of a block, behind its first character: the two indicators in either order. -/
def blockHeader (began : Mark) (cursor : Cursor) :
    Except Trouble (Chomping × Option Nat × Cursor) :=
  match chomping? cursor.peek with
  | some chomping => do
    let (indentation, cursor) ← indentation? began cursor.advance
    pure (chomping, indentation, cursor)
  | none => do
    let (indentation, after) ← indentation? began cursor
    match indentation, chomping? after.peek with
    | some _, some chomping => pure (chomping, indentation, after.advance)
    | _, _ => pure (.clip, indentation, after)

/-- Empty lines of a block: the breaks, the greatest column reached, where they end, and the cursor
at the first line that is not empty. An unknown indentation is zero. -/
def blockBreaks (began : Mark) (indent : Nat) :
    Nat → List Char → Nat → Mark → Cursor → Except Trouble (List Char × Nat × Mark × Cursor)
  | 0, breaks, widest, stop, cursor => .ok (breaks, widest, stop, cursor)
  | fuel + 1, breaks, widest, stop, cursor =>
    let spaces := (cursor.rest.takeWhile (· = ' ')).length
    let room := if indent = 0 then spaces else min spaces (indent - cursor.mark.column)
    let cursor := cursor.advanceBy room
    let widest := max widest cursor.mark.column
    if (indent = 0 ∨ cursor.mark.column < indent) ∧ cursor.sees '\t' then
      cursor.failIn .tabForIndentation .blockScalar began
    else if cursor.atBreak then
      let next := cursor.advanceLine
      blockBreaks began indent fuel (breaks ++ cursor.breakText) widest next.mark next
    else .ok (breaks, widest, stop, cursor)

/-- A block as far as it was read. -/
structure Block where
  /-- The value, backwards. -/
  done : List Char
  /-- The break that ended the last line. -/
  lineBreak : List Char
  /-- The empty lines after it. -/
  breaks : List Char
  /-- Whether the last line began with a blank. -/
  blankLine : Bool
  stop : Mark

def blockLines (literal : Bool) (began : Mark) (indent : Nat) :
    Nat → Block → Cursor → Except Trouble (Block × Cursor)
  | 0, block, cursor => .ok (block, cursor)
  | fuel + 1, block, cursor =>
    if cursor.mark.column ≠ indent ∨ cursor.atEnd then .ok (block, cursor)
    else do
      let blank := cursor.atBlank
      let joined :=
        if !literal && block.lineBreak.head? == some '\n' && !block.blankLine && !blank then
          (if block.breaks.isEmpty then [' '] else [])
        else block.lineBreak
      let (line, atBreak) := cursor.takeWhile fun c => !isBreak c
      let done := line.reverse ++ block.breaks.reverse ++ joined.reverse ++ block.done
      let next := atBreak.advanceLine
      let (breaks, _, stop, cursor) ←
        blockBreaks began indent (next.rest.length + 1) [] 0 next.mark next
      blockLines literal began indent fuel ⟨done, atBreak.breakText, breaks, blank, stop⟩ cursor

/-- A scalar in block form, inside a collection that is indented to the column `outer`. -/
def block (literal : Bool) (outer : Int) (cursor : Cursor) : Except Trouble (Token × Cursor) := do
  let began := cursor.mark
  let (chomping, indentation, cursor) ← blockHeader began cursor.advance
  let cursor := cursor.skipBlanks.skipComment
  if !cursor.atLineEnd then cursor.failIn .commentOrBreakMissing .blockScalar began
  let cursor := cursor.advanceLine
  let known := match indentation with
    | some n => if outer ≥ 0 then outer.toNat + n else n
    | none => 0
  let (breaks, widest, stop, cursor) ←
    blockBreaks began known (cursor.rest.length + 1) [] 0 cursor.mark cursor
  let indent := if known = 0 then max (max widest (outer + 1).toNat) 1 else known
  let (result, cursor) ← blockLines literal began indent (cursor.rest.length + 1)
    ⟨[], [], breaks, false, stop⟩ cursor
  let tail := match chomping with
    | .strip => []
    | .clip => result.lineBreak
    | .keep => result.lineBreak ++ result.breaks
  let style := if literal then ScalarStyle.literal else .folded
  pure (⟨.scalar (result.done.reverse ++ tail) style, began, result.stop⟩, cursor)

end Scalar

end DirLock.Yaml
