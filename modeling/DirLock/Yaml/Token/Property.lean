import DirLock.Yaml.Token.Basic
import DirLock.Text.Hex
import DirLock.Text.Utf8

/-!
# Anchors, tags and directives

What may stand before a node or a document: a name to refer to it by, a tag that says of what type
it is, and directives about the version and about how tags are shortened.
-/

namespace DirLock.Yaml

namespace Property

open Cursor

/-! ## Anchors -/

/-- Whether the character may follow the name of an anchor. -/
def endsName (c : Option Char) : Bool :=
  isGap c || (c.map fun c =>
    c == '?' || c == ':' || c == ',' || c == ']' || c == '\x7d' || c == '%' || c == '@' ||
      c.toNat == 0x60).getD false

def anchor (isAlias : Bool) (cursor : Cursor) : Except Trouble (Token × Cursor) :=
  let began := cursor.mark
  let (name, cursor) := cursor.advance.takeWhile isWord
  if name.isEmpty || !endsName cursor.peek then
    cursor.failIn .anchorNameMissing (if isAlias then .aliasName else .anchor) began
  else .ok (⟨if isAlias then .anchorRef name else .anchor name, began, cursor.mark⟩, cursor)

/-! ## Tags -/

/-- Whether the character may stand in a tag. Commas and brackets may where `wide` allows. -/
def isTagChar (wide : Bool) (c : Char) : Bool :=
  isWord c || ";/?:@&=+$.%!~*'()".toList.contains c || (wide && (c == ',' || c == '[' || c == ']'))

def escapedByte? (cursor : Cursor) : Option Nat :=
  match cursor.ahead 0, cursor.ahead 1, cursor.ahead 2 with
  | some '%', some high, some low =>
    match Text.hexValue? high, Text.hexValue? low with
    | some high, some low => some (high * 16 + low)
    | _, _ => none
  | _, _, _ => none

/-- The number of bytes of a character whose first byte this is. -/
def widthOf? (byte : Nat) : Option Nat :=
  if byte < 0x80 then some 1
  else if byte < 0xc0 then none
  else if byte < 0xe0 then some 2
  else if byte < 0xf0 then some 3
  else if byte < 0xf8 then some 4
  else none

/-- The other bytes of an escaped character. -/
def moreBytes (context : Context) (began : Mark) :
    Nat → List UInt8 → Cursor → Except Trouble (List UInt8 × Cursor)
  | 0, bytes, cursor => .ok (bytes, cursor)
  | n + 1, bytes, cursor =>
    match escapedByte? cursor with
    | none => cursor.failIn .octetMissing context began
    | some byte =>
      if byte / 64 ≠ 2 then cursor.failIn .trailingOctetWrong context began
      else moreBytes context began n (bytes ++ [UInt8.ofNat byte]) (cursor.advanceBy 3)

def escapedChar (context : Context) (began : Mark) (cursor : Cursor) :
    Except Trouble (List Char × Cursor) :=
  match escapedByte? cursor with
  | none => cursor.failIn .octetMissing context began
  | some byte =>
    match widthOf? byte with
    | none => cursor.failIn .leadingOctetWrong context began
    | some width => do
      let (bytes, cursor) ←
        moreBytes context began (width - 1) [UInt8.ofNat byte] (cursor.advanceBy 3)
      pure (Text.utf8DecodeLossy bytes, cursor)

/-- The characters of a tag. The number bounds them. -/
def uriFrom (wide : Bool) (context : Context) (began : Mark) :
    Nat → List Char → Cursor → Except Trouble (List Char × Cursor)
  | 0, done, cursor => .ok (done, cursor)
  | fuel + 1, done, cursor =>
    match cursor.peek with
    | none => .ok (done, cursor)
    | some c =>
      if c = '%' then do
        let (text, cursor) ← escapedChar context began cursor
        uriFrom wide context began fuel (done ++ text) cursor
      else if isTagChar wide c then uriFrom wide context began fuel (done ++ [c]) cursor.advance
      else .ok (done, cursor)

/-- A tag or a part of one, behind `head`, whose first character is left out. -/
def uri (wide inDirective : Bool) (head : List Char) (began : Mark) (cursor : Cursor) :
    Except Trouble (List Char × Cursor) := do
  let context := if inDirective then Context.tagDirectiveUri else .tagUri
  let (text, after) ← uriFrom wide context began (cursor.rest.length + 1) [] cursor
  if head.isEmpty && after.mark.index == cursor.mark.index then
    after.failIn .tagUriMissing context began
  else pure (head.drop 1 ++ text, after)

/-- A handle: an exclamation mark, a word, and another mark; in a tag the latter two may be
missing. -/
def handle (inDirective : Bool) (began : Mark) (cursor : Cursor) :
    Except Trouble (List Char × Cursor) :=
  if !cursor.sees '!' then
    cursor.failIn .tagBangMissing (if inDirective then .tagDirectiveHandle else .tag) began
  else
    let (word, cursor) := cursor.advance.takeWhile isWord
    if cursor.sees '!' then .ok ('!' :: word ++ ['!'], cursor.advance)
    else if inDirective && !word.isEmpty then
      cursor.failIn .tagBangMissing .tagDirectiveBang began
    else .ok ('!' :: word, cursor)

def verbatimTag (began : Mark) (cursor : Cursor) :
    Except Trouble (List Char × List Char × Cursor) := do
  let (suffix, cursor) ← uri true false [] began (cursor.advanceBy 2)
  if !cursor.sees '>' then cursor.failIn .tagCloseMissing .tag began
  pure ([], suffix, cursor.advance)

/-- A tag with a handle. A lone exclamation mark is a tag of its own. -/
def shortTag (began : Mark) (cursor : Cursor) :
    Except Trouble (List Char × List Char × Cursor) := do
  let (mark, cursor) ← handle false began cursor
  if mark.length ≥ 2 && mark.getLast? == some '!' then
    let (suffix, cursor) ← uri false false [] began cursor
    pure (mark, suffix, cursor)
  else
    let (suffix, cursor) ← uri false false mark began cursor
    if suffix.isEmpty then pure ([], ['!'], cursor) else pure (['!'], suffix, cursor)

def tag (inFlow : Bool) (cursor : Cursor) : Except Trouble (Token × Cursor) := do
  let began := cursor.mark
  let (mark, suffix, cursor) ←
    if cursor.ahead 1 == some '<' then verbatimTag began cursor else shortTag began cursor
  if !(inFlow && cursor.sees ',') && !isGap cursor.peek then
    cursor.failIn .whitespaceOrBreakMissing .tag began
  pure (⟨.tag mark suffix, began, cursor.mark⟩, cursor)

/-! ## Directives -/

/-- The digits of a version, nine of them at most. -/
def versionNumber (began : Mark) : Nat → Nat → Nat → Cursor → Except Trouble (Nat × Cursor)
  | 0, value, _, cursor => .ok (value, cursor)
  | fuel + 1, value, count, cursor =>
    match cursor.peek with
    | some c =>
      if c.isDigit then
        if count ≥ 9 then cursor.failIn .versionTooLong .versionDirective began
        else versionNumber began fuel (value * 10 + (c.toNat - 0x30)) (count + 1) cursor.advance
      else if count = 0 then cursor.failIn .versionMissing .versionDirective began
      else .ok (value, cursor)
    | none =>
      if count = 0 then cursor.failIn .versionMissing .versionDirective began
      else .ok (value, cursor)

def version (began : Mark) (cursor : Cursor) : Except Trouble (TokenKind × Cursor) := do
  let (major, cursor) ← versionNumber began 11 0 0 cursor.skipBlanks
  if !cursor.sees '.' then cursor.failIn .versionDotMissing .versionDirective began
  let (minor, cursor) ← versionNumber began 11 0 0 cursor.advance
  pure (.version major minor, cursor)

def tagHandle (began : Mark) (cursor : Cursor) : Except Trouble (TokenKind × Cursor) := do
  let (mark, cursor) ← handle true began cursor.skipBlanks
  if !cursor.atBlank then cursor.failIn .whitespaceMissing .tagDirective began
  let (expansion, cursor) ← uri true true [] began cursor.skipBlanks
  if !isGap cursor.peek then cursor.failIn .whitespaceOrBreakMissing .tagDirective began
  pure (.tagHandle mark expansion, cursor)

/-- A directive with the rest of its line. -/
def directive (cursor : Cursor) : Except Trouble (Token × Cursor) := do
  let began := cursor.mark
  let (name, cursor) := cursor.advance.takeWhile isWord
  if name.isEmpty then cursor.failIn .directiveNameMissing .directive began
  if !isGap cursor.peek then cursor.failIn .directiveNameBroken .directive began
  let (kind, cursor) ← match String.ofList name with
    | "YAML" => version began cursor
    | "TAG" => tagHandle began cursor
    | _ => cursor.failIn .unknownDirective .directive began
  let stop := cursor.mark
  let cursor := cursor.skipBlanks.skipComment
  if !cursor.atLineEnd then cursor.failIn .commentOrBreakMissing .directive began
  pure (⟨kind, began, stop⟩, cursor.advanceLine)

end Property

end DirLock.Yaml
