import DirLock.Data.Mismatch

/-!
# Failures of YAML reading

A failure names the problem, the place where it was found, and, where that helps, the construct
that was being read and where it began. Places at the very start of the text are not shown.
-/

namespace DirLock.Yaml

/-- A place in a text: characters before it, and line and column, both from zero. -/
structure Mark where
  index : Nat
  line : Nat
  column : Nat
  deriving DecidableEq, Repr, Inhabited

def Mark.start : Mark := ⟨0, 0, 0⟩

/-- Whether the place is at the start of the text. -/
def Mark.isStart (mark : Mark) : Bool := mark.line == 0 && mark.column == 0

/-- The place as messages show it, counted from one. -/
def Mark.show (mark : Mark) : String := s!"line {mark.line + 1} column {mark.column + 1}"

inductive Problem where
  | cannotStartToken
  | keyWithoutColon
  | blockEntryMisplaced
  | mappingKeyMisplaced
  | mappingValueMisplaced
  | unknownDirective
  | directiveNameMissing
  | directiveNameBroken
  | commentOrBreakMissing
  | versionMissing
  | versionTooLong
  | versionDotMissing
  | whitespaceMissing
  | whitespaceOrBreakMissing
  | anchorNameMissing
  | tagCloseMissing
  | tagBangMissing
  | tagUriMissing
  | octetMissing
  | leadingOctetWrong
  | trailingOctetWrong
  | zeroIndentation
  | tabForIndentation
  | documentIndicatorInQuotes
  | endInQuotes
  | unknownEscape
  | hexDigitMissing
  | escapedCodeInvalid
  | colonInFlowScalar
  | tabInPlainScalar
  | documentStartMissing
  | tagHandleUndefined
  | nodeMissing
  | dashMissing
  | keyMissing
  | flowSequenceOpen
  | flowMappingOpen
  | duplicateVersion
  | incompatibleVersion
  | duplicateTagHandle
  deriving DecidableEq, Repr

def Problem.message : Problem → String
  | .cannotStartToken => "found character that cannot start any token"
  | .keyWithoutColon => "could not find expected ':'"
  | .blockEntryMisplaced => "block sequence entries are not allowed in this context"
  | .mappingKeyMisplaced => "mapping keys are not allowed in this context"
  | .mappingValueMisplaced => "mapping values are not allowed in this context"
  | .unknownDirective => "found unknown directive name"
  | .directiveNameMissing => "could not find expected directive name"
  | .directiveNameBroken => "found unexpected non-alphabetical character"
  | .commentOrBreakMissing => "did not find expected comment or line break"
  | .versionMissing => "did not find expected version number"
  | .versionTooLong => "found extremely long version number"
  | .versionDotMissing => "did not find expected digit or '.' character"
  | .whitespaceMissing => "did not find expected whitespace"
  | .whitespaceOrBreakMissing => "did not find expected whitespace or line break"
  | .anchorNameMissing => "did not find expected alphabetic or numeric character"
  | .tagCloseMissing => "did not find the expected '>'"
  | .tagBangMissing => "did not find expected '!'"
  | .tagUriMissing => "did not find expected tag URI"
  | .octetMissing => "did not find URI escaped octet"
  | .leadingOctetWrong => "found an incorrect leading UTF-8 octet"
  | .trailingOctetWrong => "found an incorrect trailing UTF-8 octet"
  | .zeroIndentation => "found an indentation indicator equal to 0"
  | .tabForIndentation => "found a tab character where an indentation space is expected"
  | .documentIndicatorInQuotes => "found unexpected document indicator"
  | .endInQuotes => "found unexpected end of stream"
  | .unknownEscape => "found unknown escape character"
  | .hexDigitMissing => "did not find expected hexdecimal number"
  | .escapedCodeInvalid => "found invalid Unicode character escape code"
  | .colonInFlowScalar => "found unexpected ':'"
  | .tabInPlainScalar => "found a tab character that violates indentation"
  | .documentStartMissing => "did not find expected <document start>"
  | .tagHandleUndefined => "found undefined tag handle"
  | .nodeMissing => "did not find expected node content"
  | .dashMissing => "did not find expected '-' indicator"
  | .keyMissing => "did not find expected key"
  | .flowSequenceOpen => "did not find expected ',' or ']'"
  | .flowMappingOpen => "did not find expected ',' or '\x7d'"
  | .duplicateVersion => "found duplicate %YAML directive"
  | .incompatibleVersion => "found incompatible YAML document"
  | .duplicateTagHandle => "found duplicate %TAG directive"

inductive Context where
  | nextToken
  | simpleKey
  | directive
  | versionDirective
  | tagDirective
  | tagDirectiveHandle
  | tagDirectiveBang
  | tagDirectiveUri
  | anchor
  | aliasName
  | tag
  | tagUri
  | blockScalar
  | quotedScalar
  | quotedEscape
  | plainScalar
  | node
  | blockNode
  | flowNode
  | blockSequence
  | blockMapping
  | flowSequence
  | flowMapping
  deriving DecidableEq, Repr

def Context.message : Context → String
  | .nextToken => "while scanning for the next token"
  | .simpleKey => "while scanning a simple key"
  | .directive => "while scanning a directive"
  | .versionDirective => "while scanning a %YAML directive"
  | .tagDirective => "while scanning a %TAG directive"
  | .tagDirectiveHandle => "while scanning a tag directive"
  | .tagDirectiveBang => "while parsing a tag directive"
  | .tagDirectiveUri => "while parsing a %TAG directive"
  | .anchor => "while scanning an anchor"
  | .aliasName => "while scanning an alias"
  | .tag => "while scanning a tag"
  | .tagUri => "while parsing a tag"
  | .blockScalar => "while scanning a block scalar"
  | .quotedScalar => "while scanning a quoted scalar"
  | .quotedEscape => "while parsing a quoted scalar"
  | .plainScalar => "while scanning a plain scalar"
  | .node => "while parsing a node"
  | .blockNode => "while parsing a block node"
  | .flowNode => "while parsing a flow node"
  | .blockSequence => "while parsing a block collection"
  | .blockMapping => "while parsing a block mapping"
  | .flowSequence => "while parsing a flow sequence"
  | .flowMapping => "while parsing a flow mapping"

/-- A problem with its place, and the construct it was found in with the place where that began. -/
structure Trouble where
  problem : Problem
  mark : Mark
  context : Option (Context × Mark)
  deriving DecidableEq, Repr

def Trouble.message (trouble : Trouble) : String :=
  let place := if trouble.mark.isStart then "" else s!" at {trouble.mark.show}"
  let around := match trouble.context with
    | none => ""
    | some (context, mark) =>
      let same := mark.line == trouble.mark.line && mark.column == trouble.mark.column
      let began := if mark.isStart || same then "" else s!" at {mark.show}"
      s!", {context.message}{began}"
  s!"{trouble.problem.message}{place}{around}"

inductive Error where
  /-- A character that no text may hold, after so many bytes. -/
  | controlCharacter (offset : Nat)
  /-- The text is not well formed. -/
  | malformed (trouble : Trouble)
  /-- An alias names an anchor that was not set before it. -/
  | unknownAnchor (mark : Mark)
  /-- A second document follows the first. -/
  | manyDocuments
  /-- A value does not fit where it stands. -/
  | misfit (path : String) (cause : Data.Mismatch) (mark : Mark)
  deriving DecidableEq, Repr

def Error.message : Error → String
  | .controlCharacter offset =>
    let place := if offset = 0 then "" else s!" at position {offset}"
    s!"control characters are not allowed{place}"
  | .malformed trouble => trouble.message
  | .unknownAnchor mark =>
    let place := if mark.isStart then "" else s!" at {mark.show}"
    s!"unknown anchor{place}"
  | .manyDocuments =>
    "deserializing from YAML containing more than one document is not supported"
  | .misfit path cause mark =>
    let owner := if path.isEmpty then "" else s!"{path}: "
    let place := if mark.isStart then "" else s!" at {mark.show}"
    s!"{owner}{cause.message}{place}"

end DirLock.Yaml
