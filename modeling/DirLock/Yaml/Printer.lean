import DirLock.Text.Hex
import DirLock.Yaml.Cursor
import DirLock.Yaml.Resolution
import DirLock.Yaml.Token.Basic

/-!
# Writing scalars

A text is written so that it reads back as the same text: plain where nothing in it means something
else, in single quotes where it would be taken for another value or an indicator, as a literal block
where it has line feeds, and in double quotes with escapes where none of these can hold it.
-/

namespace DirLock.Yaml

namespace Printer

/-- Whether the character is written as it is. -/
def isPrintable (c : Char) : Bool :=
  let code := c.toNat
  code == 0x0a || (0x20 ≤ code && code ≤ 0x7e) || (0xa0 ≤ code && code ≤ 0xd7ff) ||
    (0xe000 ≤ code && code ≤ 0xfffd && code != 0xfeff) || 0x10000 ≤ code

/-- Whether nothing, a blank or a break stands there. A zero byte counts as nothing. -/
def isGap (c : Option Char) : Bool := Cursor.isGap c || c == some '\x00'

/-- Whether the character means something at the start of a plain scalar. -/
def opensOther (c : Char) : Bool :=
  "#,[]\x7b\x7d&*!|>'\"%@".toList.contains c || c.toNat == 0x60

/-- Whether a character after the first means something in a plain scalar. -/
def hasIndicator : Char → List Char → Bool
  | _, [] => false
  | before, c :: rest =>
    (c == ':' && isGap rest.head?) || (c == '#' && isGap (some before)) || hasIndicator c rest

/-- Whether the text would be taken for something else than a plain scalar. -/
def looksLikeIndicator (text : List Char) : Bool :=
  match text with
  | [] => false
  | c :: rest =>
    text.take 3 == ['-', '-', '-'] || text.take 3 == ['.', '.', '.'] || opensOther c ||
      ((c == '?' || c == ':' || c == '-') && isGap rest.head?) || hasIndicator c rest

/-- Whether two characters that satisfy the predicates stand side by side. -/
def hasPair (p q : Char → Bool) : List Char → Bool
  | a :: b :: rest => (p a && q b) || hasPair p q (b :: rest)
  | _ => false

def isSpace (c : Char) : Bool := c == ' '

/-- Whether the first or the last character satisfies the predicate. -/
def atEnds (p : Char → Bool) (text : List Char) : Bool :=
  (text.head?.map p).getD false || (text.getLast?.map p).getD false

/-- Whether a space stands before a break, or some character cannot be written as it is. -/
def needsEscapes (text : List Char) : Bool :=
  hasPair isSpace isBreak text || !text.all isPrintable

/-- Whether the text can be written plain. -/
def allowsPlain (text : List Char) : Bool :=
  !(needsEscapes text || text.any isBreak || atEnds isSpace text || looksLikeIndicator text)

/-- Whether the text can be written in single quotes. -/
def allowsSingle (text : List Char) : Bool :=
  !(needsEscapes text || hasPair isBreak isSpace text)

/-- Whether the text can be written as a literal block. -/
def allowsBlock (text : List Char) : Bool :=
  !(needsEscapes text || text.isEmpty || (text.getLast?.map isSpace).getD false)

/-- Whether a plain scalar with this text would not be read as a text. -/
def isAmbiguous (text : List Char) : Bool :=
  Resolution.isPaddedDigits text || match Resolution.resolve text with
    | .text _ => false
    | _ => true

def style (text : List Char) : ScalarStyle :=
  if text.contains '\n' then (if allowsBlock text then .literal else .doubleQuoted)
  else if !isAmbiguous text && allowsPlain text then .plain
  else if allowsSingle text then .singleQuoted
  else .doubleQuoted

/-- The spaces before a line inside a scalar. -/
def indentation : List Char := [' ', ' ']

/-- The text between single quotes. Lines after the first are indented. -/
def singleQuoted : Bool → List Char → List Char
  | broken, [] => (if broken then indentation else []) ++ ['\'']
  | broken, c :: rest =>
    if isBreak c then c :: singleQuoted true rest
    else if c = ' ' then c :: singleQuoted broken rest
    else (if broken then indentation else []) ++ (if c = '\'' then ['\'', '\''] else [c]) ++
      singleQuoted false rest

def upperDigits (width code : Nat) : List Char := (Text.hexPadded width code).map Char.toUpper

def escape (c : Char) : List Char :=
  '\\' :: match c with
    | '\x00' => ['0']
    | '\x07' => ['a']
    | '\x08' => ['b']
    | '\t' => ['t']
    | '\n' => ['n']
    | '\x0b' => ['v']
    | '\x0c' => ['f']
    | '\r' => ['r']
    | '\x1b' => ['e']
    | '"' => ['"']
    | '\\' => ['\\']
    | '\u0085' => ['N']
    | '\u00a0' => ['_']
    | '\u2028' => ['L']
    | '\u2029' => ['P']
    | _ =>
      let code := c.toNat
      if code ≤ 0xff then 'x' :: upperDigits 2 code
      else if code ≤ 0xffff then 'u' :: upperDigits 4 code
      else 'U' :: upperDigits 8 code

def doubleQuotedChar (c : Char) : List Char :=
  if !isPrintable c || isBreak c || c == '"' || c == '\\' then escape c else [c]

/-- What a literal block says about its first line and its last breaks. -/
def blockHints (text : List Char) : List Char :=
  let first := match text with
    | c :: _ => if c = ' ' ∨ isBreak c then ['2'] else []
    | [] => []
  let last := match text.reverse with
    | [] => ['-']
    | c :: before =>
      if !isBreak c then ['-']
      else match before with
        | [] => ['+']
        | d :: _ => if isBreak d then ['+'] else []
  first ++ last

/-- The lines of a literal block, each indented unless it is empty. -/
def blockLines : Bool → List Char → List Char
  | _, [] => []
  | broken, c :: rest =>
    if isBreak c then c :: blockLines true rest
    else (if broken then indentation else []) ++ c :: blockLines false rest

def scalar (text : List Char) : List Char :=
  match style text with
  | .plain => text
  | .singleQuoted => '\'' :: singleQuoted false text
  | .doubleQuoted => '"' :: text.flatMap doubleQuotedChar ++ ['"']
  | _ => '|' :: blockHints text ++ '\n' :: blockLines true text

/-- Written text with a line feed behind it, unless it ends with a break. -/
def ended (written : List Char) : List Char :=
  if (written.getLast?.map isBreak).getD false then written else written ++ ['\n']

end Printer

end DirLock.Yaml
