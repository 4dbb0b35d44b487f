import DirLock.Text.GraphemeExtend
import DirLock.Text.Hex
import DirLock.Text.Printable

/-!
# Text in double quotes

The form in which messages show text that may hold anything: double quotes and backslashes are
escaped, the usual controls have their short escapes, and every other character that cannot stand
for itself is written by its code point.
-/

namespace DirLock.Text

def quotedChar (c : Char) : List Char :=
  if c = '"' ∨ c = '\\' then ['\\', c]
  else if c = '\x00' then ['\\', '0']
  else if c = '\t' then ['\\', 't']
  else if c = '\n' then ['\\', 'n']
  else if c = '\r' then ['\\', 'r']
  else if isPrintable c && !extendsGrapheme c then [c]
  else ['\\', 'u', '\x7b'] ++ hexNumber c.toNat ++ ['\x7d']

def quoted (text : String) : String :=
  "\"" ++ String.ofList (text.toList.flatMap quotedChar) ++ "\""

end DirLock.Text
