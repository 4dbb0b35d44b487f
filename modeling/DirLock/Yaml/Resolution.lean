import DirLock.Data.Mismatch
import DirLock.Number.Reading
import DirLock.Number.Shortest
import DirLock.Text.Hex

/-!
# What a plain scalar means

A scalar without quotes may be nothing, a truth value, a whole number, a floating point number or,
if it is none of these, a text. Whole numbers may be written in four bases; one that has more than
one digit and starts with a zero is a text.
-/

namespace DirLock.Yaml

open Number (Binary64)

inductive Resolved where
  | null
  | boolean (value : Bool)
  | whole (value : Int)
  | float (value : Binary64)
  | text (value : List Char)
  deriving DecidableEq, Repr

namespace Resolution

def isNull (text : List Char) : Bool :=
  ["~", "null", "Null", "NULL"].any fun word => word.toList == text

/-- The truth value that the text stands for. -/
def boolean? (text : List Char) : Option Bool :=
  if ["true", "True", "TRUE"].any fun word => word.toList == text then some true
  else if ["false", "False", "FALSE"].any fun word => word.toList == text then some false
  else none

def dropSign : List Char → List Char
  | '+' :: rest => rest
  | '-' :: rest => rest
  | text => text

/-- Whether the text is of digits that start with a zero and are no number for that. -/
def isPaddedDigits (text : List Char) : Bool :=
  match dropSign text with
  | '0' :: c :: rest => (c :: rest).all Char.isDigit
  | _ => false

/-- The value of a digit in a base of at most sixteen. -/
def digit? (base : Nat) (c : Char) : Option Nat :=
  (Text.hexValue? c).filter (· < base)

/-- The value of digits in a base; there has to be at least one. -/
def digits? (base : Nat) (text : List Char) : Option Nat :=
  if text.isEmpty then none
  else text.foldl (fun value c => do pure ((← value) * base + (← digit? base c))) (some 0)

/-- The value of the digits behind a base mark, or in base ten if there is none. -/
def magnitude? (text : List Char) : Option Nat :=
  match text with
  | '0' :: 'x' :: rest => digits? 16 rest
  | '0' :: 'o' :: rest => digits? 8 rest
  | '0' :: 'b' :: rest => digits? 2 rest
  | _ => digits? 10 text

/-- The whole number that the text stands for, whatever its size. -/
def integer? (text : List Char) : Option Int :=
  if isPaddedDigits text then none
  else match text with
    | '-' :: rest => (magnitude? rest).map fun value => -(value : Int)
    | '+' :: rest => (magnitude? rest).map Int.ofNat
    | _ => (magnitude? text).map Int.ofNat

/-- Half the range of a word of 64 bits: `2 ^ 63`. -/
def wordHalf : Int := 9223372036854775808

/-- Half the range of two words: `2 ^ 127`. -/
def wideHalf : Int := 170141183460469231731687303715884105728

/-- The whole number that the text stands for, if 128 bits hold it. -/
def whole? (text : List Char) : Option Int :=
  (integer? text).filter fun value => -wideHalf ≤ value && value < 2 * wideHalf

/-- The number that the text stands for, if it has 64 bits and no sign. -/
def unsigned? (text : List Char) : Option Nat :=
  if text.head? = some '-' then none
  else ((integer? text).filter fun value => value < 2 * wordHalf).map Int.toNat

/-- The floating point number that the text stands for. -/
def float? (text : List Char) : Option Binary64 :=
  let positive := match text with
    | '+' :: rest => rest
    | _ => text
  let signs := match text with
    | '+' :: '+' :: _ => true
    | '+' :: '-' :: _ => true
    | _ => false
  if signs then none
  else if [".inf", ".Inf", ".INF"].any fun word => word.toList == positive then
    some (.infinite false)
  else if ["-.inf", "-.Inf", "-.INF"].any fun word => word.toList == text then
    some (.infinite true)
  else if [".nan", ".NaN", ".NAN"].any fun word => word.toList == text then some (.nan false)
  else (Number.binary64? positive).filter Binary64.isFinite

def resolve (text : List Char) : Resolved :=
  if text.isEmpty || isNull text then .null
  else match boolean? text with
    | some value => .boolean value
    | none =>
      match whole? text with
      | some value => .whole value
      | none =>
        if isPaddedDigits text then .text text
        else match float? text with
          | some value => .float value
          | none => .text text

def foundWhole (value : Int) : Data.Found :=
  if value ≥ 2 * wordHalf then .wideUnsigned value.toNat
  else if value < -wordHalf then .wideSigned value
  else .integer value

end Resolution

/-- How messages name the value of a plain scalar. -/
def Resolved.found : Resolved → Data.Found
  | .null => .unit
  | .boolean value => .boolean value
  | .whole value => Resolution.foundWhole value
  | .float value => .float (value.plain true)
  | .text value => .text (String.ofList value)

end DirLock.Yaml
