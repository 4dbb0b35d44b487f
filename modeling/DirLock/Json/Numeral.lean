import DirLock.Json.Error
import DirLock.Number.Shortest

/-!
# JSON numbers

A number without fraction and power of ten that fits 64 bits is whole; every other number is a
floating point number. Digits beyond what 64 bits hold only move the power of ten, and that power
is applied by one rounded multiplication or by rounded divisions.
-/

namespace DirLock.Json

open Number (Binary64)

inductive Numeral where
  | unsigned (value : Nat)
  | signed (value : Int)
  | float (value : Binary64)
  deriving DecidableEq, Repr

def Numeral.found : Numeral → Data.Found
  | .unsigned value => .integer value
  | .signed value => .integer value
  | .float value => .float value.compact

/-- The largest whole number that is kept. -/
def wholeLimit : Nat := UInt64.size - 1

/-- The largest power of ten that is counted. -/
def powerLimit : Nat := 2147483647

/-- The number nearest to a power of ten. -/
def tenTo (power : Nat) : Binary64 := Binary64.ofDecimal false 1 power

/-- Divide by the largest power of ten in the table until the power left is inside the table. -/
def divideDown : Nat → Binary64 → Nat → Binary64
  | 0, value, _ => value
  | fuel + 1, value, power =>
    if power ≤ 308 then value.div (tenTo power)
    else if value = Binary64.zero false then value
    else divideDown fuel (value.div (tenTo 308)) (power - 308)

/-- `significand * 10 ^ power`; none if that is too large. -/
def assemble (significand : Nat) (power : Int) : Option Binary64 :=
  let value := Binary64.ofNat significand
  if power ≥ 0 then
    if power ≤ 308 then
      let product := value.mul (tenTo power.toNat)
      if product.isFinite then some product else none
    else if significand = 0 then some value
    else none
  else some (divideDown 4 value (-power).toNat)

/-- Give the number its sign, or refuse it if it is too large. -/
def finish (negative : Bool) (value : Option Binary64) : Reader Binary64 := fun rest =>
  match value with
  | none => failAt .numberTooLarge rest
  | some value => .ok (if negative then value.negate else value, rest)

def startsWithDigit : List Char → Bool
  | c :: _ => c.isDigit
  | [] => false

/-- Take digits while the value fits; those left over make the value no larger. -/
def fittingDigits : List Char → Nat → Nat → Nat × Nat × List Char
  | [], value, count => (value, count, [])
  | c :: rest, value, count =>
    if c.isDigit && value * 10 + (c.toNat - 0x30) ≤ wholeLimit then
      fittingDigits rest (value * 10 + (c.toNat - 0x30)) (count + 1)
    else (value, count, c :: rest)

/-- The digits of a power of ten after the first; none once they pass the limit. -/
def powerDigits : List Char → Nat → Option Nat × List Char
  | [], power => (some power, [])
  | c :: rest, power =>
    if c.isDigit then
      let next := power * 10 + (c.toNat - 0x30)
      if next > powerLimit then (none, rest) else powerDigits rest next
    else (some power, c :: rest)

/-- The power of ten, read after the `e`, applied to what stands before it. -/
def readPower (negative : Bool) (significand : Nat) (before : Int) : Reader Binary64 := fun text =>
  let (down, digits) := match text with
    | '+' :: rest => (false, rest)
    | '-' :: rest => (true, rest)
    | rest => (false, rest)
  match digits with
  | [] => failAt .endInValue []
  | c :: rest =>
    if !c.isDigit then failOn .badNumber (c :: rest)
    else match powerDigits rest (c.toNat - 0x30) with
      | (some power, rest) =>
        let power := if down then before - power else before + power
        finish negative (assemble significand power) rest
      | (none, rest) =>
        if significand ≠ 0 ∧ !down then failAt .numberTooLarge rest
        else finish negative (some (Binary64.zero false)) (rest.dropWhile Char.isDigit)

/-- What follows the digits of a number: a power of ten or nothing. -/
def readTail (negative : Bool) (significand : Nat) (before : Int) : Reader Binary64 := fun text =>
  match text with
  | 'e' :: rest => readPower negative significand before rest
  | 'E' :: rest => readPower negative significand before rest
  | rest => finish negative (assemble significand before) rest

def readFraction (negative : Bool) (significand : Nat) (before : Int) : Reader Binary64 :=
  fun text =>
  let (value, count, rest) := fittingDigits text significand 0
  if startsWithDigit rest then
    readTail negative value (before - count) (rest.dropWhile Char.isDigit)
  else if count = 0 then
    match rest with
    | [] => failOn .endInValue []
    | _ => failOn .badNumber rest
  else readTail negative value (before - count) rest

/-- A number that has outgrown 64 bits: more digits only count. -/
def readLong (negative : Bool) (significand : Nat) : Reader Binary64 := fun text =>
  let rest := text.dropWhile Char.isDigit
  let extra : Int := (text.takeWhile Char.isDigit).length
  match rest with
  | '.' :: more => readFraction negative significand extra more
  | _ => readTail negative significand extra rest

/-- A number whose whole part was read and fits. -/
def readAfterWhole (negative : Bool) (whole : Nat) : Reader Numeral := fun text =>
  let float (r : Except Failure (Binary64 × List Char)) : Except Failure (Numeral × List Char) :=
    r.map fun (value, rest) => (.float value, rest)
  match text with
  | '.' :: rest => float (readFraction negative whole 0 rest)
  | 'e' :: rest => float (readPower negative whole 0 rest)
  | 'E' :: rest => float (readPower negative whole 0 rest)
  | rest =>
    if !negative then .ok (.unsigned whole, rest)
    else if 0 < whole ∧ 2 * whole ≤ UInt64.size then .ok (.signed (-(whole : Int)), rest)
    else .ok (.float (Binary64.ofNat whole).negate, rest)

/-- The number whose minus sign, if it has one, was already read. -/
def readNumber (negative : Bool) : Reader Numeral
  | [] => failAt .endInValue []
  | '0' :: rest =>
    if startsWithDigit rest then failOn .badNumber rest else readAfterWhole negative 0 rest
  | c :: rest =>
    if !c.isDigit then failOn .badNumber (c :: rest)
    else
      let (whole, _, rest) := fittingDigits rest (c.toNat - 0x30) 1
      if startsWithDigit rest then
        (readLong negative whole rest).map fun (value, rest) => (.float value, rest)
      else readAfterWhole negative whole rest

/-- Pass over a power of ten after its `e`. -/
def skipPower : Reader Unit := fun text =>
  let digits := match text with
    | '+' :: rest => rest
    | '-' :: rest => rest
    | rest => rest
  match digits with
  | [] => failAt .badNumber []
  | c :: rest =>
    if c.isDigit then .ok ((), rest.dropWhile Char.isDigit) else failOn .badNumber (c :: rest)

/-- Pass over a power of ten if there is one. -/
def skipTail : Reader Unit
  | 'e' :: rest => skipPower rest
  | 'E' :: rest => skipPower rest
  | rest => .ok ((), rest)

/-- Pass over what follows the whole part of a number. -/
def skipAfterWhole : Reader Unit
  | '.' :: rest =>
    if startsWithDigit rest then skipTail (rest.dropWhile Char.isDigit) else failOn .badNumber rest
  | rest => skipTail rest

/-- Pass over a number whose minus sign, if it has one, was already read. -/
def skipNumber : Reader Unit
  | [] => failAt .badNumber []
  | '0' :: rest => if startsWithDigit rest then failOn .badNumber rest else skipAfterWhole rest
  | c :: rest =>
    if c.isDigit then skipAfterWhole (rest.dropWhile Char.isDigit)
    else failOn .badNumber (c :: rest)

end DirLock.Json
