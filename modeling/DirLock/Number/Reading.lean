import DirLock.Number.Binary64

/-!
# Numbers from text

Decimal notation with an optional sign, fraction and power of ten, and the words for infinity and
not-a-number in any case.
-/

namespace DirLock.Number

/-- A run of decimal digits, its value and how many there are, and the rest. -/
def digitRun : List Char → Nat → Nat → Nat × Nat × List Char
  | [], value, count => (value, count, [])
  | c :: rest, value, count =>
    if c.isDigit then digitRun rest (value * 10 + (c.toNat - 0x30)) (count + 1)
    else (value, count, c :: rest)

/-- The power of ten at the end of a number; nothing may follow it. -/
def power? : List Char → Option Int
  | [] => some 0
  | e :: rest =>
    if e = 'e' ∨ e = 'E' then
      let (negative, digits) := match rest with
        | '-' :: more => (true, more)
        | '+' :: more => (false, more)
        | more => (false, more)
      match digitRun digits 0 0 with
      | (value, count, []) =>
        if count = 0 then none else some (if negative then -(value : Int) else value)
      | _ => none
    else none

/-- Digits, a fraction and a power of ten. -/
def unsigned? (negative : Bool) (text : List Char) : Option Binary64 :=
  let (whole, wholeCount, rest) := digitRun text 0 0
  let (digits, fractionCount, rest) := match rest with
    | '.' :: more => digitRun more whole 0
    | _ => (whole, 0, rest)
  if wholeCount + fractionCount = 0 then none
  else (power? rest).map fun power => Binary64.ofDecimal negative digits (power - fractionCount)

/-- The number that the text stands for. -/
def binary64? (text : List Char) : Option Binary64 :=
  let (negative, body) := match text with
    | '-' :: rest => (true, rest)
    | '+' :: rest => (false, rest)
    | rest => (false, rest)
  let word := String.ofList (body.map Char.toLower)
  if word = "inf" ∨ word = "infinity" then some (.infinite negative)
  else if word = "nan" then some (.nan negative)
  else unsigned? negative body

end DirLock.Number
