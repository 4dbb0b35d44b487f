/-!
# Binary floating point

Numbers with 53 significant bits, computed exactly. A finite number is `mantissa * 2 ^ exponent`
with the mantissa below `2 ^ 53`; it has all 53 bits unless the exponent is the least one. Every
result is the exact one rounded to the nearest such number, a tie going to the even mantissa.
-/

namespace DirLock.Number

/-- A binary floating point number of 64 bits. -/
inductive Binary64 where
  | nan (negative : Bool)
  | infinite (negative : Bool)
  | finite (negative : Bool) (mantissa : Nat) (exponent : Int)
  deriving DecidableEq, Repr

/-- A quotient rounded to the nearest whole number, a tie to the even one. -/
def roundDiv (num den : Nat) : Nat :=
  let quotient := num / den
  let rest := 2 * (num % den)
  if rest > den || (rest == den && quotient % 2 == 1) then quotient + 1 else quotient

namespace Binary64

/-- The leading bit of a mantissa, `2 ^ 52`, which the 64 bits of a number leave out. -/
def hiddenBit : Nat := 4503599627370496

def leastExponent : Int := -1074

def greatestExponent : Int := 971

def zero (negative : Bool) : Binary64 := .finite negative 0 leastExponent

/-- `num / den / 2 ^ exponent`, rounded to a whole number. -/
def scaled (num den : Nat) (exponent : Int) : Nat :=
  if exponent ≥ 0 then roundDiv num (den * Nat.pow 2 exponent.toNat)
  else roundDiv (num * Nat.pow 2 (-exponent).toNat) den

/-- The exponent at which `num / den` has 53 bits or the least exponent, whichever is greater. -/
def fitting (num den : Nat) : Int :=
  let guess : Int := (num.log2 : Int) - den.log2 - 53
  let exponent := if scaledFloor guess ≥ 2 * hiddenBit then guess + 1 else guess
  max exponent leastExponent
where
  /-- `num / den / 2 ^ exponent` rounded down. -/
  scaledFloor (exponent : Int) : Nat :=
    if exponent ≥ 0 then num / (den * Nat.pow 2 exponent.toNat)
    else num * Nat.pow 2 (-exponent).toNat / den

/-- The number nearest to `num / den`. -/
def ofQuotient (negative : Bool) (num den : Nat) : Binary64 :=
  if num = 0 then zero negative
  else
    let exponent := fitting num den
    let mantissa := scaled num den exponent
    let (mantissa, exponent) :=
      if mantissa = 2 * hiddenBit then (hiddenBit, exponent + 1) else (mantissa, exponent)
    if exponent > greatestExponent then .infinite negative
    else .finite negative mantissa exponent

def ofNat (value : Nat) : Binary64 := ofQuotient false value 1

def quotient (mantissa : Nat) (exponent : Int) : Nat × Nat :=
  if exponent ≥ 0 then (mantissa * Nat.pow 2 exponent.toNat, 1)
  else (mantissa, Nat.pow 2 (-exponent).toNat)

/-- The number nearest to `digits * 10 ^ power`. Powers far outside the range of the numbers are
decided by the count of digits alone. -/
def ofDecimal (negative : Bool) (digits : Nat) (power : Int) : Binary64 :=
  if digits = 0 then zero negative
  else
    let length : Int := (Nat.toDigits 10 digits).length
    if length + power > 310 then .infinite negative
    else if length + power < -330 then zero negative
    else if power ≥ 0 then ofQuotient negative (digits * Nat.pow 10 power.toNat) 1
    else ofQuotient negative digits (Nat.pow 10 (-power).toNat)

def mul : Binary64 → Binary64 → Binary64
  | .finite xn xm xe, .finite yn ym ye =>
    let (num, den) := quotient (xm * ym) (xe + ye)
    ofQuotient (xn != yn) num den
  | .nan negative, _ => .nan negative
  | _, .nan negative => .nan negative
  | .infinite xn, .infinite yn => .infinite (xn != yn)
  | .infinite xn, .finite yn ym _ => if ym = 0 then .nan true else .infinite (xn != yn)
  | .finite xn xm _, .infinite yn => if xm = 0 then .nan true else .infinite (xn != yn)

def div : Binary64 → Binary64 → Binary64
  | .finite xn xm xe, .finite yn ym ye =>
    if ym = 0 then (if xm = 0 then .nan true else .infinite (xn != yn))
    else
      let (num, den) := quotient xm (xe - ye)
      ofQuotient (xn != yn) num (den * ym)
  | .nan negative, _ => .nan negative
  | _, .nan negative => .nan negative
  | .infinite _, .infinite _ => .nan true
  | .infinite xn, .finite yn _ _ => .infinite (xn != yn)
  | .finite xn _ _, .infinite yn => zero (xn != yn)

def negate : Binary64 → Binary64
  | .nan negative => .nan !negative
  | .infinite negative => .infinite !negative
  | .finite negative mantissa exponent => .finite (!negative) mantissa exponent

/-- Whether the number is neither infinite nor undefined. -/
def isFinite : Binary64 → Bool
  | .finite _ _ _ => true
  | _ => false

/-- The 64 bits: sign, biased exponent, mantissa without its leading bit. -/
def bits : Binary64 → UInt64
  | .nan negative => (if negative then 0x8000000000000000 else 0) ||| 0x7ff8000000000000
  | .infinite negative => (if negative then 0x8000000000000000 else 0) ||| 0x7ff0000000000000
  | .finite negative mantissa exponent =>
    let sign : UInt64 := if negative then 0x8000000000000000 else 0
    if mantissa < hiddenBit then sign ||| UInt64.ofNat mantissa
    else sign ||| UInt64.ofNat ((exponent + 1075).toNat * hiddenBit + (mantissa - hiddenBit))

end Binary64

end DirLock.Number
