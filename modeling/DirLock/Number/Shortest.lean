import DirLock.Number.Binary64

/-!
# The fewest digits that read back

Each finite number is written with as few decimal digits as lead back to it, and of those nearest to
it. The reals that round to a number form an interval, which has its ends iff the mantissa is even.
For one digit, two digits and so on, the two neighbours of the number on that decimal grid are
tried.
-/

namespace DirLock.Number

/-- Decimal digits without zeros at either end, the point standing before `point` of them:
`0.digits * 10 ^ point`. -/
structure Digits where
  digits : List Char
  point : Int
  deriving DecidableEq, Repr

namespace Digits

/-- The interval of reals that round to a number, its middle and its ends over one denominator. -/
structure Interval where
  low : Nat
  middle : Nat
  high : Nat
  den : Nat
  closed : Bool

/-- The reals that round to `mantissa * 2 ^ exponent`. -/
def interval (mantissa : Nat) (exponent : Int) : Interval :=
  let below := if mantissa = Binary64.hiddenBit ∧ exponent > Binary64.leastExponent then 1 else 2
  let up := if exponent ≥ 2 then Nat.pow 2 (exponent - 2).toNat else 1
  let den := if exponent ≥ 2 then 1 else Nat.pow 2 (2 - exponent).toNat
  ⟨(4 * mantissa - below) * up, 4 * mantissa * up, (4 * mantissa + 2) * up, den, mantissa % 2 == 0⟩

/-- Whether `value * 10 ^ power` rounds to the number. -/
def Interval.holds (range : Interval) (value : Nat) (power : Int) : Bool :=
  let left := if power ≥ 0 then value * Nat.pow 10 power.toNat * range.den else value * range.den
  let unit := if power ≥ 0 then 1 else Nat.pow 10 (-power).toNat
  if range.closed then range.low * unit ≤ left && left ≤ range.high * unit
  else range.low * unit < left && left < range.high * unit

/-- The number on the grid of `10 ^ power` just below the middle, and whether the one above is
nearer: less than half way is not, a tie goes to the even one. -/
def Interval.grid (range : Interval) (power : Int) : Nat × Bool :=
  let num := if power ≥ 0 then range.middle else range.middle * Nat.pow 10 (-power).toNat
  let den := if power ≥ 0 then range.den * Nat.pow 10 power.toNat else range.den
  let floor := num / den
  let rest := 2 * (num % den)
  (floor, rest > den || (rest == den && floor % 2 == 1))

/-- The least `point` with the middle below `10 ^ point`, searched upwards. -/
def Interval.pointFrom (range : Interval) : Nat → Int → Int
  | 0, point => point
  | fuel + 1, point =>
    let left := if point ≥ 0 then range.middle else range.middle * Nat.pow 10 (-point).toNat
    let right := if point ≥ 0 then range.den * Nat.pow 10 point.toNat else range.den
    if left < right then point else range.pointFrom fuel (point + 1)

/-- Try grids of one digit, two digits and so on. -/
def Interval.search (range : Interval) (point : Int) : Nat → Nat → Nat × Int
  | 0, count => ((range.grid (point - count)).1, point - count)
  | more + 1, count =>
    let power := point - count
    let (floor, up) := range.grid power
    let first := if up then floor + 1 else floor
    let second := if up then floor else floor + 1
    if range.holds first power then (first, power)
    else if range.holds second power then (second, power)
    else range.search point more (count + 1)

def dropZeros (digits : List Char) : List Char :=
  (digits.reverse.dropWhile (· = '0')).reverse

def shortest (mantissa : Nat) (exponent : Int) : Digits :=
  let range := interval mantissa exponent
  let guess : Int := ((mantissa.log2 : Int) + exponent) * 30103 / 100000 - 1
  let point := range.pointFrom 6 guess
  let (value, power) := range.search point 17 1
  let text := Nat.toDigits 10 value
  ⟨dropZeros text, power + text.length⟩

/-- The digits in positional notation, with at least one digit before the point; a fraction only if
there is one or `withPoint` asks for `.0`. -/
def positional (d : Digits) (withPoint : Bool) : List Char :=
  let count : Int := d.digits.length
  if d.point ≤ 0 then
    '0' :: '.' :: List.replicate (-d.point).toNat '0' ++ d.digits
  else if count ≤ d.point then
    d.digits ++ List.replicate (d.point - count).toNat '0' ++ (if withPoint then ['.', '0'] else [])
  else d.digits.take d.point.toNat ++ '.' :: d.digits.drop d.point.toNat

/-- The digits with one of them before the point and the power of ten after an `e`, its sign always
written. -/
def scientific (d : Digits) : List Char :=
  let power := d.point - 1
  let fraction := match d.digits with
    | first :: [] => [first]
    | first :: rest => first :: '.' :: rest
    | [] => ['0']
  fraction ++ 'e' :: (if power < 0 then '-' else '+') :: Nat.toDigits 10 power.natAbs

end Digits

namespace Binary64

def plain (x : Binary64) (withPoint : Bool) : String :=
  match x with
  | .nan _ => "NaN"
  | .infinite negative => if negative then "-inf" else "inf"
  | .finite negative mantissa exponent =>
    let body :=
      if mantissa = 0 then (if withPoint then ['0', '.', '0'] else ['0'])
      else (Digits.shortest mantissa exponent).positional withPoint
    String.ofList (if negative then '-' :: body else body)

/-- The number in positional notation from 1e-5 up to 1e16, and with a power of ten outside. -/
def compact (x : Binary64) : String :=
  match x with
  | .finite negative mantissa exponent =>
    if mantissa = 0 then x.plain true
    else
      let d := Digits.shortest mantissa exponent
      if -5 ≤ d.point - 1 ∧ d.point - 1 ≤ 15 then x.plain true
      else
        String.ofList (if negative then '-' :: d.scientific else d.scientific)
  | _ => x.plain true

end Binary64

end DirLock.Number
