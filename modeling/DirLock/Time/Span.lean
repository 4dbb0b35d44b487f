import DirLock.Number.Binary64

/-!
# Spans of time

A span is never negative and is counted in nanoseconds below the second. Its text uses the largest
unit of seconds, milliseconds, microseconds and nanoseconds of which it has at least one.
-/

namespace DirLock.Time

/-- A span of time that is not negative: whole seconds, and nanoseconds below one second. -/
structure Span where
  seconds : UInt64
  nanos : Nat
  deriving DecidableEq, Repr

namespace Span

def toNanos (span : Span) : Nat := span.seconds.toNat * 1000000000 + span.nanos

/-- The span in whole milliseconds, rounded down. -/
def toMillis (span : Span) : Nat := span.seconds.toNat * 1000 + span.nanos / 1000000

def ofMillis (millis : UInt64) : Span := ⟨millis / 1000, (millis % 1000).toNat * 1000000⟩

/-- The span of so many nanoseconds, if its seconds fit. -/
def ofNanos? (nanos : Nat) : Option Span :=
  if nanos / 1000000000 < UInt64.size then
    some ⟨UInt64.ofNat (nanos / 1000000000), nanos % 1000000000⟩
  else none

/-- The span of a number of seconds, rounded to the nearest nanosecond, a tie to the even one. A
number below zero, one without a value and one too large have no span. -/
def ofSeconds? : Number.Binary64 → Option Span
  | .finite negative mantissa exponent =>
    if negative && mantissa != 0 then none
    else
      let (num, den) := Number.Binary64.quotient mantissa exponent
      ofNanos? (Number.roundDiv (num * 1000000000) den)
  | _ => none

/-- A fraction below one as a point and so many digits, without the zeros at its end. -/
def fractionText (places value : Nat) : List Char :=
  let digits := (Nat.toDigits 10 (Nat.pow 10 places + value)).drop 1
  match (digits.reverse.dropWhile (· = '0')).reverse with
  | [] => []
  | kept => '.' :: kept

def text (span : Span) : String :=
  if span.seconds.toNat > 0 then
    String.ofList (Nat.toDigits 10 span.seconds.toNat ++ fractionText 9 span.nanos) ++ "s"
  else if span.nanos ≥ 1000000 then
    String.ofList (Nat.toDigits 10 (span.nanos / 1000000)
      ++ fractionText 6 (span.nanos % 1000000)) ++ "ms"
  else if span.nanos ≥ 1000 then
    String.ofList (Nat.toDigits 10 (span.nanos / 1000)
      ++ fractionText 3 (span.nanos % 1000)) ++ "µs"
  else s!"{span.nanos}ns"

end Span

end DirLock.Time
