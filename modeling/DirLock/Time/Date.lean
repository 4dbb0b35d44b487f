/-!
# Calendar dates

The Gregorian calendar, extended without end in both directions, and the number of the day counted
from 1 January 1970. Years are counted from March inside the reckoning, so that the leap day comes
last.
-/

namespace DirLock.Time

/-- A day of the calendar. Year 0 is the year before year 1. -/
structure Date where
  year : Int
  month : Nat
  day : Nat
  deriving DecidableEq, Repr

def isLeapYear (year : Int) : Bool :=
  year % 4 == 0 && (year % 100 != 0 || year % 400 == 0)

def daysInMonth (year : Int) (month : Nat) : Nat :=
  match month with
  | 2 => if isLeapYear year then 29 else 28
  | 4 | 6 | 9 | 11 => 30
  | _ => 31

namespace Date

def firstYear : Int := -262143

def lastYear : Int := 262142

/-- Whether the calendar has this date and the year is one that is kept. -/
def isValid (date : Date) : Bool :=
  firstYear ≤ date.year && date.year ≤ lastYear && 1 ≤ date.month && date.month ≤ 12 &&
    1 ≤ date.day && date.day ≤ daysInMonth date.year date.month

/-- The number of the day, 1 January 1970 being day 0. -/
def toDays (date : Date) : Int :=
  let year := if date.month ≤ 2 then date.year - 1 else date.year
  let era := year / 400
  let yearOfEra := year % 400
  let shifted : Int := if date.month > 2 then date.month - 3 else date.month + 9
  let dayOfYear := (153 * shifted + 2) / 5 + date.day - 1
  let dayOfEra := yearOfEra * 365 + yearOfEra / 4 - yearOfEra / 100 + dayOfYear
  era * 146097 + dayOfEra - 719468

def ofDays (days : Int) : Date :=
  let shifted := days + 719468
  let era := shifted / 146097
  let dayOfEra := shifted % 146097
  let yearOfEra := (dayOfEra - dayOfEra / 1460 + dayOfEra / 36524 - dayOfEra / 146096) / 365
  let dayOfYear := dayOfEra - (365 * yearOfEra + yearOfEra / 4 - yearOfEra / 100)
  let monthIndex := (5 * dayOfYear + 2) / 153
  let day := dayOfYear - (153 * monthIndex + 2) / 5 + 1
  let month := if monthIndex < 10 then monthIndex + 3 else monthIndex - 9
  let year := yearOfEra + era * 400
  ⟨if month ≤ 2 then year + 1 else year, month.toNat, day.toNat⟩

end Date

example : (Date.mk 1970 1 1).toDays = 0 ∧ Date.ofDays 0 = ⟨1970, 1, 1⟩ := by decide
example : Date.ofDays (Date.toDays ⟨2024, 2, 29⟩) = ⟨2024, 2, 29⟩ := by decide
example : Date.ofDays (Date.toDays ⟨-1, 12, 31⟩) = ⟨-1, 12, 31⟩ := by decide

end DirLock.Time
