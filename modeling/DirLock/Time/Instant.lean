import DirLock.Time.Date

/-!
# Instants

A point in universal time, to the nanosecond. A leap second is the second before it with a
nanosecond part of a whole second or more.
-/

namespace DirLock.Time

def nanosPerSecond : Nat := 1000000000

def secondsPerDay : Nat := 86400

/-- A point in time: seconds from the start of 1970, and nanoseconds into the second. -/
structure Instant where
  second : Int
  nano : Nat
  deriving DecidableEq, Repr, Inhabited

namespace Instant

def date (t : Instant) : Date := Date.ofDays (t.second / secondsPerDay)

def secondOfDay (t : Instant) : Nat := (t.second % secondsPerDay).toNat

/-- Whether the instant lies inside a leap second. -/
def isLeap (t : Instant) : Bool := nanosPerSecond ≤ t.nano

def firstSecond : Int := (Date.mk Date.firstYear 1 1).toDays * secondsPerDay

def lastSecond : Int := (Date.mk Date.lastYear 12 31).toDays * secondsPerDay + 86399

/-- Whether the second lies between the first and the last that are kept. -/
def inRange (second : Int) : Bool := firstSecond ≤ second && second ≤ lastSecond

/-- The instant so many nanoseconds after the start of 1970. -/
def ofNanos (nanos : Int) : Instant :=
  ⟨nanos / nanosPerSecond, (nanos % nanosPerSecond).toNat⟩

/-- The instant this many nanoseconds later. Neither end lies in a leap second. -/
def addNanos (t : Instant) (nanos : Int) : Instant :=
  ofNanos (t.second * nanosPerSecond + t.nano + nanos)

/-- Nanoseconds from `earlier` to `later`. A leap second counts when the earlier of the two times of
day lies in it. -/
def nanosBetween (earlier later : Instant) : Int :=
  let adjust : Int :=
    if later.secondOfDay > earlier.secondOfDay && earlier.isLeap then 1
    else if later.secondOfDay < earlier.secondOfDay && later.isLeap then -1
    else 0
  (later.second - earlier.second + adjust) * nanosPerSecond + later.nano - earlier.nano

end Instant

end DirLock.Time
