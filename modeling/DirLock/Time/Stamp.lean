import DirLock.Text.Blank
import DirLock.Time.Instant

/-!
# Timestamps

The text form of an instant, `2024-05-01T12:30:00.25Z`. Writing always uses universal time and as
few of 0, 3, 6 or 9 fraction digits as are exact. Reading is more tolerant: fields may have one
digit or two, blanks may stand before a field, a space may stand for the `T`, and any offset is
accepted.
-/

namespace DirLock.Time

inductive StampError where
  /-- The text ends too early. -/
  | tooShort
  /-- A character stands where it cannot. -/
  | invalid
  /-- A field has a value it cannot have. -/
  | outOfRange
  /-- No instant that is kept has this local time. -/
  | impossible
  /-- Something follows the timestamp. -/
  | tooLong
  deriving DecidableEq, Repr

def StampError.message : StampError → String
  | .tooShort => "premature end of input"
  | .invalid => "input contains invalid characters"
  | .outOfRange => "input is out of range"
  | .impossible => "no possible date and time matching input"
  | .tooLong => "trailing input"

namespace Stamp

/-! ## Writing -/

/-- A number in at least so many decimal digits, zeros put in front. -/
def padded (width value : Nat) : List Char :=
  let digits := Nat.toDigits 10 value
  List.replicate (width - digits.length) '0' ++ digits

/-- The year: four digits, or a sign and at least four digits outside 0 to 9999. -/
def year (value : Int) : List Char :=
  if 0 ≤ value ∧ value ≤ 9999 then padded 4 value.toNat
  else (if value < 0 then '-' else '+') :: padded 4 value.natAbs

/-- The fraction of a second in the fewest groups of three digits. -/
def fraction (nano : Nat) : List Char :=
  if nano = 0 then []
  else if nano % 1000000 = 0 then '.' :: padded 3 (nano / 1000000)
  else if nano % 1000 = 0 then '.' :: padded 6 (nano / 1000)
  else '.' :: padded 9 nano

/-- The timestamp of an instant with a fraction of its nanoseconds. -/
def renderWith (fraction : Nat → List Char) (t : Instant) : List Char :=
  let date := t.date
  let second := t.secondOfDay
  let leap := if t.isLeap then 1 else 0
  year date.year ++ '-' :: padded 2 date.month ++ '-' :: padded 2 date.day ++
    'T' :: padded 2 (second / 3600) ++ ':' :: padded 2 (second / 60 % 60) ++
    ':' :: padded 2 (second % 60 + leap) ++ fraction (t.nano - leap * nanosPerSecond) ++ ['Z']

def render (t : Instant) : List Char := renderWith fraction t

/-- The timestamp of an instant with six digits of its fraction, as log lines have it. -/
def renderMicros (t : Instant) : List Char :=
  renderWith (fun nano => '.' :: padded 6 (nano / 1000)) t

/-! ## Reading -/

/-- A reader takes a part of the text and gives the rest. -/
abbrev Reader (α : Type) := List Char → Except StampError (α × List Char)

/-- The largest value that a run of digits may have. -/
def digitLimit : Nat := 9223372036854775807

/-- Add up to `most` digits to a value. -/
def moreDigits : Nat → Nat → List Char → Except StampError (Nat × List Char)
  | 0, value, text => .ok (value, text)
  | _ + 1, value, [] => .ok (value, [])
  | most + 1, value, c :: rest =>
    if c.isDigit then
      let next := value * 10 + (c.toNat - 0x30)
      if next > digitLimit then .error .outOfRange else moreDigits most next rest
    else .ok (value, c :: rest)

/-- At least one digit and at most `most`. -/
def digits (most : Nat) : Reader Nat
  | [] => .error .tooShort
  | c :: rest => if c.isDigit then moreDigits most 0 (c :: rest) else .error .invalid

/-- A field of one or two digits after optional blanks, within bounds. -/
def field (low high : Nat) : Reader Nat := fun text => do
  let (value, rest) ← digits 2 (Text.skipBlanks text)
  if low ≤ value ∧ value ≤ high then pure (value, rest) else throw .outOfRange

/-- Whether the year fits the 32 bits that hold years. -/
def yearFits (value : Int) : Bool := -2147483648 ≤ value && value < 2147483648

/-- The year: a sign and any number of digits, or up to four digits. -/
def readYear : Reader Int := fun text => do
  let (value, rest) ← match Text.skipBlanks text with
    | '-' :: more => do
      let (value, rest) ← digits more.length more
      pure (-(value : Int), rest)
    | '+' :: more => do
      let (value, rest) ← digits more.length more
      pure ((value : Int), rest)
    | more => do
      let (value, rest) ← digits 4 more
      pure ((value : Int), rest)
  if yearFits value then pure (value, rest) else throw .outOfRange

def separator (c : Char) (text : List Char) : Except StampError (List Char) :=
  match Text.skipBlanks text with
  | [] => .error .tooShort
  | d :: rest => if d = c then .ok rest else .error .invalid

/-- The fraction of a second in nanoseconds; digits after the ninth do not count. -/
def readFraction : Reader Nat
  | '.' :: text => do
    let (value, rest) ← digits 9 text
    let used := text.length - rest.length
    pure (value * Nat.pow 10 (9 - used), rest.dropWhile Char.isDigit)
  | text => .ok (0, text)

/-- The value of two digits at the start of the text. A character of several bytes is no digit. -/
def twoDigits : List Char → Except StampError (Nat × Nat × List Char)
  | [] => .error .tooShort
  | [c] => if c.utf8Size < 2 then .error .tooShort else .error .invalid
  | c :: d :: rest =>
    if c.isDigit && d.isDigit then .ok (c.toNat - 0x30, d.toNat - 0x30, rest) else .error .invalid

/-- The offset from universal time in seconds: `Z`, `UTC`, or a sign, hours and minutes. -/
def readOffset : Reader Int := fun text =>
  match text with
  | c :: rest =>
    if (text.take 3).map Char.toUpper = ['U', 'T', 'C'] then .ok (0, text.drop 3)
    else if c = 'Z' ∨ c = 'z' then .ok (0, rest)
    else if c = '+' ∨ c = '-' ∨ c = '\u2212' then do
      let (h1, h2, rest) ← twoDigits rest
      let (m1, m2, rest) ← twoDigits (rest.dropWhile fun d => d = ':' || Text.isBlank d)
      if m1 ≥ 6 then throw .outOfRange
      let seconds : Int := (h1 * 10 + h2) * 3600 + (m1 * 10 + m2) * 60
      pure (if c = '+' then seconds else -seconds, rest)
    else .error .invalid
  | [] => .error .tooShort

def read (text : List Char) : Except StampError Instant := do
  let (year, rest) ← readYear text
  let rest ← separator '-' rest
  let (month, rest) ← field 1 12 rest
  let rest ← separator '-' rest
  let (day, rest) ← field 1 31 rest
  let rest ← match rest with
    | [] => throw .tooShort
    | c :: rest => if c = 'T' ∨ c = 't' ∨ c = ' ' then pure rest else throw .invalid
  let (hour, rest) ← field 0 23 rest
  let rest ← separator ':' rest
  let (minute, rest) ← field 0 59 rest
  let rest ← separator ':' rest
  let (second, rest) ← field 0 60 rest
  let (nano, rest) ← readFraction rest
  let (offset, rest) ← readOffset (Text.skipBlanks rest)
  if !(Text.skipBlanks rest).isEmpty then throw .tooLong
  let date : Date := ⟨year, month, day⟩
  if !date.isValid then throw .outOfRange
  if offset.natAbs ≥ secondsPerDay then throw .outOfRange
  let leap : Nat := if second = 60 then 1 else 0
  let local_ : Int :=
    date.toDays * secondsPerDay + hour * 3600 + minute * 60 + (second - leap : Nat)
  if !Instant.inRange (local_ - offset) then throw .impossible
  pure ⟨local_ - offset, nano + leap * nanosPerSecond⟩

end Stamp

end DirLock.Time
