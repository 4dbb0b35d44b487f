import DirLock.Holder.Basic
import DirLock.Proofs.Number.Decimal
import Mathlib.Tactic.SplitIfs

/-!
# What the text of an age says

The text of an age is made of one or two counts, each with the letter of its unit, and denotes a number of
seconds. That number is the age rounded down to the smaller of the units shown, and the larger of them is the
largest of which the age has a whole one. So no text says more than the age, and an older claim never looks
younger.
-/

namespace DirLock

/-- The whole seconds of an age, none if it is below zero. Division drops the fraction, whatever the sign. -/
def wholeSeconds (nanos : Int) : Nat := (nanos.tdiv Time.nanosPerSecond).toNat

theorem wholeSeconds_eq (nanos : Int) : wholeSeconds nanos = nanos.toNat / Time.nanosPerSecond := by
  cases nanos with
  | ofNat n => rfl
  | negSucc n =>
    rw [Int.toNat_negSucc, Nat.zero_div]
    exact Int.toNat_of_nonpos (Int.neg_nonpos_of_nonneg (Int.natCast_nonneg _))

theorem wholeSeconds_mono {nanos later : Int} (h : nanos ≤ later) : wholeSeconds nanos ≤ wholeSeconds later := by
  rw [wholeSeconds_eq, wholeSeconds_eq]
  exact Nat.div_le_div_right (Int.toNat_le_toNat h)

/-- The forms that the text of an age has. -/
inductive Age where
  | days (days hours : Nat)
  | hours (hours minutes : Nat)
  | minutes (minutes : Nat)
  | seconds (seconds : Nat)
  deriving DecidableEq, Repr

namespace Age

def text : Age → String
  | .days n m => s!"{n}d {m}h"
  | .hours n m => s!"{n}h {m}m"
  | .minutes n => s!"{n}m"
  | .seconds n => s!"{n}s"

/-- The seconds that the counts make up. -/
def total : Age → Nat
  | .days n m => n * 86400 + m * 3600
  | .hours n m => n * 3600 + m * 60
  | .minutes n => n * 60
  | .seconds n => n

def largerUnit : Age → Nat
  | .days _ _ => 86400
  | .hours _ _ => 3600
  | .minutes _ => 60
  | .seconds _ => 1

def smallerUnit : Age → Nat
  | .days _ _ => 3600
  | .hours _ _ => 60
  | .minutes _ => 60
  | .seconds _ => 1

/-- Whether there is at least one of a unit above the second, and not so many of the smaller unit that they make up
one of the larger. -/
def Proper : Age → Prop
  | .days n m => 1 ≤ n ∧ m < 24
  | .hours n m => 1 ≤ n ∧ m < 60
  | .minutes n => 1 ≤ n ∧ n < 60
  | .seconds n => n < 60

/-! ## Reading the text -/

/-- The seconds in the unit with this letter. -/
def unit? : Char → Option Nat
  | 'd' => some 86400
  | 'h' => some 3600
  | 'm' => some 60
  | 's' => some 1
  | _ => none

/-- The seconds that a text denotes, on top of `total`: counts, each with the letter of its unit. Of the next count
the digits in `count` were read, if any. -/
def denoted? (total : Nat) (count : Option Nat) : List Char → Option Nat
  | [] => if count.isNone then some total else none
  | c :: rest =>
    if c.isDigit then denoted? total (some (10 * count.getD 0 + (c.toNat - '0'.toNat))) rest
    else if c = ' ' ∧ count.isNone then denoted? total none rest
    else do denoted? (total + (← count) * (← unit? c)) none rest

variable {total value unit : Nat} {c : Char} {digits rest : List Char}

theorem denoted?_digits (h : ∀ c ∈ digits, c.isDigit = true) :
    denoted? total (some value) (digits ++ rest) =
      denoted? total (some (Nat.ofDigitChars 10 digits value)) rest := by
  induction digits generalizing value with
  | nil => rfl
  | cons c digits ih =>
    rw [List.cons_append, denoted?, if_pos (h c List.mem_cons_self), Nat.ofDigitChars_cons]
    exact ih fun d hd => h d (List.mem_cons_of_mem _ hd)

theorem denoted?_count (n : Nat) (hdigit : c.isDigit = false) (hunit : unit? c = some unit) :
    denoted? total none (Nat.toDigits 10 n ++ c :: rest) = denoted? (total + n * unit) none rest := by
  have hdigits (d : Char) (hd : d ∈ Nat.toDigits 10 n) : d.isDigit = true := Number.isDigit_toDigits hd
  have hvalue : Nat.ofDigitChars 10 (Nat.toDigits 10 n) 0 = n := Nat.ofDigitChars_ten_toDigits
  obtain ⟨first, more, hcons⟩ := List.exists_cons_of_ne_nil (@Nat.toDigits_ne_nil n 10)
  rw [hcons] at hdigits hvalue ⊢
  rw [Nat.ofDigitChars_cons] at hvalue
  rw [List.cons_append, denoted?, if_pos (hdigits first List.mem_cons_self), Option.getD_none,
    denoted?_digits fun d hd => hdigits d (List.mem_cons_of_mem _ hd), hvalue, denoted?, hdigit]
  simp [hunit]

theorem denoted?_blank : denoted? total none (' ' :: rest) = denoted? total none rest := rfl

theorem denoted?_text (age : Age) : denoted? 0 none age.text.toList = some age.total := by
  have hword (word : String) : toString word = word := rfl
  cases age with
  | days n m =>
    have htext : (text (.days n m)).toList = Nat.toDigits 10 n ++ 'd' :: ' ' :: (Nat.toDigits 10 m ++ ['h']) := by
      simp [text, hword]
    rw [htext, denoted?_count n rfl rfl, denoted?_blank, denoted?_count m rfl rfl]
    simp [denoted?, total]
  | hours n m =>
    have htext : (text (.hours n m)).toList = Nat.toDigits 10 n ++ 'h' :: ' ' :: (Nat.toDigits 10 m ++ ['m']) := by
      simp [text, hword]
    rw [htext, denoted?_count n rfl rfl, denoted?_blank, denoted?_count m rfl rfl]
    simp [denoted?, total]
  | minutes n =>
    have htext : (text (.minutes n)).toList = Nat.toDigits 10 n ++ ['m'] := by simp [text, hword]
    rw [htext, denoted?_count n rfl rfl]
    simp [denoted?, total]
  | seconds n =>
    have htext : (text (.seconds n)).toList = Nat.toDigits 10 n ++ ['s'] := by simp [text, hword]
    rw [htext, denoted?_count n rfl rfl]
    simp [denoted?, total]

/-! ## The form of an age -/

def ofSeconds (seconds : Nat) : Age :=
  if 86400 ≤ seconds then .days (seconds / 86400) (seconds / 3600 % 24)
  else if 3600 ≤ seconds then .hours (seconds / 3600) (seconds / 60 % 60)
  else if 60 ≤ seconds then .minutes (seconds / 60)
  else .seconds seconds

/-- The form tells so many seconds: rounded down to its smaller unit, its larger unit being the largest, day, hour,
minute or second, of which there is a whole one. -/
structure Tells (age : Age) (seconds : Nat) : Prop where
  total_le : age.total ≤ seconds
  lt_total : seconds < age.total + age.smallerUnit
  proper : age.Proper
  largest : ∀ unit ∈ [86400, 3600, 60, 1], unit ≤ seconds → unit ≤ age.largerUnit
  whole : age.largerUnit ≤ seconds ∨ age.largerUnit = 1

variable {nanos : Int} {seconds later : Nat}

theorem tells_ofSeconds (seconds : Nat) : (ofSeconds seconds).Tells seconds := by
  unfold ofSeconds
  split_ifs with hday hhour hminute
  all_goals
    constructor
    case largest =>
      intro unit hunit hle
      simp only [List.mem_cons, List.not_mem_nil, or_false] at hunit
      simp only [largerUnit]
      omega
    all_goals
      dsimp only [total, smallerUnit, largerUnit, Proper]
      omega

theorem total_ofSeconds_mono (h : seconds ≤ later) : (ofSeconds seconds).total ≤ (ofSeconds later).total := by
  unfold ofSeconds
  split_ifs with hday hhour hminute
  all_goals
    simp only [total]
    omega

theorem ageText_eq (nanos : Int) : ageText nanos = (ofSeconds (wholeSeconds nanos)).text := by
  rw [wholeSeconds_eq, ageText]
  generalize nanos.toNat / Time.nanosPerSecond = seconds
  have hdays : seconds / 86400 > 0 ↔ 86400 ≤ seconds := by omega
  have hhours : seconds / 3600 > 0 ↔ 3600 ≤ seconds := by omega
  have hminutes : seconds / 60 > 0 ↔ 60 ≤ seconds := by omega
  simp only [Nat.div_div_eq_div_mul, Nat.reduceMul, hdays, hhours, hminutes, ofSeconds]
  split_ifs
  all_goals rfl

theorem denoted?_ageText (nanos : Int) :
    denoted? 0 none (ageText nanos).toList = some (ofSeconds (wholeSeconds nanos)).total := by
  rw [ageText_eq, denoted?_text]

/-- The text of an age, however far below or above zero, denotes the age in whole seconds, rounded down to the smaller
of the two units shown, and the age of something older denotes no less. -/
theorem ageText_rounds_down (nanos : Int) : ∃ age : Age, ageText nanos = age.text ∧ age.Tells (wholeSeconds nanos) ∧
    denoted? 0 none (ageText nanos).toList = some age.total ∧
      ∀ later, nanos ≤ later → ∃ total, denoted? 0 none (ageText later).toList = some total ∧ age.total ≤ total := by
  refine ⟨_, ageText_eq nanos, tells_ofSeconds _, denoted?_ageText nanos, fun later hle => ?_⟩
  exact ⟨_, denoted?_ageText later, total_ofSeconds_mono (wholeSeconds_mono hle)⟩

/-- One nanosecond short of a day the text shows hours and minutes, and it denotes less than after a day. -/
theorem ageText_rounds_down_at_day : ageText 86399999999999 = "23h 59m" ∧
    denoted? 0 none (ageText 86399999999999).toList = some 86340 ∧
      ∃ total, denoted? 0 none (ageText 86400000000000).toList = some total ∧ 86340 ≤ total := by
  have htext : ageText 86399999999999 = "23h 59m" := by decide
  obtain ⟨age, hage, -, hdenoted, hmono⟩ := ageText_rounds_down 86399999999999
  have htotal : denoted? 0 none (ageText 86399999999999).toList = some 86340 := by
    rw [htext]
    rfl
  obtain ⟨total, hlater, hle⟩ := hmono 86400000000000 (by decide)
  rw [hdenoted] at htotal
  exact ⟨htext, hdenoted.trans htotal, total, hlater, Option.some.inj htotal ▸ hle⟩

end Age

end DirLock
