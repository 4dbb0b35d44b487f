import DirLock.Time.Instant

/-!
# Dates and the numbers of days

The number of a day names its date: the date is one of the calendar, and counting its days gives the
number again. Years count from March, so a year of 366 days is one whose last day is a leap day. An era
of 400 years is made of centuries of 36524 days, and these of cycles of 1461 days, each with a longer one
at the end where the calendar has it.
-/

namespace DirLock.Time

namespace Date

/-- The number of the year in its era, by the day of the era. -/
def yearOfEra (dayOfEra : Int) : Int :=
  (dayOfEra - dayOfEra / 1460 + dayOfEra / 36524 - dayOfEra / 146096) / 365

/-- The day that a year begins with, counted from the March of year 0. -/
def yearStart (year : Int) : Int := 365 * year + year / 4 - year / 100 + year / 400

variable {dayOfEra : Int}

theorem exists_cycle (hlow : 0 ≤ dayOfEra) (hhigh : dayOfEra ≤ 146096) : ∃ century cycle year day : Int,
    dayOfEra = 36524 * century + 1461 * cycle + 365 * year + day ∧
      0 ≤ century ∧ century ≤ 3 ∧ 0 ≤ cycle ∧ cycle ≤ 24 ∧ 0 ≤ year ∧ year ≤ 3 ∧ 0 ≤ day ∧ day ≤ 365 ∧
      (day = 365 → year = 3 ∧ (cycle = 24 → century = 3)) := by
  obtain ⟨century, hcentury⟩ : ∃ century, century = min (dayOfEra / 36524) 3 := ⟨_, rfl⟩
  obtain ⟨later, hlater⟩ : ∃ later, later = dayOfEra - 36524 * century := ⟨_, rfl⟩
  obtain ⟨cycle, hcycle⟩ : ∃ cycle, cycle = later / 1461 := ⟨_, rfl⟩
  obtain ⟨last, hlast⟩ : ∃ last, last = later - 1461 * cycle := ⟨_, rfl⟩
  have hlaterBounds : 0 ≤ later ∧ later ≤ 36524 ∧ (later = 36524 → century = 3) := by omega
  have hcycleBounds : 0 ≤ cycle ∧ cycle ≤ 24 := by omega
  have hlastBounds : 0 ≤ last ∧ last ≤ 1460 := by omega
  refine ⟨century, cycle, min (last / 365) 3, last - 365 * min (last / 365) 3, ?_⟩
  omega

theorem yearOfEra_eq {century cycle year day : Int}
    (hday : dayOfEra = 36524 * century + 1461 * cycle + 365 * year + day)
    (hcentury : 0 ≤ century ∧ century ≤ 3) (hcycle : 0 ≤ cycle ∧ cycle ≤ 24) (hyear : 0 ≤ year ∧ year ≤ 3)
    (hbounds : 0 ≤ day ∧ day ≤ 365) (hlong : day = 365 → year = 3 ∧ (cycle = 24 → century = 3)) :
    yearOfEra dayOfEra = 100 * century + 4 * cycle + year := by
  have hpart : 1461 * cycle + 365 * year + day ≤ 36524 ∧
      (1461 * cycle + 365 * year + day = 36524 → century = 3) := by omega
  obtain ⟨part, hpartEq⟩ : ∃ part, part = 1461 * cycle + 365 * year + day := ⟨_, rfl⟩
  have hwhole : dayOfEra / 36524 - dayOfEra / 146096 = century := by
    have hera : dayOfEra = 36524 * century + part := by omega
    rw [← hpartEq] at hpart
    have hpos : 0 ≤ part := by omega
    clear hday hpartEq hlong hbounds hyear hcycle
    by_cases hfull : part = 36524
    · have hlast := hpart.2 hfull
      omega
    · omega
  -- One day is taken off for each cycle that is over, and for one that is about to end.
  obtain ⟨extra, hextra, hextraBounds⟩ : ∃ extra, dayOfEra / 1460 = 25 * century + cycle + extra ∧
      (extra = 0 ∧ day ≤ 364 ∨ extra = 1 ∧ 1 ≤ day) := by
    refine ⟨dayOfEra / 1460 - (25 * century + cycle), by omega, ?_⟩
    omega
  have hdays : dayOfEra - dayOfEra / 1460 + dayOfEra / 36524 - dayOfEra / 146096 =
      365 * (100 * century + 4 * cycle + year) + (day - extra) := by
    omega
  rw [yearOfEra, hdays]
  clear hdays hextra hwhole hpart hday
  omega

/-- The date of a day of a year that is counted from March. -/
def ofMarch (year dayOfYear : Int) : Date :=
  let monthIndex := (5 * dayOfYear + 2) / 153
  let month := if monthIndex < 10 then monthIndex + 3 else monthIndex - 9
  ⟨if month ≤ 2 then year + 1 else year, month.toNat, (dayOfYear - (153 * monthIndex + 2) / 5 + 1).toNat⟩

/-- The year after the last of a cycle is a leap year, but for the one after the last of a century, and
that is one too at the end of an era. -/
theorem isLeapYear_next {era century cycle : Int} (hcycle : 0 ≤ cycle ∧ cycle ≤ 24)
    (hlast : cycle = 24 → century = 3) :
    isLeapYear (100 * century + 4 * cycle + 3 + era * 400 + 1) = true := by
  have hfour : (100 * century + 4 * cycle + 3 + era * 400 + 1) % 4 = 0 := by omega
  simp only [isLeapYear, Bool.and_eq_true, Bool.or_eq_true, beq_iff_eq, bne_iff_ne]
  refine ⟨hfour, ?_⟩
  by_cases hend : cycle = 24
  · have hthird := hlast hend
    subst hend hthird
    right
    omega
  · left
    omega

/-- Where a day lies: its year, and the day of the year. Only a year that ends in a leap day has a
day 365. -/
theorem ofDays_eq (days : Int) : ∃ year dayOfYear : Int,
    days + 719468 = yearStart year + dayOfYear ∧ 0 ≤ dayOfYear ∧ dayOfYear ≤ 365 ∧
      (dayOfYear = 365 → isLeapYear (year + 1) = true) ∧ ofDays days = ofMarch year dayOfYear := by
  obtain ⟨century, cycle, year, day, hday, hcentury, hcentury', hcycle, hcycle', hyear, hyear', hlow, hhigh,
    hlong⟩ := @exists_cycle ((days + 719468) % 146097) (by omega) (by omega)
  have hyearOfEra := yearOfEra_eq hday ⟨hcentury, hcentury'⟩ ⟨hcycle, hcycle'⟩ ⟨hyear, hyear'⟩ ⟨hlow, hhigh⟩ hlong
  obtain ⟨era, hera⟩ : ∃ era, era = (days + 719468) / 146097 := ⟨_, rfl⟩
  have hstart : yearStart (100 * century + 4 * cycle + year + era * 400) =
      era * 146097 + (36524 * century + 1461 * cycle + 365 * year) := by
    rw [yearStart]
    clear hday hyearOfEra hlong hera
    omega
  have hdayOfYear : (days + 719468) % 146097 - (365 * yearOfEra ((days + 719468) % 146097) +
      yearOfEra ((days + 719468) % 146097) / 4 - yearOfEra ((days + 719468) % 146097) / 100) = day := by
    rw [hyearOfEra, hday]
    clear hday hyearOfEra hlong hera hstart
    omega
  refine ⟨100 * century + 4 * cycle + year + era * 400, day, ?_, hlow, hhigh, fun h => ?_, ?_⟩
  · have hsplit := Int.mul_ediv_add_emod (days + 719468) 146097
    rw [hstart]
    omega
  · obtain ⟨rfl, hfull⟩ := hlong h
    exact isLeapYear_next ⟨hcycle, hcycle'⟩ hfull
  · rw [← hdayOfYear, ← hyearOfEra, hera]
    rfl

/-- The months from March on, and the day of the month: 153 days are five months. -/
theorem ofMarch_eq {year dayOfYear : Int} (hlow : 0 ≤ dayOfYear) (hhigh : dayOfYear ≤ 365) :
    ∃ index day : Nat, dayOfYear = (153 * index + 2) / 5 + day ∧ index ≤ 11 ∧
      5 * dayOfYear + 2 < 153 * index + 153 ∧
      (index ≤ 9 ∧ ofMarch year dayOfYear = ⟨year, index + 3, day + 1⟩ ∨
        10 ≤ index ∧ ofMarch year dayOfYear = ⟨year + 1, index - 9, day + 1⟩) := by
  obtain ⟨index, hindex⟩ : ∃ index : Nat, (5 * dayOfYear + 2) / 153 = index :=
    ⟨((5 * dayOfYear + 2) / 153).toNat, by omega⟩
  obtain ⟨day, hday⟩ : ∃ day : Nat, dayOfYear - (153 * index + 2) / 5 = day :=
    ⟨(dayOfYear - (153 * index + 2) / 5).toNat, by omega⟩
  have hnext : ((day : Int) + 1).toNat = day + 1 := by omega
  refine ⟨index, day, by omega, by omega, by omega, ?_⟩
  by_cases hmonth : index ≤ 9
  · have hsum : ((index : Int) + 3).toNat = index + 3 := by omega
    have hbelow : (index : Int) < 10 := by omega
    simp only [ofMarch, hindex, hday, hnext, if_pos hbelow]
    rw [if_neg (by omega), hsum]
    exact .inl ⟨hmonth, rfl⟩
  · have hdiff : ((index : Int) - 9).toNat = index - 9 := by omega
    have habove : ¬(index : Int) < 10 := by omega
    simp only [ofMarch, hindex, hday, hnext, if_neg habove]
    rw [if_pos (by omega), hdiff]
    exact .inr ⟨by omega, rfl⟩

def Exists (date : Date) : Prop :=
  1 ≤ date.month ∧ date.month ≤ 12 ∧ 1 ≤ date.day ∧ date.day ≤ daysInMonth date.year date.month

theorem daysInMonth_le (year : Int) (month : Nat) : daysInMonth year month ≤ 31 := by
  simp only [daysInMonth]
  repeat' split
  all_goals decide

theorem isValid_iff {date : Date} :
    date.isValid = true ↔ firstYear ≤ date.year ∧ date.year ≤ lastYear ∧ date.Exists := by
  simp only [isValid, Bool.and_eq_true, decide_eq_true_eq, Exists, and_assoc]

theorem exists_ofMarch {year dayOfYear : Int} (hlow : 0 ≤ dayOfYear) (hhigh : dayOfYear ≤ 365)
    (hlong : dayOfYear = 365 → isLeapYear (year + 1) = true) : (ofMarch year dayOfYear).Exists := by
  obtain ⟨index, day, hday, hlast, hbound, ⟨hmonth, heq⟩ | ⟨hmonth, heq⟩⟩ := @ofMarch_eq year dayOfYear hlow hhigh
  · have hcases : index = 0 ∨ index = 1 ∨ index = 2 ∨ index = 3 ∨ index = 4 ∨ index = 5 ∨ index = 6 ∨
        index = 7 ∨ index = 8 ∨ index = 9 := by omega
    rw [heq]
    refine ⟨by simp, by simp; omega, by simp, ?_⟩
    rcases hcases with rfl | rfl | rfl | rfl | rfl | rfl | rfl | rfl | rfl | rfl <;>
      simp only [daysInMonth] <;> omega
  · rw [heq]
    refine ⟨by simp; omega, by simp; omega, by simp, ?_⟩
    obtain rfl | rfl : index = 10 ∨ index = 11 := by omega
    · simp only [daysInMonth]
      omega
    · simp only [daysInMonth]
      by_cases hleap : isLeapYear (year + 1) = true
      · rw [if_pos hleap]
        omega
      · rw [if_neg hleap]
        have hshort : dayOfYear ≠ 365 := fun h => hleap (hlong h)
        omega

theorem toDays_eq (date : Date) : date.toDays + 719468 =
    if date.month ≤ 2 then yearStart (date.year - 1) + ((153 * (date.month + 9 : Int) + 2) / 5 + date.day - 1)
    else yearStart date.year + ((153 * (date.month - 3 : Int) + 2) / 5 + date.day - 1) := by
  simp only [toDays, yearStart]
  by_cases hmonth : date.month ≤ 2
  · rw [if_pos hmonth, if_neg (by omega), if_pos hmonth]
    omega
  · rw [if_neg hmonth, if_pos (by omega), if_neg hmonth]
    omega

theorem toDays_ofMarch {year dayOfYear : Int} (hlow : 0 ≤ dayOfYear) (hhigh : dayOfYear ≤ 365) :
    (ofMarch year dayOfYear).toDays + 719468 = yearStart year + dayOfYear := by
  obtain ⟨index, day, hday, hlast, hbound, ⟨hmonth, heq⟩ | ⟨hmonth, heq⟩⟩ := @ofMarch_eq year dayOfYear hlow hhigh
  · rw [heq, toDays_eq, if_neg (by simp only; omega)]
    simp only
    omega
  · rw [heq, toDays_eq, if_pos (by simp only; omega)]
    simp only
    rw [Int.add_sub_cancel]
    omega

theorem toDays_ofDays (days : Int) : (ofDays days).toDays = days := by
  obtain ⟨year, dayOfYear, hday, hlow, hhigh, -, heq⟩ := ofDays_eq days
  have hback := @toDays_ofMarch year dayOfYear hlow hhigh
  rw [heq]
  omega

theorem exists_ofDays (days : Int) : (ofDays days).Exists := by
  obtain ⟨year, dayOfYear, -, hlow, hhigh, hlong, heq⟩ := ofDays_eq days
  rw [heq]
  exact exists_ofMarch hlow hhigh hlong

theorem yearStart_add_le {year later : Int} (h : year ≤ later) :
    yearStart year + 365 * (later - year) ≤ yearStart later := by
  simp only [yearStart]
  omega

theorem year_ofDays {first last days : Int} (hfirst : (Date.mk first 1 1).toDays ≤ days)
    (hlast : days ≤ (Date.mk last 12 31).toDays) : first ≤ (ofDays days).year ∧ (ofDays days).year ≤ last := by
  obtain ⟨year, dayOfYear, hday, hlow, hhigh, -, heq⟩ := ofDays_eq days
  have hbegin := toDays_eq ⟨first, 1, 1⟩
  have hend := toDays_eq ⟨last, 12, 31⟩
  rw [if_pos (by simp only; omega)] at hbegin
  rw [if_neg (by simp only; omega)] at hend
  simp only at hbegin hend
  have hyear : (ofDays days).year = year ∧ dayOfYear ≤ 305 ∨ (ofDays days).year = year + 1 ∧ 306 ≤ dayOfYear := by
    rw [heq]
    obtain ⟨index, day, hsplit, hindex, hbound, ⟨hmonth, hdate⟩ | ⟨hmonth, hdate⟩⟩ :=
      @ofMarch_eq year dayOfYear hlow hhigh
    · rw [hdate]
      exact .inl ⟨rfl, by omega⟩
    · rw [hdate]
      exact .inr ⟨rfl, by omega⟩
  constructor
  · refine Int.not_lt.mp fun hearly => ?_
    have hgap := @yearStart_add_le year (first - 1) (by omega)
    omega
  · refine Int.not_lt.mp fun hlate => ?_
    have hgap := @yearStart_add_le last year (by omega)
    omega

end Date

end DirLock.Time
