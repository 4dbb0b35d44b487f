import DirLock.Proofs.Number.Decimal
import DirLock.Proofs.Time.Date
import DirLock.Time.Stamp
import Mathlib.Algebra.Group.Nat.Defs

/-!
# Timestamps are read back

A timestamp is written with as many digits as its year and its fraction take, and the second of a leap
second is 60. Reading gives the instant again: each field is found where it was written, and the fields
make up the second and the nanoseconds.
-/

namespace DirLock.Time

/-- Whether the second is one that is kept and the nanoseconds pass a whole second only at the end of a
minute. -/
structure Instant.Representable (t : Instant) : Prop where
  inRange : Instant.inRange t.second = true
  nano_lt : t.nano < 2 * nanosPerSecond
  leap : nanosPerSecond ≤ t.nano → t.second % 60 = 59

namespace Stamp

variable {number rest : List Char} {c : Char} {most width value low high nano : Nat}

/-! ## Digits -/

/-- Whether the text goes on without a digit. -/
def EndsDigits (rest : List Char) : Prop := ∀ c, rest.head? = some c → c.isDigit = false

theorem endsDigits_cons (h : c.isDigit = false) : EndsDigits (c :: rest) := by
  intro d hd
  cases hd
  exact h

theorem moreDigits_append (hdigits : ∀ c ∈ number, c.isDigit = true) (hmost : number.length ≤ most)
    (hends : number.length = most ∨ EndsDigits rest) (hlimit : Nat.ofDigitChars 10 number value ≤ digitLimit) :
    moreDigits most value (number ++ rest) = .ok (Nat.ofDigitChars 10 number value, rest) := by
  induction number generalizing most value with
  | nil =>
    cases most with
    | zero => rfl
    | succ most =>
      rcases hends with hends | hends
      · exact absurd hends (by simp)
      · cases rest with
        | nil => rfl
        | cons c rest =>
          rw [List.nil_append, moreDigits, hends c rfl]
          rfl
  | cons c number ih =>
    cases most with
    | zero => exact absurd hmost (by simp)
    | succ most =>
      have hsmall := Number.le_ofDigitChars number (10 * value + (c.toNat - '0'.toNat))
      rw [Nat.ofDigitChars_cons] at hlimit ⊢
      have hmore := @ih most (10 * value + (c.toNat - '0'.toNat)) (fun d hd => hdigits d (List.mem_cons_of_mem _ hd))
        (by simpa using hmost) (by simpa using hends) hlimit
      have hfits : ¬value * 10 + (c.toNat - 0x30) > digitLimit := by
        change ¬value * 10 + (c.toNat - '0'.toNat) > digitLimit
        omega
      rw [List.cons_append, moreDigits, if_pos (hdigits c List.mem_cons_self)]
      simp only
      rw [if_neg hfits, Nat.mul_comm value 10]
      exact hmore

theorem digits_append (hne : number ≠ []) (hdigits : ∀ c ∈ number, c.isDigit = true)
    (hmost : number.length ≤ most) (hends : number.length = most ∨ EndsDigits rest)
    (hlimit : Nat.ofDigitChars 10 number 0 ≤ digitLimit) :
    digits most (number ++ rest) = .ok (Nat.ofDigitChars 10 number 0, rest) := by
  have hmore := moreDigits_append hdigits hmost hends hlimit
  cases number with
  | nil => exact absurd rfl hne
  | cons c number =>
    rw [List.cons_append, digits, if_pos (hdigits c List.mem_cons_self)]
    exact hmore

/-! ## Padded numbers -/

theorem padded_ne_nil (width value : Nat) : padded width value ≠ [] := fun h =>
  Nat.toDigits_ne_nil (List.append_eq_nil_iff.1 h).2

theorem isDigit_padded (h : c ∈ padded width value) : c.isDigit = true := by
  rcases List.mem_append.1 h with h | h
  · rw [List.eq_of_mem_replicate h]
    rfl
  · exact Number.isDigit_toDigits h

theorem ofDigitChars_padded (width value : Nat) : Nat.ofDigitChars 10 (padded width value) 0 = value := by
  have hzeros : ∀ n, Nat.ofDigitChars 10 (List.replicate n '0') 0 = 0 := by
    intro n
    induction n with
    | zero => rfl
    | succ n ih => rwa [List.replicate_succ, Nat.ofDigitChars_cons]
  rw [padded, Nat.ofDigitChars_append, hzeros, Nat.ofDigitChars_ten_toDigits]

theorem length_padded (hwidth : 0 < width) (h : value < 10 ^ width) : (padded width value).length = width := by
  have hlength := (Nat.length_toDigits_le_iff (b := 10) (by decide) hwidth).2 h
  rw [padded, List.length_append, List.length_replicate]
  omega

theorem digits_padded (hwidth : 0 < width) (h : value < 10 ^ width) (hlimit : value ≤ digitLimit) :
    digits width (padded width value ++ rest) = .ok (value, rest) := by
  have hlength := length_padded hwidth h
  have hread := @digits_append _ rest width (padded_ne_nil width value) (fun c hc => isDigit_padded hc)
    (Nat.le_of_eq hlength) (.inl hlength) (by rwa [ofDigitChars_padded])
  rwa [ofDigitChars_padded] at hread

/-! ## Fields -/

theorem skipBlanks_cons (h : Text.isBlank c = false) : Text.skipBlanks (c :: rest) = c :: rest := by
  rw [Text.skipBlanks, List.dropWhile_cons, h]
  rfl

theorem isBlank_of_isDigit (h : c.isDigit = true) : Text.isBlank c = false := by
  obtain ⟨d, hd, rfl⟩ := Number.digit_cases h
  revert d
  decide

theorem padded_eq_cons (width value : Nat) : ∃ c more, padded width value = c :: more ∧ c.isDigit = true := by
  obtain ⟨c, more, heq⟩ := List.exists_cons_of_ne_nil (padded_ne_nil width value)
  exact ⟨c, more, heq, isDigit_padded (heq ▸ List.mem_cons_self)⟩

theorem skipBlanks_padded : Text.skipBlanks (padded width value ++ rest) = padded width value ++ rest := by
  obtain ⟨c, more, heq, hdigit⟩ := padded_eq_cons width value
  rw [heq, List.cons_append, skipBlanks_cons (isBlank_of_isDigit hdigit)]

theorem field_padded (hlow : low ≤ value) (hhigh : value ≤ high) (h : value < 100) :
    field low high (padded 2 value ++ rest) = .ok (value, rest) := by
  have hread : digits 2 (padded 2 value ++ rest) = .ok (value, rest) :=
    digits_padded (by decide) h (by simp only [digitLimit]; omega)
  simp only [field, skipBlanks_padded, hread, bind, Except.bind, if_pos (And.intro hlow hhigh)]
  rfl

theorem separator_cons (h : Text.isBlank c = false) : separator c (c :: rest) = .ok rest := by
  rw [separator, skipBlanks_cons h]
  exact if_pos rfl

theorem digits_until (hlimit : value ≤ digitLimit) (hends : EndsDigits rest) :
    digits (padded width value ++ rest).length (padded width value ++ rest) = .ok (value, rest) := by
  have hread := @digits_append _ rest (padded width value ++ rest).length (padded_ne_nil width value)
    (fun c hc => isDigit_padded hc) (by simp) (.inr hends) (by rwa [ofDigitChars_padded])
  rwa [ofDigitChars_padded] at hread

/-- A year that fits is kept. The test may be any, so that its large bounds stay closed. -/
theorem bind_fits {fits : Int → Bool} (sign : Nat → Int) {value : Int} {read : Except StampError (Nat × List Char)}
    {n : Nat} (hread : read = .ok (n, rest)) (hvalue : sign n = value) (hfits : fits value = true) :
    (do
      let (n, rest) ← read
      let (value, rest) ← pure (sign n, rest)
      if fits value then pure (value, rest) else throw .outOfRange) = Except.ok (value, rest) := by
  simp only [hread, bind, Except.bind, pure, Except.pure, hvalue, hfits, if_true]

/-- The year is read up to the dash after it: it has four digits, or a sign tells that it has more. -/
theorem readYear_year {value : Int} (hfits : yearFits value = true) :
    readYear (year value ++ '-' :: rest) = .ok (value, '-' :: rest) := by
  obtain ⟨hlow, hhigh⟩ : -2147483648 ≤ value ∧ value < 2147483648 := by
    simpa only [yearFits, Bool.and_eq_true, decide_eq_true_eq] using hfits
  have hsigned : digits (padded 4 value.natAbs ++ '-' :: rest).length (padded 4 value.natAbs ++ '-' :: rest) =
      .ok (value.natAbs, '-' :: rest) :=
    digits_until (by simp only [digitLimit]; omega) (endsDigits_cons rfl)
  by_cases hshort : 0 ≤ value ∧ value ≤ 9999
  · obtain ⟨c, more, heq, hdigit⟩ := padded_eq_cons 4 value.toNat
    have hread : digits 4 (padded 4 value.toNat ++ '-' :: rest) = .ok (value.toNat, '-' :: rest) :=
      digits_padded (by decide) (by omega) (by simp only [digitLimit]; omega)
    rw [year, if_pos hshort, readYear, skipBlanks_padded]
    split
    · rename_i hsign
      rw [heq] at hsign
      cases hsign
      exact absurd hdigit (by decide)
    · rename_i hsign
      rw [heq] at hsign
      cases hsign
      exact absurd hdigit (by decide)
    · exact bind_fits (fun n => n) hread (by omega) hfits
  · rw [year, if_neg hshort, readYear]
    by_cases hnegative : value < 0
    · rw [if_pos hnegative, List.cons_append, skipBlanks_cons (by decide)]
      exact bind_fits (fun n => -n) hsigned (by omega) hfits
    · rw [if_neg hnegative, List.cons_append, skipBlanks_cons (by decide)]
      exact bind_fits (fun n => n) hsigned (by omega) hfits

theorem readFraction_padded (hwidth : 0 < width) (hmost : width ≤ 9) (h : value < 10 ^ width)
    (hends : EndsDigits rest) :
    readFraction ('.' :: (padded width value ++ rest)) = .ok (value * 10 ^ (9 - width), rest) := by
  have hlength := length_padded hwidth h
  have hlimit : value ≤ digitLimit := by
    have hpow := Nat.pow_le_pow_right (n := 10) (by decide) hmost
    simp only [digitLimit]
    omega
  have hread := @digits_append _ rest 9 (padded_ne_nil width value) (fun c hc => isDigit_padded hc)
    (by omega) (.inr hends) (by rwa [ofDigitChars_padded])
  have hused : (padded width value ++ rest).length - rest.length = width := by
    rw [List.length_append, hlength, Nat.add_sub_cancel]
  have hrest : rest.dropWhile Char.isDigit = rest := by
    cases rest with
    | nil => rfl
    | cons c rest => rw [List.dropWhile_cons, hends c rfl]; rfl
  rw [ofDigitChars_padded] at hread
  simp only [readFraction, hread, bind, Except.bind, hused, hrest]
  rfl

theorem readFraction_fraction (h : nano < nanosPerSecond) :
    readFraction (fraction nano ++ 'Z' :: rest) = .ok (nano, 'Z' :: rest) := by
  have hends : EndsDigits ('Z' :: rest) := endsDigits_cons rfl
  simp only [nanosPerSecond] at h
  rw [fraction]
  split
  · subst nano
    rfl
  split
  · rw [List.cons_append, readFraction_padded (by decide) (by decide) (by omega) hends]
    congr 2
    omega
  split
  · rw [List.cons_append, readFraction_padded (by decide) (by decide) (by omega) hends]
    congr 2
    omega
  · rw [List.cons_append, readFraction_padded (by decide) (by decide) (by omega) hends]
    congr 2
    omega

/-! ## Whole timestamps -/

/-- The second of an instant, from the fields of its timestamp. -/
theorem second_eq (t : Instant) : t.date.toDays * secondsPerDay + (t.secondOfDay / 3600 : Nat) * 3600 +
    (t.secondOfDay / 60 % 60 : Nat) * 60 + (t.secondOfDay % 60 : Nat) = t.second := by
  rw [Instant.date, Date.toDays_ofDays]
  simp only [Instant.secondOfDay, secondsPerDay]
  omega

theorem isValid_date {t : Instant} (h : Instant.inRange t.second = true) : t.date.isValid = true := by
  obtain ⟨hfirst, hlast⟩ : Instant.firstSecond ≤ t.second ∧ t.second ≤ Instant.lastSecond := by
    simpa only [Instant.inRange, Bool.and_eq_true, decide_eq_true_eq] using h
  have hyear := @Date.year_ofDays Date.firstYear Date.lastYear (t.second / secondsPerDay)
    (by simp only [Instant.firstSecond, secondsPerDay] at hfirst ⊢; omega)
    (by simp only [Instant.lastSecond, secondsPerDay] at hlast ⊢; omega)
  exact Date.isValid_iff.2 ⟨hyear.1, hyear.2, Date.exists_ofDays _⟩

/-- A timestamp names the instant that it was written for. -/
theorem read_render {t : Instant} (h : t.Representable) : read (render t) = .ok t := by
  obtain ⟨hrange, hnano, hleap⟩ := h
  have hvalid := isValid_date hrange
  have hsecond := second_eq t
  obtain ⟨hfirst, hlast, hmonth, hmonth', hday, hday'⟩ := Date.isValid_iff.1 hvalid
  have hfits : yearFits t.date.year = true := by
    simp only [yearFits, Bool.and_eq_true, decide_eq_true_eq]
    simp only [Date.firstYear, Date.lastYear] at hfirst hlast
    omega
  have hdays := Nat.le_trans hday' (Date.daysInMonth_le _ _)
  have hsecondOfDay : t.secondOfDay < 86400 := by
    simp only [Instant.secondOfDay, secondsPerDay]
    omega
  -- A leap second is the second after the last of its minute.
  obtain ⟨leap, hleapEq, hlong, hnanos, hwhole⟩ : ∃ leap, (if t.isLeap then 1 else 0) = leap ∧
      leap = (if t.secondOfDay % 60 + leap = 60 then 1 else 0) ∧ t.nano - leap * nanosPerSecond < nanosPerSecond ∧
      t.nano - leap * nanosPerSecond + leap * nanosPerSecond = t.nano := by
    by_cases hpast : nanosPerSecond ≤ t.nano
    · have hend := hleap hpast
      have hminute : t.secondOfDay % 60 + 1 = 60 := by
        simp only [Instant.secondOfDay, secondsPerDay]
        omega
      exact ⟨1, if_pos (decide_eq_true hpast), (if_pos hminute).symm, by omega, by omega⟩
    · have hminute : ¬t.secondOfDay % 60 + 0 = 60 := by omega
      exact ⟨0, if_neg fun h => hpast (of_decide_eq_true h), (if_neg hminute).symm, by omega, by omega⟩
  -- What each reader gives, written so that the readers' binds reduce by the monad's law.
  have hyear (rest : List Char) : readYear (year t.date.year ++ '-' :: rest) = pure (t.date.year, '-' :: rest) :=
    readYear_year hfits
  have hdash (rest : List Char) : separator '-' ('-' :: rest) = pure rest := separator_cons (by decide)
  have hcolon (rest : List Char) : separator ':' (':' :: rest) = pure rest := separator_cons (by decide)
  have hmonths (rest : List Char) : field 1 12 (padded 2 t.date.month ++ rest) = pure (t.date.month, rest) :=
    field_padded hmonth hmonth' (by omega)
  have hmonthDays (rest : List Char) : field 1 31 (padded 2 t.date.day ++ rest) = pure (t.date.day, rest) :=
    field_padded hday hdays (by omega)
  have hhours (rest : List Char) :
      field 0 23 (padded 2 (t.secondOfDay / 3600) ++ rest) = pure (t.secondOfDay / 3600, rest) :=
    field_padded (Nat.zero_le _) (by omega) (by omega)
  have hminutes (rest : List Char) :
      field 0 59 (padded 2 (t.secondOfDay / 60 % 60) ++ rest) = pure (t.secondOfDay / 60 % 60, rest) :=
    field_padded (Nat.zero_le _) (by omega) (by omega)
  have hseconds (rest : List Char) :
      field 0 60 (padded 2 (t.secondOfDay % 60 + leap) ++ rest) = pure (t.secondOfDay % 60 + leap, rest) := by
    refine field_padded (Nat.zero_le _) ?_ ?_
    all_goals
      split at hlong
      all_goals omega
  have hfraction : readFraction (fraction (t.nano - leap * nanosPerSecond) ++ ['Z']) =
      pure (t.nano - leap * nanosPerSecond, ['Z']) := readFraction_fraction hnanos
  have hoffset : readOffset (Text.skipBlanks ['Z']) = pure (0, []) := rfl
  have hempty : ¬(!(Text.skipBlanks []).isEmpty) = true := Bool.noConfusion
  have hdate : (⟨t.date.year, t.date.month, t.date.day⟩ : Date) = t.date := rfl
  have hkept : ¬(!t.date.isValid) = true := by rw [hvalid]; exact Bool.noConfusion
  have hinside : ¬(!Instant.inRange t.second) = true := by rw [hrange]; exact Bool.noConfusion
  have hzone : ¬Int.natAbs 0 ≥ secondsPerDay := by decide
  rw [render, renderWith, hleapEq]
  simp only [List.append_assoc, List.cons_append]
  simp only [read, hyear, hdash, hcolon, hmonths, hmonthDays, hhours, hminutes, hseconds, hfraction, hoffset,
    pure_bind, if_true, true_or, ← hlong, hdate, Nat.add_sub_cancel, hsecond, Int.sub_zero, hwhole]
  rw [if_neg hempty, if_neg hkept, if_neg hzone, if_neg hinside]
  rfl

theorem minute_next {t : Instant} (h : t.second % 60 ≠ 59) (nano : Nat) :
    (Instant.mk (t.second + 1) nano).date = t.date ∧
      (Instant.mk (t.second + 1) nano).secondOfDay = t.secondOfDay + 1 ∧ t.secondOfDay % 60 ≠ 59 := by
  have hday : (t.second + 1) / secondsPerDay = t.second / secondsPerDay := by
    simp only [secondsPerDay]
    omega
  refine ⟨congrArg Date.ofDays hday, ?_, ?_⟩ <;>
    simp only [Instant.secondOfDay, secondsPerDay] <;>
    omega

/-- Nanoseconds that pass a whole second inside a minute are written as those of the second after, so that every
timestamp is one that is read back. -/
theorem exists_representable {t : Instant} (hrange : Instant.inRange t.second = true)
    (hnano : t.nano < 2 * nanosPerSecond) : ∃ t' : Instant, t'.Representable ∧ render t' = render t := by
  by_cases hplain : nanosPerSecond ≤ t.nano → t.second % 60 = 59
  · exact ⟨t, ⟨hrange, hnano, hplain⟩, rfl⟩
  obtain ⟨hpast, hminute⟩ := Classical.not_imp.1 hplain
  have hlast : Instant.lastSecond % 60 = 59 := by decide
  have hrange' : Instant.inRange (t.second + 1) = true := by
    simp only [Instant.inRange, Bool.and_eq_true, decide_eq_true_eq] at hrange ⊢
    omega
  have hbelow : t.nano - nanosPerSecond < nanosPerSecond := by omega
  refine ⟨⟨t.second + 1, t.nano - nanosPerSecond⟩,
    ⟨hrange', by dsimp only; omega, fun h => absurd hbelow (Nat.not_lt.2 h)⟩, ?_⟩
  obtain ⟨hdate, hsecond, hinside⟩ := minute_next hminute (t.nano - nanosPerSecond)
  have hhour : (t.secondOfDay + 1) / 3600 = t.secondOfDay / 3600 := by omega
  have hminutes : (t.secondOfDay + 1) / 60 % 60 = t.secondOfDay / 60 % 60 := by omega
  have hseconds : (t.secondOfDay + 1) % 60 = t.secondOfDay % 60 + 1 := by omega
  have hleap : Instant.isLeap ⟨t.second + 1, t.nano - nanosPerSecond⟩ = false := decide_eq_false (Nat.not_le.2 hbelow)
  have hleap' : t.isLeap = true := decide_eq_true hpast
  simp only [render, renderWith, hdate, hsecond, hleap, hleap', hhour, hminutes, hseconds, if_true,
    Bool.false_eq_true, if_false, Nat.zero_mul, Nat.one_mul, Nat.sub_zero, Nat.add_zero]

end Stamp

end DirLock.Time
