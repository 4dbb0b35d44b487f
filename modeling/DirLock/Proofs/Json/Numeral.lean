import DirLock.Json.Value
import DirLock.Proofs.Number.Decimal

/-!
# JSON whole numbers are read back

The digits of a number are read up to the character that ends it, and give the number if it fits.
-/

namespace DirLock.Json

variable {number rest : List Char} {value count n : Nat}

/-- Whether a number that stands in front of the text is whole and ends there. -/
def EndsNumber (rest : List Char) : Prop :=
  ∀ c, rest.head? = some c → c.isDigit = false ∧ c ≠ '.' ∧ c ≠ 'e' ∧ c ≠ 'E'

theorem startsWithDigit_eq_false (h : EndsNumber rest) : startsWithDigit rest = false := by
  cases rest with
  | nil => rfl
  | cons c rest => exact (h c rfl).1

theorem fittingDigits_append (hdigits : ∀ c ∈ number, c.isDigit = true) (hends : startsWithDigit rest = false)
    (hlimit : Nat.ofDigitChars 10 number value ≤ wholeLimit) :
    fittingDigits (number ++ rest) value count = (Nat.ofDigitChars 10 number value, count + number.length, rest) := by
  induction number generalizing value count with
  | nil =>
    cases rest with
    | nil => rfl
    | cons c rest =>
      have hc : c.isDigit = false := hends
      rw [List.nil_append, fittingDigits, hc]
      rfl
  | cons c number ih =>
    have hsmall := Number.le_ofDigitChars number (10 * value + (c.toNat - '0'.toNat))
    rw [Nat.ofDigitChars_cons] at hlimit ⊢
    have hfits : (c.isDigit && decide (value * 10 + (c.toNat - 0x30) ≤ wholeLimit)) = true := by
      rw [hdigits c List.mem_cons_self, Nat.mul_comm]
      exact decide_eq_true (Nat.le_trans hsmall hlimit)
    have hmore := @ih (10 * value + (c.toNat - '0'.toNat)) (count + 1)
      (fun d hd => hdigits d (List.mem_cons_of_mem _ hd)) hlimit
    rw [List.cons_append, fittingDigits, if_pos hfits, List.length_cons, Nat.mul_comm value 10]
    rw [Nat.add_assoc, Nat.add_comm 1] at hmore
    exact hmore

theorem readAfterWhole_ends (hends : EndsNumber rest) : readAfterWhole false n rest = .ok (.unsigned n, rest) := by
  cases rest with
  | nil => rfl
  | cons c rest =>
    obtain ⟨-, hpoint, hsmall, hlarge⟩ := hends c rfl
    rw [readAfterWhole]
    · rfl
    · exact fun _ h => hpoint (List.cons.inj h).1
    · exact fun _ h => hsmall (List.cons.inj h).1
    · exact fun _ h => hlarge (List.cons.inj h).1

theorem readNumber_toDigits (hn : n ≤ wholeLimit) (hends : EndsNumber rest) :
    readNumber false (Nat.toDigits 10 n ++ rest) = .ok (.unsigned n, rest) := by
  have hstop := startsWithDigit_eq_false hends
  have hvalue : Nat.ofDigitChars 10 (Nat.toDigits 10 n) 0 = n := Nat.ofDigitChars_ten_toDigits
  have hdigits (c : Char) (hc : c ∈ Nat.toDigits 10 n) : c.isDigit = true := Number.isDigit_toDigits hc
  rcases Number.toDigits_cases n with hzero | ⟨c, more, hcons, hc⟩
  · rw [hzero] at hvalue ⊢
    obtain rfl : n = 0 := hvalue.symm
    rw [List.cons_append, List.nil_append, readNumber, hstop]
    exact readAfterWhole_ends hends
  · rw [hcons] at hvalue hdigits ⊢
    rw [Nat.ofDigitChars_cons] at hvalue
    have hread := @fittingDigits_append more rest (10 * 0 + (c.toNat - '0'.toNat)) 1
      (fun d hd => hdigits d (List.mem_cons_of_mem _ hd)) hstop (by omega)
    have hfirst : 10 * 0 + (c.toNat - '0'.toNat) = c.toNat - 0x30 := by
      rw [Nat.mul_zero, Nat.zero_add]
      rfl
    rw [hvalue, hfirst] at hread
    rw [List.cons_append, readNumber]
    · simp only [hdigits c List.mem_cons_self, hread, hstop, Bool.not_true, Bool.false_eq_true, if_false]
      exact readAfterWhole_ends hends
    · exact hc

theorem skipSpace_cons {c : Char} (h : isSpace c = false) : skipSpace (c :: rest) = c :: rest := by
  rw [skipSpace, List.dropWhile_cons, h]
  rfl

theorem isSpace_of_isDigit {c : Char} (h : c.isDigit = true) : isSpace c = false := by
  obtain ⟨d, hd, rfl⟩ := Number.digit_cases h
  revert d
  decide

theorem toDigits_append (n : Nat) (rest : List Char) : ∃ c more, Nat.toDigits 10 n ++ rest = c :: more ∧
    c.isDigit = true ∧ skipSpace (c :: more) = c :: more := by
  obtain ⟨c, more, hcons⟩ := List.exists_cons_of_ne_nil (@Nat.toDigits_ne_nil n 10)
  have hdigit : c.isDigit = true := @Number.isDigit_toDigits n c (hcons ▸ List.mem_cons_self)
  exact ⟨c, more ++ rest, by rw [hcons, List.cons_append], hdigit, skipSpace_cons (isSpace_of_isDigit hdigit)⟩

theorem readUnsigned_toDigits (n : UInt32) (hends : EndsNumber rest) :
    readUnsigned (Nat.toDigits 10 n.toNat ++ rest) = .ok (n, rest) := by
  have hn := n.toNat_lt
  have hread : readNumber false (Nat.toDigits 10 n.toNat ++ rest) = .ok (.unsigned n.toNat, rest) :=
    readNumber_toDigits (by simp only [wholeLimit, UInt64.size]; omega) hends
  obtain ⟨c, more, htext, hdigit, hskip⟩ := toDigits_append n.toNat rest
  rw [htext] at hread
  have hminus : c ≠ '-' := fun h => absurd (h ▸ hdigit) (by decide)
  rw [htext, readUnsigned, hskip]
  split
  · rename_i h
    cases h
  · rename_i h
    exact absurd (List.cons.inj h).1 hminus
  · rename_i h
    cases h
    simp only [hdigit, hread, if_true, bind, Except.bind, narrow, UInt32.size, if_pos hn, UInt32.ofNat_toNat]

theorem readOptional_toDigits (n : UInt32) (hends : EndsNumber rest) :
    readOptional readUnsigned (' ' :: (Nat.toDigits 10 n.toNat ++ rest)) = .ok (some n, rest) := by
  have hread := readUnsigned_toDigits n hends
  obtain ⟨c, more, htext, hdigit, hskip⟩ := toDigits_append n.toNat rest
  have hspace : skipSpace (' ' :: c :: more) = c :: more := hskip
  have hnull : c ≠ 'n' := fun h => absurd (h ▸ hdigit) (by decide)
  rw [htext] at hread ⊢
  rw [readOptional, hspace]
  split
  · rename_i h
    exact absurd (List.cons.inj h).1 hnull
  · simp only [hread, bind, Except.bind, pure, Except.pure]

end DirLock.Json
