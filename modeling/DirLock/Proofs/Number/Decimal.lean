/-!
# Decimal digits

The digits of a number do not start with a zero, unless the number is zero, and reading more digits
never makes a number smaller.
-/

namespace DirLock.Number

theorem toDigits_eq_cons {n : Nat} (h : n ≠ 0) : ∃ c rest, Nat.toDigits 10 n = c :: rest ∧ c ≠ '0' := by
  induction n using Nat.strongRecOn with
  | ind n ih =>
    by_cases hsmall : n < 10
    · have hdigits : ∀ d < 10, d ≠ 0 → d.digitChar ≠ '0' := by decide
      rw [Nat.toDigits_of_lt_base hsmall]
      exact ⟨n.digitChar, [], rfl, hdigits n hsmall h⟩
    · obtain ⟨c, rest, hhigh, hc⟩ := ih (n / 10) (by omega) (by omega)
      rw [Nat.toDigits_of_base_le (by decide) (by omega), hhigh]
      exact ⟨c, rest ++ [(n % 10).digitChar], rfl, hc⟩

theorem toDigits_cases (n : Nat) :
    Nat.toDigits 10 n = ['0'] ∨ ∃ c rest, Nat.toDigits 10 n = c :: rest ∧ c ≠ '0' := by
  by_cases h : n = 0
  · rw [h]
    exact .inl (Nat.toDigits_zero 10)
  · exact .inr (toDigits_eq_cons h)

theorem isDigit_toDigits {n : Nat} {c : Char} (h : c ∈ Nat.toDigits 10 n) : c.isDigit = true :=
  Nat.isDigit_of_mem_toDigits (by decide) (by decide) h

theorem le_ofDigitChars (digits : List Char) (value : Nat) : value ≤ Nat.ofDigitChars 10 digits value := by
  induction digits generalizing value with
  | nil => exact Nat.le_refl value
  | cons c digits ih =>
    rw [Nat.ofDigitChars_cons]
    have hmore := ih (10 * value + (c.toNat - '0'.toNat))
    omega

theorem digit_cases {c : Char} (h : c.isDigit = true) : ∃ d < 10, c = Char.ofNat (0x30 + d) := by
  obtain ⟨hlow, hhigh⟩ := Char.isDigit_iff_toNat.1 h
  change 0x30 ≤ c.toNat at hlow
  change c.toNat ≤ 0x39 at hhigh
  refine ⟨c.toNat - 0x30, by omega, ?_⟩
  rw [Nat.add_sub_cancel' hlow, Char.ofNat_toNat]

end DirLock.Number
