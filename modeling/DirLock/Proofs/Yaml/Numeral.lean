import DirLock.Proofs.Number.Decimal
import DirLock.Proofs.Yaml.Member
import DirLock.Yaml.Resolution

/-!
# Numbers written plain

A word of letters, digits and underscores may be written plain, and the digits of a number mean the
number again.
-/

namespace DirLock.Yaml

variable {text : List Char} {c : Char} {n : Nat}

/-! ## Words -/

theorem isPrintable_of_word (hc : c.isAlphanum = true ∨ c = '_') : Printer.isPrintable c = true := by
  rcases hc with hc | rfl
  · delta Char.isAlphanum Char.isAlpha Char.isUpper Char.isLower Char.isDigit at hc
    simp only [Bool.or_eq_true, Bool.and_eq_true, decide_eq_true_eq, UInt32.le_iff_toNat_le, ge_iff_le] at hc
    have hcode : c.toNat = c.val.toNat := rfl
    simp [Printer.isPrintable]
    simp at hc
    omega
  · decide

theorem hasPair_eq_false {p q : Char → Bool} (h : ∀ c ∈ text, p c = false) : Printer.hasPair p q text = false := by
  induction text with
  | nil => rfl
  | cons c text ih =>
    cases text with
    | nil => rfl
    | cons d text =>
      rw [Printer.hasPair, h c List.mem_cons_self, ih fun e he => h e (List.mem_cons_of_mem _ he)]
      rfl

theorem hasIndicator_eq_false (before : Char) (h : ∀ c ∈ text, c ≠ ':' ∧ c ≠ '#') :
    Printer.hasIndicator before text = false := by
  induction text generalizing before with
  | nil => rfl
  | cons c text ih =>
    obtain ⟨hcolon, hhash⟩ := h c List.mem_cons_self
    rw [Printer.hasIndicator, ih c fun d hd => h d (List.mem_cons_of_mem _ hd)]
    simp [hcolon, hhash]

theorem allowsPlain_of_word (hne : text ≠ []) (htext : ∀ c ∈ text, c.isAlphanum = true ∨ c = '_') :
    Printer.allowsPlain text = true := by
  have hspaces : ∀ c ∈ text, Printer.isSpace c = false := fun c hc =>
    beq_eq_false_iff_ne.2 (Lexer.ne_of_word (htext c hc) (by decide))
  have hbreaks : text.any isBreak = false := by
    rw [List.any_eq_false]
    exact fun c hc => Bool.eq_false_iff.1 (Lexer.noBreak_of_word (htext c hc)).2
  have hescapes : Printer.needsEscapes text = false := by
    have hprint : text.all Printer.isPrintable = true :=
      List.all_eq_true.2 fun c hc => isPrintable_of_word (htext c hc)
    rw [Printer.needsEscapes, hasPair_eq_false hspaces, hprint]
    rfl
  obtain ⟨c, rest, rfl⟩ := List.exists_cons_of_ne_nil hne
  have hends : Printer.atEnds Printer.isSpace (c :: rest) = false := by
    obtain ⟨d, hlast⟩ : ∃ d, (c :: rest).getLast? = some d := ⟨_, List.getLast?_eq_some_getLast hne⟩
    simp [Printer.atEnds, hlast, hspaces c List.mem_cons_self, hspaces d (List.mem_of_getLast? hlast)]
  have hword := htext c List.mem_cons_self
  have hfirst (d : Char) (hd : d.isAlphanum = false ∧ d ≠ '_') : c ≠ d := Lexer.ne_of_word hword hd
  have hindicator : Printer.looksLikeIndicator (c :: rest) = false := by
    have hrest := hasIndicator_eq_false c fun d hd =>
      have hd := htext d (List.mem_cons_of_mem _ hd)
      ⟨Lexer.ne_of_word hd (by decide), Lexer.ne_of_word hd (by decide)⟩
    simp [Printer.looksLikeIndicator, hrest, Lexer.opensOther_of_word hword, hfirst '-' (by decide), hfirst '.' (by decide),
      hfirst '?' (by decide), hfirst ':' (by decide)]
  simp only [Printer.allowsPlain, hescapes, hbreaks, hends, hindicator, Bool.or_false, Bool.not_false]

/-! ## Digits -/

namespace Resolution

theorem digit?_of_isDigit (hc : c.isDigit = true) : digit? 10 c = some (c.toNat - 0x30) := by
  obtain ⟨d, hd, rfl⟩ := Number.digit_cases hc
  revert d
  decide

theorem digits?_toDigits (n : Nat) : digits? 10 (Nat.toDigits 10 n) = some n := by
  have hfold (text : List Char) (htext : ∀ c ∈ text, c.isDigit = true) (value : Nat) :
      text.foldl (fun value c => do pure ((← value) * 10 + (← digit? 10 c))) (some value) =
        some (Nat.ofDigitChars 10 text value) := by
    induction text generalizing value with
    | nil => rfl
    | cons c text ih =>
      rw [List.foldl_cons, digit?_of_isDigit (htext c List.mem_cons_self), Nat.ofDigitChars_cons,
        Nat.mul_comm 10]
      exact ih (fun d hd => htext d (List.mem_cons_of_mem _ hd)) _
  have hnonempty : (Nat.toDigits 10 n).isEmpty = false := by
    simp [Nat.toDigits_ne_nil]
  rw [digits?, hnonempty, if_neg Bool.false_ne_true, hfold _ fun c => Number.isDigit_toDigits,
    Nat.ofDigitChars_ten_toDigits]

theorem isPaddedDigits_cons (hc : c ≠ '0') (hsign : c ≠ '+' ∧ c ≠ '-') :
    isPaddedDigits (c :: text) = false := by
  have hdrop : dropSign (c :: text) = c :: text := by
    rw [dropSign.eq_def]
    split
    case h_1 h => exact absurd (List.cons.inj h).1 hsign.1
    case h_2 h => exact absurd (List.cons.inj h).1 hsign.2
    case h_3 => rfl
  rw [isPaddedDigits, hdrop]
  split
  case h_1 h => exact absurd (List.cons.inj h).1 hc
  case h_2 => rfl

theorem magnitude?_cons (hc : c ≠ '0') : magnitude? (c :: text) = digits? 10 (c :: text) := by
  rw [magnitude?.eq_def]
  split
  case h_4 => rfl
  all_goals
    rename_i h
    exact absurd (List.cons.inj h).1 hc

theorem integer?_toDigits (n : Nat) : integer? (Nat.toDigits 10 n) = some (n : Int) := by
  have hvalue := digits?_toDigits n
  rcases Number.toDigits_cases n with hzero | ⟨c, rest, hdigits, hc⟩
  · rw [hzero] at hvalue ⊢
    obtain rfl : 0 = n := Option.some.inj hvalue
    rfl
  · have hdigit : c.isDigit = true := Number.isDigit_toDigits (n := n) (by rw [hdigits]; exact List.mem_cons_self)
    have hsign : c ≠ '+' ∧ c ≠ '-' := by
      constructor <;> rintro rfl <;> exact absurd hdigit (by decide)
    rw [hdigits] at hvalue ⊢
    rw [integer?, isPaddedDigits_cons hc hsign, if_neg Bool.false_ne_true, magnitude?_cons hc, hvalue]
    · rfl
    · exact fun rest h => hsign.2 (List.cons.inj h).1
    · exact fun rest h => hsign.1 (List.cons.inj h).1

theorem unsigned?_toDigits (h : n < UInt64.size) : unsigned? (Nat.toDigits 10 n) = some n := by
  have hsign : (Nat.toDigits 10 n).head? ≠ some '-' := by
    intro hhead
    have hdigit := Number.isDigit_toDigits (List.mem_of_head? hhead)
    exact absurd hdigit (by decide)
  have hsize : ((n : Int) < 2 * wordHalf) := by
    simp only [wordHalf, UInt64.size] at h ⊢
    omega
  rw [unsigned?, if_neg hsign, integer?_toDigits]
  simp only [Option.filter, hsize, decide_true, if_true, Option.map_some, Int.toNat_natCast]

end Resolution

end DirLock.Yaml
