import DirLock.Yaml.Printer
import DirLock.Yaml.Token.Scalar

/-!
# Plain scalars read back

A text that may be written plain is read back from what was written: its characters go into the value
one by one, spaces are held back until the next word begins, and the scalar ends at the end of the line
or before a colon that a gap follows.
-/

namespace DirLock.Yaml

/-- The mark `n` characters further on in the same line. -/
def Mark.along (mark : Mark) (n : Nat) : Mark := ⟨mark.index + n, mark.line, mark.column + n⟩

theorem Mark.along_zero (mark : Mark) : mark.along 0 = mark := rfl

theorem Mark.along_along (mark : Mark) (m n : Nat) : (mark.along m).along n = mark.along (m + n) := by
  simp [Mark.along, Nat.add_assoc]

theorem Cursor.advance_cons (c : Char) (rest : List Char) (mark : Mark) :
    Cursor.advance ⟨c :: rest, mark⟩ = ⟨rest, mark.along 1⟩ := rfl

theorem Cursor.advanceBy_append (text rest : List Char) (mark : Mark) :
    Cursor.advanceBy ⟨text ++ rest, mark⟩ text.length = ⟨rest, mark.along text.length⟩ := by
  induction text generalizing mark with
  | nil => rfl
  | cons c text ih =>
    rw [List.cons_append, List.length_cons, Cursor.advanceBy, Cursor.advance_cons, ih,
      Mark.along_along, Nat.add_comm]

/-! ## Characters that are written as they are -/

namespace Printer

theorem isPrintable_tab : isPrintable '\t' = false := by decide

theorem isBlank_of_isPrintable {c : Char} (h : isPrintable c = true) : isBlank c = (c == ' ') := by
  have htab : (c == '\t') = false := by
    rw [beq_eq_false_iff_ne]
    rintro rfl
    exact absurd (isPrintable_tab.symm.trans h) (by decide)
  rw [isBlank, htab, Bool.or_false]

theorem isBreak_cases {c : Char} (hprint : isPrintable c = true) (hbreak : isBreak c = true) :
    c = '\n' ∨ c = '\u2028' ∨ c = '\u2029' := by
  simp only [isBreak, Bool.or_eq_true, beq_iff_eq] at hbreak
  rcases hbreak with (((rfl | rfl) | rfl) | rfl) | rfl
  · exact .inl rfl
  · exact absurd hprint (by decide)
  · exact absurd hprint (by decide)
  · exact .inr (.inl rfl)
  · exact .inr (.inr rfl)

variable {text : List Char}

theorem isPrintable_of_needsEscapes (h : needsEscapes text = false) :
    ∀ c ∈ text, isPrintable c = true := by
  simp only [needsEscapes, Bool.or_eq_false_iff, Bool.not_eq_false'] at h
  exact List.all_eq_true.1 h.2

/-- What a text is like that may be written plain. -/
structure IsPlain (text : List Char) : Prop where
  printable : ∀ c ∈ text, isPrintable c = true
  oneLine : ∀ c ∈ text, isBreak c = false
  firstNoSpace : text.head? ≠ some ' '
  lastNoSpace : text.getLast? ≠ some ' '
  noIndicator : looksLikeIndicator text = false

theorem isPlain_of_allowsPlain (h : allowsPlain text = true) : IsPlain text := by
  simp only [allowsPlain, Bool.not_eq_true', Bool.or_eq_false_iff] at h
  obtain ⟨⟨⟨hescapes, hbreaks⟩, hends⟩, hindicator⟩ := h
  simp only [atEnds, Bool.or_eq_false_iff] at hends
  refine ⟨isPrintable_of_needsEscapes hescapes, fun c hc => ?_, fun hfirst => ?_, fun hlast => ?_,
    hindicator⟩
  · exact Bool.eq_false_iff.2 (List.any_eq_false.1 hbreaks c hc)
  · rw [hfirst] at hends
    exact absurd hends.1 (by decide)
  · rw [hlast] at hends
    exact absurd hends.2 (by decide)

theorem first_of_not_indicator {c : Char} (h : looksLikeIndicator (c :: text) = false) :
    (c :: text).take 3 ≠ ['-', '-', '-'] ∧ (c :: text).take 3 ≠ ['.', '.', '.'] ∧
      opensOther c = false ∧ (c = '?' ∨ c = ':' ∨ c = '-' → isGap text.head? = false) ∧
      hasIndicator c text = false := by
  simp only [looksLikeIndicator, Bool.or_eq_false_iff, Bool.and_eq_false_iff, beq_eq_false_iff_ne] at h
  obtain ⟨⟨⟨⟨hdashes, hdots⟩, hopens⟩, hfirst⟩, hrest⟩ := h
  refine ⟨hdashes, hdots, hopens, fun hc => hfirst.resolve_left ?_, hrest⟩
  rintro ⟨⟨hmark, hcolon⟩, hdash⟩
  rcases hc with hc | hc | hc <;> contradiction

end Printer

namespace Scalar

open Cursor
open Printer (hasIndicator isPrintable)

/-- Spaces that are held back until the next word begins. -/
def Gap.spaces (blanks : List Char) : Gap := ⟨false, blanks, [], []⟩

/-- Reading a plain scalar outside of brackets goes on from the first state to the second in so many
steps. -/
def PlainGoes (indent : Int) (began : Mark) (steps : Nat) (state : Plain) (cursor : Cursor)
    (state' : Plain) (cursor' : Cursor) : Prop :=
  ∀ fuel, plainFrom false indent began (fuel + steps) state cursor =
    plainFrom false indent began fuel state' cursor'

variable {indent : Int} {began mark stop : Mark} {done blanks tail rest text : List Char} {c : Char}

theorem PlainGoes.refl (state : Plain) (cursor : Cursor) :
    PlainGoes indent began 0 state cursor state cursor := fun _ => rfl

theorem PlainGoes.trans {m n : Nat} {s₁ s₂ s₃ : Plain} {c₁ c₂ c₃ : Cursor}
    (h : PlainGoes indent began m s₁ c₁ s₂ c₂) (h' : PlainGoes indent began n s₂ c₂ s₃ c₃) :
    PlainGoes indent began (n + m) s₁ c₁ s₃ c₃ := by
  intro fuel
  rw [← Nat.add_assoc, h, h']

theorem plainGoes_word (hblank : isBlank c = false) (hbreak : isBreak c = false)
    (hcolon : c = ':' → isGap rest.head? = false) :
    PlainGoes indent began 1 ⟨done, stop, .spaces blanks, true⟩ ⟨c :: rest, mark⟩
      ⟨c :: (blanks.reverse ++ done), mark.along 1, .spaces [], true⟩ ⟨rest, mark.along 1⟩ := by
  intro fuel
  have hends : plainEnds false ⟨c :: rest, mark⟩ = false := by
    by_cases hc : c = ':'
    · subst hc
      simpa [plainEnds, sees, peek, ahead, ← List.head?_eq_getElem?] using hcolon rfl
    · simp [plainEnds, sees, peek, hc]
  rw [plainFrom]
  simp [hblank, hbreak, hends, colonMisplaced, advance_cons, Gap.text, Gap.spaces, Gap.none]

theorem plainGoes_space (inWord : Bool) : ∃ n ≤ 2,
    PlainGoes indent began n ⟨done, stop, .spaces blanks, inWord⟩ ⟨' ' :: rest, mark⟩
      ⟨done, stop, .spaces (blanks ++ [' ']), false⟩ ⟨rest, mark.along 1⟩ := by
  have hgap : PlainGoes indent began 1 ⟨done, stop, .spaces blanks, false⟩ ⟨' ' :: rest, mark⟩
      ⟨done, stop, .spaces (blanks ++ [' ']), false⟩ ⟨rest, mark.along 1⟩ := by
    intro fuel
    rw [plainFrom]
    simp [atBlank, peek, isBlank, Gap.step, Gap.spaces, advance_cons]
  cases inWord with
  | false => exact ⟨1, by decide, hgap⟩
  | true =>
    refine ⟨2, Nat.le_refl 2, PlainGoes.trans (m := 1) (fun fuel => ?_) hgap⟩
    rw [plainFrom]
    simp [isBlank]

/-- Behind spaces a word begins, unless a comment does. -/
theorem plainGoes_begin (hblank : isBlank c = false) (hbreak : isBreak c = false) (hc : c ≠ '#')
    (hindent : ¬ (mark.column : Int) < indent) (hcolumn : mark.column ≠ 0) {gap : Gap} :
    PlainGoes indent began 1 ⟨done, stop, gap, false⟩ ⟨c :: rest, mark⟩
      ⟨done, stop, gap, true⟩ ⟨c :: rest, mark⟩ := by
  intro fuel
  rw [plainFrom]
  simp [atBlank, atBreak, peek, hblank, hbreak, hindent, atDocumentIndicator, atIndicator, hcolumn,
    sees, hc]

theorem plainGoes_enter {inWord : Bool} {gap : Gap} (hblank : isBlank c = false) (hbreak : isBreak c = false)
    (hc : inWord = false → c ≠ '#') (hindent : ¬ (mark.column : Int) < indent) (hcolumn : mark.column ≠ 0) :
    ∃ n ≤ 1, PlainGoes indent began n ⟨done, stop, gap, inWord⟩ ⟨c :: rest, mark⟩
      ⟨done, stop, gap, true⟩ ⟨c :: rest, mark⟩ := by
  cases inWord with
  | true => exact ⟨0, Nat.zero_le 1, .refl _ _⟩
  | false => exact ⟨1, Nat.le_refl 1, plainGoes_begin hblank hbreak (hc rfl) hindent hcolumn⟩

theorem plainGoes_key (htext : ∀ c ∈ text, isBlank c = false ∧ isBreak c = false ∧ c ≠ ':') :
    ∃ stop', PlainGoes indent began text.length ⟨done, stop, .spaces [], true⟩ ⟨text ++ tail, mark⟩
      ⟨text.reverse ++ done, stop', .spaces [], true⟩ ⟨tail, mark.along text.length⟩ := by
  induction text generalizing done stop mark with
  | nil => exact ⟨stop, .refl _ _⟩
  | cons c text ih =>
    obtain ⟨hblank, hbreak, hcolon⟩ := htext c List.mem_cons_self
    obtain ⟨stop', hrest⟩ := ih (fun d hd => htext d (List.mem_cons_of_mem _ hd))
    rw [List.reverse_cons, List.append_assoc, List.length_cons, Nat.add_comm, ← Mark.along_along,
      Nat.add_comm]
    exact ⟨stop', (plainGoes_word hblank hbreak fun h => absurd h hcolon).trans hrest⟩

theorem plainGoes_line {before : Char} {inWord : Bool} (hindicator : hasIndicator before text = false)
    (hprint : ∀ c ∈ text, isPrintable c = true) (hline : ∀ c ∈ text, isBreak c = false)
    (hlast : text.getLast? ≠ some ' ') (hword : inWord = true → blanks = [])
    (hspace : inWord = false → before = ' ' ∧ text ≠ [])
    (hindent : ¬ (mark.column : Int) < indent) (hcolumn : mark.column ≠ 0) :
    ∃ n ≤ 2 * text.length, ∃ stop',
      PlainGoes indent began n ⟨done, stop, .spaces blanks, inWord⟩ ⟨text ++ tail, mark⟩
        ⟨text.reverse ++ (blanks.reverse ++ done), stop', .spaces [], true⟩
        ⟨tail, mark.along text.length⟩ := by
  induction text generalizing before inWord blanks done stop mark with
  | nil =>
    cases inWord with
    | false => exact absurd rfl (hspace rfl).2
    | true =>
      rw [hword rfl]
      exact ⟨0, Nat.le_refl 0, stop, .refl _ _⟩
  | cons c text ih =>
    have hbreak := hline c List.mem_cons_self
    have hblank := Printer.isBlank_of_isPrintable (hprint c List.mem_cons_self)
    have hlater : ¬ ((mark.along 1).column : Int) < indent := by
      simp only [Mark.along]
      omega
    simp only [hasIndicator, Bool.or_eq_false_iff, Bool.and_eq_false_iff] at hindicator
    obtain ⟨⟨hcolon, hhash⟩, hrest⟩ := hindicator
    replace ih := fun stop done blanks inWord => @ih (mark.along 1) stop done blanks c inWord hrest
      (fun d hd => hprint d (List.mem_cons_of_mem _ hd))
      (fun d hd => hline d (List.mem_cons_of_mem _ hd))
    rw [List.length_cons, Nat.add_comm text.length, ← Mark.along_along]
    by_cases hc : c = ' '
    · subst hc
      have hne : text ≠ [] := by
        rintro rfl
        exact hlast rfl
      rw [List.getLast?_cons_of_ne_nil hne] at hlast
      obtain ⟨m, hm, hstep⟩ : ∃ m ≤ 2, PlainGoes indent began m
          ⟨done, stop, .spaces blanks, inWord⟩ ⟨' ' :: (text ++ tail), mark⟩
          ⟨done, stop, .spaces (blanks ++ [' ']), false⟩ ⟨text ++ tail, mark.along 1⟩ :=
        plainGoes_space inWord
      obtain ⟨n, hn, stop', hgo⟩ := ih stop done (blanks ++ [' ']) false hlast (fun h => nomatch h)
        (fun _ => ⟨rfl, hne⟩) hlater (Nat.succ_ne_zero _)
      refine ⟨n + m, by omega, stop', ?_⟩
      have hvalue : (' ' :: text).reverse ++ (blanks.reverse ++ done) =
          text.reverse ++ ((blanks ++ [' ']).reverse ++ done) := by simp
      rw [hvalue]
      exact hstep.trans hgo
    · have hblank : isBlank c = false := by
        rw [hblank]
        exact beq_eq_false_iff_ne.2 hc
      have hnum : inWord = false → c ≠ '#' := by
        rintro hout rfl
        rw [(hspace hout).1] at hhash
        exact hhash.elim (fun h => absurd h (by decide)) (fun h => absurd h (by decide))
      obtain ⟨m, hm, hword⟩ := @plainGoes_enter indent began mark stop done (text ++ tail) c inWord (.spaces blanks)
        hblank hbreak hnum hindent hcolumn
      have hnogap : c = ':' → isGap (text ++ tail).head? = false := by
        rintro rfl
        have hgap := hcolon.resolve_left (by decide)
        rw [Printer.isGap, Bool.or_eq_false_iff] at hgap
        cases text with
        | nil => exact absurd hgap.1 (by decide)
        | cons d text => exact hgap.1
      have hgo : ∃ n ≤ 2 * text.length, ∃ stop', PlainGoes indent began n
          ⟨c :: (blanks.reverse ++ done), mark.along 1, .spaces [], true⟩
          ⟨text ++ tail, mark.along 1⟩
          ⟨text.reverse ++ c :: (blanks.reverse ++ done), stop', .spaces [], true⟩
          ⟨tail, (mark.along 1).along text.length⟩ := by
        refine ih _ _ [] true (fun h => hlast ?_) (fun _ => rfl) (fun h => nomatch h) hlater
          (Nat.succ_ne_zero _)
        rw [List.getLast?_cons, h, Option.getD_some]
      obtain ⟨n, hn, stop', hgo⟩ := hgo
      refine ⟨n + (1 + m), by omega, stop', ?_⟩
      rw [List.reverse_cons, List.append_assoc]
      exact (hword.trans (plainGoes_word hblank hbreak hnogap)).trans hgo

/-! ## Whole scalars -/

/-- What the reading of a plain scalar comes to in the end is what it gives. -/
theorem plain_of_goes {indent : Int} {n k : Nat} {state state' : Plain} {cursor cursor' : Cursor}
    (hgo : PlainGoes (indent + 1) mark n ⟨[], mark, .spaces [], true⟩ ⟨text, mark⟩ state cursor)
    (hend : ∀ fuel, plainFrom false (indent + 1) mark (fuel + k) state cursor = .ok (state', cursor'))
    (hfuel : n + k ≤ 2 * text.length + 2) :
    plain false indent ⟨text, mark⟩ =
      .ok (⟨.scalar state'.done.reverse .plain, mark, state'.stop⟩, state'.gap.broken, cursor') := by
  obtain ⟨fuel, hfuel⟩ : ∃ fuel, 2 * text.length + 2 = fuel + k + n :=
    ⟨2 * text.length + 2 - k - n, by omega⟩
  have hrun : plainFrom false (indent + 1) mark (2 * text.length + 2) ⟨[], mark, Gap.none, true⟩
      ⟨text, mark⟩ = .ok (state', cursor') := by
    rw [hfuel]
    exact (hgo _).trans (hend fuel)
  simp only [plain, hrun]
  rfl

theorem plain_key {indent : Int} (htext : ∀ c ∈ text, isBlank c = false ∧ isBreak c = false ∧ c ≠ ':') :
    ∃ stop', plain false indent ⟨text ++ ':' :: ' ' :: tail, mark⟩ =
      .ok (⟨.scalar text .plain, mark, stop'⟩, false, ⟨':' :: ' ' :: tail, mark.along text.length⟩) := by
  obtain ⟨stop', hgo⟩ : ∃ stop', PlainGoes (indent + 1) mark text.length
      ⟨[], mark, .spaces [], true⟩ ⟨text ++ ':' :: ' ' :: tail, mark⟩
      ⟨text.reverse ++ [], stop', .spaces [], true⟩ ⟨':' :: ' ' :: tail, mark.along text.length⟩ :=
    plainGoes_key htext
  have hend (fuel : Nat) : plainFrom false (indent + 1) mark (fuel + 1)
      ⟨text.reverse ++ [], stop', .spaces [], true⟩ ⟨':' :: ' ' :: tail, mark.along text.length⟩ =
      .ok (⟨text.reverse ++ [], stop', .spaces [], true⟩,
        ⟨':' :: ' ' :: tail, mark.along text.length⟩) := by
    rw [plainFrom]
    simp [isBlank, isBreak, colonMisplaced, plainEnds, sees, peek, ahead, isGap]
  refine ⟨stop', (plain_of_goes hgo hend ?_).trans ?_⟩
  · simp only [List.length_append, List.length_cons]
    omega
  · simp [Gap.spaces]

theorem plainGoes_newline : PlainGoes indent began 2 ⟨done, stop, .spaces [], true⟩ ⟨'\n' :: tail, mark⟩
    ⟨done, stop, ⟨true, [], ['\n'], []⟩, false⟩ ⟨tail, ⟨mark.index + 1, mark.line + 1, 0⟩⟩ := by
  intro fuel
  rw [plainFrom]
  simp only [isBlank, isBreak, if_true]
  rw [plainFrom]
  simp [atBlank, atBreak, peek, Gap.step, Gap.spaces, advanceLine, breakText, isBlank, isBreak]

theorem plainFrom_newline {value : List Char} (fuel : Nat)
    (htail : ∀ c, tail.head? = some c → isBlank c = false ∧ isBreak c = false) :
    plainFrom false 1 began (fuel + 3) ⟨value, stop, .spaces [], true⟩ ⟨'\n' :: tail, mark⟩ =
      .ok (⟨value, stop, ⟨true, [], ['\n'], []⟩, false⟩, ⟨tail, ⟨mark.index + 1, mark.line + 1, 0⟩⟩) := by
  have hpast : ∀ m : Mark, (Cursor.mk tail m).atBlank = false ∧ (Cursor.mk tail m).atBreak = false := by
    intro m
    cases tail with
    | nil => exact ⟨rfl, rfl⟩
    | cons c tail => exact htail c rfl
  refine (plainGoes_newline (fuel + 1)).trans ?_
  rw [plainFrom]
  simp [hpast]

theorem plain_line (hne : text ≠ []) (hplain : Printer.allowsPlain text = true) (hcolumn : mark.column ≠ 0)
    (htail : ∀ c, tail.head? = some c → isBlank c = false ∧ isBreak c = false) :
    ∃ stop', plain false 0 ⟨text ++ '\n' :: tail, mark⟩ =
      .ok (⟨.scalar text .plain, mark, stop'⟩, true,
        ⟨tail, ⟨mark.index + text.length + 1, mark.line + 1, 0⟩⟩) := by
  obtain ⟨c, rest, rfl⟩ := List.exists_cons_of_ne_nil hne
  obtain ⟨hprint, hline, -, hlast, hlooks⟩ := Printer.isPlain_of_allowsPlain hplain
  obtain ⟨-, -, hopens, hfirst, hrest⟩ := Printer.first_of_not_indicator hlooks
  have hindicator : hasIndicator 'a' (c :: rest) = false := by
    simp only [hasIndicator, hrest, Bool.or_false, Bool.or_eq_false_iff, Bool.and_eq_false_iff]
    refine ⟨?_, .inr (by decide)⟩
    by_cases hc : c = ':'
    · exact .inr (hfirst (.inr (.inl hc)))
    · exact .inl (beq_eq_false_iff_ne.2 hc)
  obtain ⟨n, hn, stop', hgo⟩ : ∃ n ≤ 2 * (c :: rest).length, ∃ stop', PlainGoes 1 mark n
      ⟨[], mark, .spaces [], true⟩ ⟨c :: rest ++ '\n' :: tail, mark⟩
      ⟨(c :: rest).reverse ++ ([].reverse ++ []), stop', .spaces [], true⟩
      ⟨'\n' :: tail, mark.along (c :: rest).length⟩ :=
    plainGoes_line hindicator hprint hline hlast (fun _ => rfl) (fun h => nomatch h) (by omega) hcolumn
  refine ⟨stop', (plain_of_goes hgo (fun fuel => plainFrom_newline fuel htail) ?_).trans ?_⟩
  · simp only [List.length_append, List.length_cons] at hn ⊢
    omega
  · simp [Mark.along]

end Scalar

end DirLock.Yaml
