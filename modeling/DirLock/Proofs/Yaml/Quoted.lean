import DirLock.Proofs.Text.Utf8
import DirLock.Proofs.Yaml.Plain
import Mathlib.Algebra.Group.Nat.Defs

/-!
# Quoted scalars read back

Between quotes too spaces are held back until a word begins or the scalar ends. In single quotes the
breaks are held back with them, and only a quote is written otherwise than it is; in double quotes what
is not written as it is has an escape.
-/

namespace DirLock.Yaml

namespace Scalar

open Cursor
open Printer (hasPair isPrintable isSpace singleQuoted indentation doubleQuotedChar escape upperDigits)

def Place.text : Place → List Char
  | .word => []
  | .gap held => held.text

/-- No line has ended since the last word. -/
def Place.OnLine : Place → Prop
  | .word => True
  | .gap held => held.broken = false ∧ held.more = []

/-- A line has ended since the last word, in a break that stands for itself. -/
def Place.Broken : Place → Prop
  | .word => False
  | .gap held => held.broken = true ∧ held.first ≠ [] ∧ held.first.head? ≠ some '\n'

/-- Reading a quoted scalar goes on from the first state to the second in so many steps. -/
def QuotedGoes (single : Bool) (began : Mark) (steps : Nat) (done : List Char) (place : Place)
    (cursor : Cursor) (done' : List Char) (place' : Place) (cursor' : Cursor) : Prop :=
  ∀ fuel, quotedFrom single began (fuel + steps) done place cursor =
    quotedFrom single began fuel done' place' cursor'

/-- Reading a quoted scalar ends in this value and at this cursor after so many steps. -/
def QuotedEnds (single : Bool) (began : Mark) (steps : Nat) (done : List Char) (place : Place)
    (cursor : Cursor) (value : List Char) (cursor' : Cursor) : Prop :=
  ∀ fuel, quotedFrom single began (fuel + steps) done place cursor = .ok (value, cursor')

section

variable {single : Bool} {began mark : Mark} {done done' rest tail text value : List Char}
  {place place' : Place} {cursor cursor' cursor'' : Cursor} {c : Char} {m n : Nat}

theorem QuotedGoes.refl : QuotedGoes single began 0 done place cursor done place cursor :=
  fun _ => rfl

theorem QuotedGoes.trans {done'' : List Char} {place'' : Place}
    (h : QuotedGoes single began m done place cursor done' place' cursor')
    (h' : QuotedGoes single began n done' place' cursor' done'' place'' cursor'') :
    QuotedGoes single began (n + m) done place cursor done'' place'' cursor'' := by
  intro fuel
  rw [← Nat.add_assoc, h, h']

theorem QuotedGoes.ends (h : QuotedGoes single began m done place cursor done' place' cursor')
    (h' : QuotedEnds single began n done' place' cursor' value cursor'') :
    QuotedEnds single began (n + m) done place cursor value cursor'' := by
  intro fuel
  rw [← Nat.add_assoc, h, h']

theorem quotedGoes_space (hplace : place.OnLine) : ∃ n ≤ 2, ∃ place',
    place'.OnLine ∧ place'.text = place.text ++ [' '] ∧
      QuotedGoes single began n done place ⟨' ' :: rest, mark⟩ done place' ⟨rest, mark.along 1⟩ := by
  have hgap (gap : Gap) (hgap : gap.broken = false) :
      QuotedGoes single began 1 done (.gap gap) ⟨' ' :: rest, mark⟩ done
        (.gap { gap with blanks := gap.blanks ++ [' '] }) ⟨rest, mark.along 1⟩ := by
    intro fuel
    rw [quotedFrom]
    simp [atBlank, peek, isBlank, Gap.step, hgap, advance_cons]
  cases place with
  | word =>
    refine ⟨2, Nat.le_refl 2, .gap (.spaces [' ']), ⟨rfl, rfl⟩, rfl, fun fuel => ?_⟩
    rw [quotedFrom]
    have hquote : (' ' == '\'') = false ∧ (' ' == '"') = false ∧ isBlank ' ' = true := by decide
    simp only [hquote, Bool.and_false, Bool.true_or, if_true, Bool.false_eq_true, if_false]
    exact hgap Gap.none rfl fuel
  | gap gap =>
    have hbroken : gap.broken = false := hplace.1
    refine ⟨1, by decide, .gap { gap with blanks := gap.blanks ++ [' '] }, hplace, ?_,
      hgap gap hbroken⟩
    simp [Place.text, Gap.text, hbroken]

theorem quotedGoes_enter (hblank : isBlank c = false) (hbreak : isBreak c = false)
    (hcolumn : mark.column ≠ 0) (place : Place) : ∃ n ≤ 1,
      QuotedGoes single began n done place ⟨c :: rest, mark⟩ (place.text.reverse ++ done) .word
        ⟨c :: rest, mark⟩ := by
  cases place with
  | word => exact ⟨0, Nat.zero_le 1, .refl⟩
  | gap gap =>
    refine ⟨1, Nat.le_refl 1, fun fuel => ?_⟩
    rw [quotedFrom]
    simp [atBlank, atBreak, peek, hblank, hbreak, atDocumentIndicator, atIndicator, hcolumn, atEnd,
      Place.text]

theorem quotedGoes_char (hblank : isBlank c = false) (hbreak : isBreak c = false)
    (hsingle : single = true → c ≠ '\'') (hdouble : single = false → c ≠ '"' ∧ c ≠ '\\') :
    QuotedGoes single began 1 done .word ⟨c :: rest, mark⟩ (c :: done) .word ⟨rest, mark.along 1⟩ := by
  intro fuel
  rw [quotedFrom]
  cases single with
  | true => simp [hblank, hbreak, hsingle rfl, advance_cons]
  | false => simp [hblank, hbreak, hdouble rfl, advance_cons]

/-! ## Double quotes -/

theorem hexCode?_append {digits : List Char} (value : Nat) (hlength : digits.length = m) :
    hexCode? (m + n) value (digits ++ rest) =
      (hexCode? m value digits).bind fun value => hexCode? n value rest := by
  induction digits generalizing m value with
  | nil =>
    obtain rfl : m = 0 := hlength.symm
    rw [Nat.zero_add]
    rfl
  | cons d digits ih =>
    obtain rfl : m = digits.length + 1 := hlength.symm
    rw [Nat.add_right_comm, List.cons_append, hexCode?, hexCode?]
    cases Text.hexValue? d with
    | none => rfl
    | some digit => exact ih _ rfl

theorem hexValue?_upper {digit : Nat} (h : digit < 16) :
    Text.hexValue? (Text.hexDigit digit).toUpper = some digit := by
  revert digit
  decide

theorem length_upperDigits (width code : Nat) : (upperDigits width code).length = width := by
  induction width generalizing code with
  | zero => rfl
  | succ width ih =>
    simp only [upperDigits, List.length_map] at ih
    simp [upperDigits, Text.hexPadded, ih]

theorem hexCode?_upperDigits {width code : Nat} (hcode : code < 16 ^ width) :
    hexCode? width 0 (upperDigits width code ++ rest) = some code := by
  have hdigits : hexCode? width 0 (upperDigits width code) = some code := by
    induction width generalizing code with
    | zero =>
      obtain rfl : code = 0 := by omega
      rfl
    | succ width ih =>
      have hhigh : code / 16 < 16 ^ width := by
        rw [Nat.pow_succ] at hcode
        omega
      have hlast : upperDigits (width + 1) code =
          upperDigits width (code / 16) ++ [(Text.hexDigit (code % 16)).toUpper] := by
        simp [upperDigits, Text.hexPadded]
      rw [hlast, hexCode?_append 0 (length_upperDigits width _), ih hhigh, Option.bind_some, hexCode?,
        hexValue?_upper (Nat.mod_lt _ (by decide))]
      simp only [hexCode?, Option.some.injEq]
      omega
  have happend : hexCode? (width + 0) 0 (upperDigits width code ++ rest) = _ :=
    hexCode?_append 0 (length_upperDigits width code)
  rw [Nat.add_zero, hdigits] at happend
  exact happend

theorem readEscape_digits {letter : Char} {width : Nat} (hletter : escaped? letter = none)
    (hwidth : codeLength? letter = some width) (hcode : c.toNat < 16 ^ width) :
    ∃ mark', mark'.column ≠ 0 ∧
      readEscape began ⟨'\\' :: letter :: (upperDigits width c.toNat ++ rest), mark⟩ =
        .ok (c, ⟨rest, mark'⟩) := by
  have hvalid : ((0xd800 ≤ c.toNat && c.toNat ≤ 0xdfff) || decide (c.toNat > 0x10ffff)) = false := by
    have := Text.toNat_valid c
    simp only [Bool.or_eq_false_iff, Bool.and_eq_false_iff, decide_eq_false_iff_not]
    omega
  have hafter : Cursor.advanceBy ⟨upperDigits width c.toNat ++ rest, mark.along 2⟩ width =
      ⟨rest, (mark.along 2).along width⟩ := by
    have happend := advanceBy_append (upperDigits width c.toNat) rest (mark.along 2)
    rwa [length_upperDigits] at happend
  refine ⟨(mark.along 2).along width, ?_, ?_⟩
  · simp only [Mark.along]
    omega
  · have hdigits : Cursor.advanceBy ⟨'\\' :: letter :: (upperDigits width c.toNat ++ rest), mark⟩ 2 =
        ⟨upperDigits width c.toNat ++ rest, mark.along 2⟩ := rfl
    simp only [readEscape, ahead, List.getElem?_cons_succ, List.getElem?_cons_zero, hletter, hwidth,
      hdigits, hexCode?_upperDigits hcode, hvalid, Bool.false_eq_true, if_false, hafter,
      Char.ofNat_toNat]

theorem readEscape_escape (c : Char) : ∃ letter after, escape c = '\\' :: letter :: after ∧
    isBreak letter = false ∧ ∃ mark', mark'.column ≠ 0 ∧
      readEscape began ⟨escape c ++ rest, mark⟩ = .ok (c, ⟨rest, mark'⟩) := by
  have hlong : c.toNat < 16 ^ 8 := by
    have := Text.toNat_valid c
    omega
  unfold escape
  split
  case h_16 =>
    dsimp only
    split
    case isTrue hbyte => exact ⟨'x', _, rfl, rfl, readEscape_digits rfl rfl (by omega)⟩
    split
    case isTrue hword => exact ⟨'u', _, rfl, rfl, readEscape_digits rfl rfl (by omega)⟩
    exact ⟨'U', _, rfl, rfl, readEscape_digits rfl rfl hlong⟩
  all_goals exact ⟨_, _, rfl, rfl, mark.along 2, Nat.succ_ne_zero _, rfl⟩

theorem quotedGoes_escape (c : Char) : ∃ mark', mark'.column ≠ 0 ∧
    QuotedGoes false began 1 done .word ⟨escape c ++ rest, mark⟩ (c :: done) .word ⟨rest, mark'⟩ := by
  obtain ⟨letter, after, hescape, hletter, mark', hcolumn, hread⟩ :=
    @readEscape_escape began mark rest c
  refine ⟨mark', hcolumn, fun fuel => ?_⟩
  rw [hescape] at hread ⊢
  simp only [List.cons_append] at hread ⊢
  have hslash : isBlank '\\' = false ∧ isBreak '\\' = false := by decide
  rw [quotedFrom, hread]
  simp [hslash, atBreak, peek, advance_cons, hletter, Bind.bind, Except.bind]

/-- Whatever stands before it in its line, a character that is written as it is goes into the value
or is held back. -/
theorem quotedGoes_along (hplace : place.OnLine) (hcolumn : mark.column ≠ 0)
    (hprint : isPrintable c = true) (hbreak : isBreak c = false) (hquote : c ≠ '"') (hslash : c ≠ '\\') :
    ∃ n ≤ 2, ∃ done' place', place'.OnLine ∧
      done'.reverse ++ place'.text = done.reverse ++ place.text ++ [c] ∧
      QuotedGoes false began n done place ⟨c :: rest, mark⟩ done' place' ⟨rest, mark.along 1⟩ := by
  by_cases hc : c = ' '
  · subst hc
    obtain ⟨n, hn, place', hplace', htext, hgo⟩ : ∃ n ≤ 2, ∃ place' : Place, place'.OnLine ∧
        place'.text = place.text ++ [' '] ∧ QuotedGoes false began n done place
          ⟨' ' :: rest, mark⟩ done place' ⟨rest, mark.along 1⟩ := quotedGoes_space hplace
    exact ⟨n, hn, done, place', hplace', by rw [htext, List.append_assoc], hgo⟩
  · have hblank : isBlank c = false := by
      rw [Printer.isBlank_of_isPrintable hprint]
      exact beq_eq_false_iff_ne.2 hc
    obtain ⟨n, hn, henter⟩ : ∃ n ≤ 1, QuotedGoes false began n done place ⟨c :: rest, mark⟩
        (place.text.reverse ++ done) .word ⟨c :: rest, mark⟩ :=
      quotedGoes_enter hblank hbreak hcolumn place
    refine ⟨1 + n, by omega, c :: (place.text.reverse ++ done), .word, trivial, ?_, henter.trans ?_⟩
    · simp [Place.text]
    · exact quotedGoes_char hblank hbreak (fun h => nomatch h) fun _ => ⟨hquote, hslash⟩

theorem quotedGoes_doubleQuotedChar (c : Char) (hplace : place.OnLine) (hcolumn : mark.column ≠ 0) :
    ∃ n ≤ 2 * (doubleQuotedChar c).length, ∃ done' place' mark', place'.OnLine ∧ mark'.column ≠ 0 ∧
      done'.reverse ++ place'.text = done.reverse ++ place.text ++ [c] ∧
      QuotedGoes false began n done place ⟨doubleQuotedChar c ++ rest, mark⟩ done' place'
        ⟨rest, mark'⟩ := by
  cases hescaped : !isPrintable c || isBreak c || c == '"' || c == '\\' with
  | true =>
    obtain ⟨letter, after, hescape, -⟩ := @readEscape_escape began mark rest c
    obtain ⟨m, hm, henter⟩ : ∃ m ≤ 1, QuotedGoes false began m done place
        ⟨'\\' :: (letter :: after ++ rest), mark⟩ (place.text.reverse ++ done) .word
        ⟨'\\' :: (letter :: after ++ rest), mark⟩ :=
      quotedGoes_enter (by decide) (by decide) hcolumn place
    obtain ⟨mark', hcolumn', hgo⟩ := @quotedGoes_escape began mark (place.text.reverse ++ done) rest c
    rw [hescape] at hgo
    rw [doubleQuotedChar, hescaped, if_pos rfl, hescape]
    refine ⟨1 + m, ?_, c :: (place.text.reverse ++ done), .word, mark', trivial, hcolumn', ?_,
      henter.trans hgo⟩
    · simp only [List.length_cons]
      omega
    · simp [Place.text]
  | false =>
    rw [doubleQuotedChar, hescaped, if_neg Bool.false_ne_true]
    simp only [Bool.or_eq_false_iff, Bool.not_eq_false', beq_eq_false_iff_ne] at hescaped
    obtain ⟨⟨⟨hprint, hbreak⟩, hquote⟩, hslash⟩ := hescaped
    obtain ⟨n, hn, done', place', hplace', hvalue, hgo⟩ :=
      @quotedGoes_along began mark done rest place c hplace hcolumn hprint hbreak hquote hslash
    exact ⟨n, hn, done', place', mark.along 1, hplace', Nat.succ_ne_zero _, hvalue, hgo⟩

theorem quotedEnds_double (hplace : place.OnLine) (hcolumn : mark.column ≠ 0) :
    ∃ n ≤ 2 * (text.flatMap doubleQuotedChar).length + 2, ∃ mark',
      QuotedEnds false began n done place ⟨text.flatMap doubleQuotedChar ++ '"' :: tail, mark⟩
        (done.reverse ++ place.text ++ text) ⟨tail, mark'⟩ := by
  induction text generalizing done place mark with
  | nil =>
    obtain ⟨n, hn, henter⟩ : ∃ n ≤ 1, QuotedGoes false began n done place ⟨'"' :: tail, mark⟩
        (place.text.reverse ++ done) .word ⟨'"' :: tail, mark⟩ :=
      quotedGoes_enter (by decide) (by decide) hcolumn place
    refine ⟨1 + n, by omega, mark.along 1, henter.ends fun fuel => ?_⟩
    rw [quotedFrom]
    simp [advance_cons]
  | cons c text ih =>
    rw [List.flatMap_cons, List.append_assoc, List.length_append]
    obtain ⟨m, hm, done', place', next, hplace', hnext, hvalue, hgo⟩ :=
      @quotedGoes_doubleQuotedChar began mark done (text.flatMap doubleQuotedChar ++ '"' :: tail) place
        c hplace hcolumn
    obtain ⟨n, hn, mark', hrest⟩ := @ih next done' place' hplace' hnext
    refine ⟨n + m, by omega, mark', ?_⟩
    rw [hvalue, List.append_assoc _ [c], List.singleton_append] at hrest
    exact hgo.ends hrest

/-! ## Single quotes -/

theorem quotedGoes_break (hplace : place.OnLine ∧ place.text = [] ∨ place.Broken)
    (hc : c = '\u2028' ∨ c = '\u2029') : ∃ n ≤ 2, ∃ place' next,
      place'.Broken ∧ place'.text = place.text ++ [c] ∧
      QuotedGoes true began n done place ⟨c :: rest, mark⟩ done place' ⟨rest, next⟩ := by
  have hbreak : isBlank c = false ∧ isBreak c = true := by
    rcases hc with rfl | rfl <;> decide
  have hself : c ≠ '\n' ∧ c ≠ '\r' := by
    rcases hc with rfl | rfl <;> decide
  have hquote : (c == '\'') = false := by
    rcases hc with rfl | rfl <;> decide
  have htext (mark : Mark) : Cursor.breakText ⟨c :: rest, mark⟩ = [c] := if_pos hc
  have hnext (mark : Mark) : Cursor.advanceLine ⟨c :: rest, mark⟩ =
      ⟨rest, ⟨mark.index + 1, mark.line + 1, 0⟩⟩ := by
    simp [advanceLine, hself, hbreak]
  have hgap (held : Gap) : QuotedGoes true began 1 done (.gap held) ⟨c :: rest, mark⟩ done
      (.gap (held.step ⟨c :: rest, mark⟩).1) ⟨rest, ⟨mark.index + 1, mark.line + 1, 0⟩⟩ := by
    intro fuel
    rw [quotedFrom]
    cases h : held.broken <;> simp [atBlank, atBreak, peek, hbreak, Gap.step, h, hnext]
  cases place with
  | word =>
    refine ⟨1 + 1, Nat.le_refl 2, .gap (Gap.none.step ⟨c :: rest, mark⟩).1, _, ?_, ?_,
      QuotedGoes.trans (fun fuel => ?_) (hgap Gap.none)⟩
    · simp [Place.Broken, Gap.step, atBlank, peek, hbreak, Gap.none, htext, hself]
    · simp [Place.text, Gap.text, Gap.step, atBlank, peek, hbreak, Gap.none, htext, hself]
    · rw [quotedFrom]
      simp [hbreak, hquote]
  | gap held =>
    refine ⟨1, by decide, .gap (held.step ⟨c :: rest, mark⟩).1, _, ?_, ?_, hgap held⟩
    · rcases hplace with ⟨⟨honline, hmore⟩, -⟩ | ⟨hbroken, hnonempty, hhead⟩
      · simp [Place.Broken, Gap.step, atBlank, peek, hbreak, honline, htext, hself]
      · simp [Place.Broken, Gap.step, atBlank, peek, hbreak, hbroken, hnonempty, hhead]
    · rcases hplace with ⟨⟨honline, hmore⟩, hnone⟩ | ⟨hbroken, hnonempty, hhead⟩
      · rw [hnone]
        simp [Place.text, Gap.text, Gap.step, atBlank, peek, hbreak, honline, hmore, htext, hself]
      · simp [Place.text, Gap.text, Gap.step, atBlank, peek, hbreak, hbroken, hhead, htext]

theorem quotedGoes_before {broken : Bool} (hbroken : broken = true → place.Broken)
    (hcolumn : broken = false → mark.column ≠ 0) :
    ∃ n ≤ 2 * (if broken then indentation else []).length, ∃ next, next.column ≠ 0 ∧
      QuotedGoes true began n done place ⟨(if broken then indentation else []) ++ rest, mark⟩ done place
        ⟨rest, next⟩ := by
  cases broken with
  | false => exact ⟨0, Nat.zero_le _, mark, hcolumn rfl, .refl⟩
  | true =>
    cases place with
    | word => exact (hbroken rfl).elim
    | gap held =>
      have hspace (rest : List Char) (mark : Mark) : QuotedGoes true began 1 done (.gap held)
          ⟨' ' :: rest, mark⟩ done (.gap held) ⟨rest, mark.along 1⟩ := by
        intro fuel
        have hgone : held.broken = true := (hbroken rfl).1
        rw [quotedFrom]
        simp [atBlank, peek, isBlank, Gap.step, hgone, advance_cons]
      exact ⟨1 + 1, by decide, (mark.along 1).along 1, Nat.succ_ne_zero _,
        (hspace (' ' :: rest) mark).trans (hspace rest (mark.along 1))⟩

theorem quotedGoes_singleQuotedChar (hblank : isBlank c = false) (hbreak : isBreak c = false)
    (hcolumn : mark.column ≠ 0) (place : Place) :
    ∃ n ≤ 2 * (if c = '\'' then ['\'', '\''] else [c]).length, ∃ next, next.column ≠ 0 ∧
      QuotedGoes true began n done place ⟨(if c = '\'' then ['\'', '\''] else [c]) ++ rest, mark⟩
        (c :: (place.text.reverse ++ done)) .word ⟨rest, next⟩ := by
  by_cases hc : c = '\''
  · subst hc
    obtain ⟨n, hn, henter⟩ : ∃ n ≤ 1, QuotedGoes true began n done place
        ⟨'\'' :: '\'' :: rest, mark⟩ (place.text.reverse ++ done) .word
        ⟨'\'' :: '\'' :: rest, mark⟩ := quotedGoes_enter hblank hbreak hcolumn place
    have hpair : QuotedGoes true began 1 (place.text.reverse ++ done) .word
        ⟨'\'' :: '\'' :: rest, mark⟩ ('\'' :: (place.text.reverse ++ done)) .word
        ⟨rest, (mark.along 1).along 1⟩ := by
      intro fuel
      rw [quotedFrom]
      rfl
    refine ⟨1 + n, ?_, _, Nat.succ_ne_zero _, henter.trans hpair⟩
    rw [if_pos rfl, List.length_cons, List.length_singleton]
    omega
  · rw [if_neg hc]
    obtain ⟨n, hn, henter⟩ : ∃ n ≤ 1, QuotedGoes true began n done place ⟨c :: rest, mark⟩
        (place.text.reverse ++ done) .word ⟨c :: rest, mark⟩ :=
      quotedGoes_enter hblank hbreak hcolumn place
    refine ⟨1 + n, ?_, mark.along 1, Nat.succ_ne_zero _, henter.trans ?_⟩
    · rw [List.length_singleton]
      omega
    · exact quotedGoes_char hblank hbreak (fun _ => hc) (fun h => nomatch h)

/-- What is written of a character of a word, behind a line that was broken or not. -/
def singleQuotedWord (broken : Bool) (c : Char) : List Char :=
  (if broken then indentation else []) ++ (if c = '\'' then ['\'', '\''] else [c])

theorem quotedGoes_singleQuotedWord {broken : Bool} (hblank : isBlank c = false) (hbreak : isBreak c = false)
    (hbroken : broken = true → place.Broken) (hline : broken = false → mark.column ≠ 0) :
    ∃ n ≤ 2 * (singleQuotedWord broken c).length, ∃ next, next.column ≠ 0 ∧
      QuotedGoes true began n done place ⟨singleQuotedWord broken c ++ rest, mark⟩
        (c :: (place.text.reverse ++ done)) .word ⟨rest, next⟩ := by
  obtain ⟨k, hk, next, hnext, hbefore⟩ := @quotedGoes_before began mark done
    ((if c = '\'' then ['\'', '\''] else [c]) ++ rest) place broken hbroken hline
  obtain ⟨m, hm, next', hnext', hchar⟩ := @quotedGoes_singleQuotedChar began next done rest c hblank hbreak hnext place
  refine ⟨m + k, ?_, next', hnext', ?_⟩
  · rw [singleQuotedWord, List.length_append]
    omega
  · rw [singleQuotedWord, List.append_assoc]
    exact hbefore.trans hchar

theorem hasPair_tail {p q : Char → Bool} (h : hasPair p q (c :: text) = false) :
    hasPair p q text = false := by
  cases text with
  | nil => rfl
  | cons d text => exact (Bool.or_eq_false_iff.1 h).2

theorem hasPair_head {p q : Char → Bool} (h : hasPair p q (c :: text) = false) (hc : p c = true) :
    ∀ d, text.head? = some d → q d = false := by
  intro d hd
  cases text with
  | nil => exact nomatch hd
  | cons e text =>
    obtain rfl : e = d := Option.some.inj hd
    have hpair := (Bool.or_eq_false_iff.1 h).1
    rwa [hc, Bool.true_and] at hpair

theorem quotedEnds_single {broken : Bool} (hprint : ∀ c ∈ text, isPrintable c = true)
    (hfeed : '\n' ∉ text) (hspace : hasPair isSpace isBreak text = false)
    (hindent : hasPair isBreak isSpace text = false)
    (hline : broken = false → place.OnLine ∧ mark.column ≠ 0 ∧
      (place.text ≠ [] → ∀ c, text.head? = some c → isBreak c = false))
    (hbroken : broken = true → place.Broken ∧ text.head? ≠ some ' ') (htail : tail.head? ≠ some '\'') :
    ∃ n ≤ 2 * (singleQuoted broken text).length + 2, ∃ mark',
      QuotedEnds true began n done place ⟨singleQuoted broken text ++ tail, mark⟩
        (done.reverse ++ place.text ++ text) ⟨tail, mark'⟩ := by
  induction text generalizing broken done place mark with
  | nil =>
    obtain ⟨m, hm, next, hnext, hbefore⟩ := @quotedGoes_before began mark done ('\'' :: tail) place
      broken (fun h => (hbroken h).1) (fun h => (hline h).2.1)
    obtain ⟨n, hn, henter⟩ : ∃ n ≤ 1, QuotedGoes true began n done place ⟨'\'' :: tail, next⟩
        (place.text.reverse ++ done) .word ⟨'\'' :: tail, next⟩ :=
      quotedGoes_enter (by decide) (by decide) hnext place
    refine ⟨1 + n + m, ?_, next.along 1, ?_⟩
    · rw [singleQuoted, List.length_append, List.length_singleton]
      omega
    · rw [singleQuoted, List.append_assoc]
      refine hbefore.ends (henter.ends fun fuel => ?_)
      rw [quotedFrom]
      simp [advance_cons, htail]
  | cons c text ih =>
    have hbreaks := hasPair_tail hspace
    have hindents := hasPair_tail hindent
    replace ih := fun broken done place mark => @ih mark done place broken
      (fun d hd => hprint d (List.mem_cons_of_mem _ hd))
      (fun hd => hfeed (List.mem_cons_of_mem _ hd)) hbreaks hindents
    cases hbreak : isBreak c with
    | true =>
      have hc := (Printer.isBreak_cases (hprint c List.mem_cons_self) hbreak).resolve_left
        fun h => hfeed (h ▸ List.mem_cons_self)
      have hplace : place.OnLine ∧ place.text = [] ∨ place.Broken := by
        cases broken with
        | false =>
          refine .inl ⟨(hline rfl).1, Decidable.byContradiction fun hheld => ?_⟩
          have hnobreak := (hline rfl).2.2 hheld c rfl
          exact Bool.false_ne_true (hnobreak.symm.trans hbreak)
        | true => exact .inr (hbroken rfl).1
      obtain ⟨m, hm, place', next, hplace', htext, hgo⟩ :=
        @quotedGoes_break began mark done (singleQuoted true text ++ tail) place c hplace hc
      obtain ⟨n, hn, mark', hrest⟩ := ih true done place' next (fun h => nomatch h)
        fun _ => ⟨hplace', fun h => absurd (hasPair_head hindent hbreak _ h) (by decide)⟩
      refine ⟨n + m, ?_, mark', ?_⟩
      · rw [singleQuoted, if_pos hbreak, List.length_cons]
        omega
      · rw [htext, ← List.append_assoc, List.append_assoc _ [c], List.singleton_append] at hrest
        rw [singleQuoted, if_pos hbreak]
        exact hgo.ends hrest
    | false =>
      by_cases hc : c = ' '
      · subst hc
        have hnobreak : broken = false := by
          cases broken with
          | false => rfl
          | true => exact absurd rfl (hbroken rfl).2
        subst hnobreak
        obtain ⟨honline, hcolumn, -⟩ := hline rfl
        obtain ⟨m, hm, place', hplace', htext, hgo⟩ : ∃ m ≤ 2, ∃ place' : Place, place'.OnLine ∧
            place'.text = place.text ++ [' '] ∧ QuotedGoes true began m done place
              ⟨' ' :: (singleQuoted false text ++ tail), mark⟩ done place'
              ⟨singleQuoted false text ++ tail, mark.along 1⟩ := quotedGoes_space honline
        obtain ⟨n, hn, mark', hrest⟩ := ih false done place' (mark.along 1)
          (fun _ => ⟨hplace', Nat.succ_ne_zero _, fun _ => hasPair_head hspace rfl⟩)
          (fun h => nomatch h)
        refine ⟨n + m, ?_, mark', ?_⟩
        · rw [singleQuoted, hbreak, if_neg Bool.false_ne_true, if_pos rfl, List.length_cons]
          omega
        · rw [htext, ← List.append_assoc, List.append_assoc _ [' '], List.singleton_append] at hrest
          rw [singleQuoted, hbreak, if_neg Bool.false_ne_true, if_pos rfl]
          exact hgo.ends hrest
      · have hblank : isBlank c = false := by
          rw [Printer.isBlank_of_isPrintable (hprint c List.mem_cons_self)]
          exact beq_eq_false_iff_ne.2 hc
        obtain ⟨m, hm, next, hnext, hgo⟩ := @quotedGoes_singleQuotedWord began mark done
          (singleQuoted false text ++ tail) place c broken hblank hbreak (fun h => (hbroken h).1)
          (fun h => (hline h).2.1)
        obtain ⟨n, hn, mark', hrest⟩ := ih false (c :: (place.text.reverse ++ done)) .word next
          (fun _ => ⟨trivial, hnext, fun h => absurd rfl h⟩) (fun h => nomatch h)
        have hwritten : singleQuoted broken (c :: text) =
            singleQuotedWord broken c ++ singleQuoted false text := by
          rw [singleQuoted, hbreak, if_neg Bool.false_ne_true, if_neg hc]
          rfl
        refine ⟨n + m, ?_, mark', ?_⟩
        · rw [hwritten, List.length_append]
          omega
        · have hvalue : (c :: (place.text.reverse ++ done)).reverse ++ Place.word.text ++ text =
              done.reverse ++ place.text ++ c :: text := by simp [Place.text]
          rw [hwritten, List.append_assoc, ← hvalue]
          exact hgo.ends hrest

/-! ## Whole scalars -/

theorem quoted_of_ends {quote : Char}
    (hends : QuotedEnds single mark n [] .word ⟨text, mark.along 1⟩ value cursor)
    (hn : n ≤ 2 * text.length + 2) : quoted single ⟨quote :: text, mark⟩ =
      .ok (⟨.scalar value (if single then .singleQuoted else .doubleQuoted), mark, cursor.mark⟩, cursor) := by
  have hfuel : 2 * text.length + 2 = 2 * text.length + 2 - n + n := by omega
  have hrun : quotedFrom single mark (2 * text.length + 2) [] .word ⟨text, mark.along 1⟩ =
      .ok (value, cursor) := by
    rw [hfuel]
    exact hends _
  simp only [quoted, advance_cons, hrun]
  rfl

theorem quoted_double (text : List Char) : ∃ mark',
    quoted false ⟨'"' :: (text.flatMap doubleQuotedChar ++ '"' :: tail), mark⟩ =
      .ok (⟨.scalar text .doubleQuoted, mark, mark'⟩, ⟨tail, mark'⟩) := by
  obtain ⟨n, hn, mark', hends⟩ := @quotedEnds_double mark (mark.along 1) [] tail text .word trivial
    (Nat.succ_ne_zero _)
  refine ⟨mark', quoted_of_ends hends ?_⟩
  rw [List.length_append]
  omega

theorem quoted_single (hsingle : Printer.allowsSingle text = true) (hfeed : '\n' ∉ text)
    (htail : tail.head? ≠ some '\'') : ∃ mark',
    quoted true ⟨'\'' :: (singleQuoted false text ++ tail), mark⟩ =
      .ok (⟨.scalar text .singleQuoted, mark, mark'⟩, ⟨tail, mark'⟩) := by
  simp only [Printer.allowsSingle, Bool.not_eq_true', Bool.or_eq_false_iff] at hsingle
  obtain ⟨hescapes, hindent⟩ := hsingle
  have hspace : hasPair isSpace isBreak text = false := (Bool.or_eq_false_iff.1 hescapes).1
  obtain ⟨n, hn, mark', hends⟩ := @quotedEnds_single mark (mark.along 1) [] tail text .word false
    (Printer.isPrintable_of_needsEscapes hescapes) hfeed hspace hindent
    (fun _ => ⟨trivial, Nat.succ_ne_zero _, fun h => absurd rfl h⟩) (fun h => nomatch h) htail
  refine ⟨mark', quoted_of_ends hends ?_⟩
  rw [List.length_append]
  omega

end

end Scalar

end DirLock.Yaml
