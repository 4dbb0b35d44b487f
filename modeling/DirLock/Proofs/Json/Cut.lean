import DirLock.Proofs.Json.Numeral
import DirLock.Proofs.Json.Record
import DirLock.Proofs.Text.Cut
import Mathlib.Tactic.IntervalCases
import Mathlib.Tactic.SplitIfs

/-!
# Records that were cut off

Reading an object that was cut off inside a line fails because the text ends too early, wherever in the line
that is: between the tokens, in the key, at the colon, in a text value or in one of its escapes. A number that
was cut off is a number, and it is the end of the line that is missed.
-/

namespace DirLock.Json

open Text (IsCut)

variable {α β : Type} {result : Except Failure α} {cause : Cause} {text rest short : List Char} {c : Char}

/-- Reading fails because the text ends too early. -/
def RunsOut (result : Except Failure α) : Prop := ∃ failure, result = .error failure ∧ failure.cause.isEnd = true

theorem runsOut_failAt (h : cause.isEnd = true) (rest : List Char) : RunsOut (failAt (α := α) cause rest) :=
  ⟨_, rfl, h⟩

theorem runsOut_failOn (h : cause.isEnd = true) (rest : List Char) : RunsOut (failOn (α := α) cause rest) :=
  ⟨_, rfl, h⟩

theorem RunsOut.bind (h : RunsOut result) (next : α → Except Failure β) : RunsOut (result >>= next) := by
  obtain ⟨failure, rfl, hend⟩ := h
  exact ⟨failure, rfl, hend⟩

/-! ## Text values -/

theorem byteCount_append (text rest : List Char) : byteCount (text ++ rest) = byteCount text + byteCount rest := by
  induction text with
  | nil => rw [List.nil_append, byteCount, Nat.zero_add]
  | cons c text ih => rw [List.cons_append, byteCount, byteCount, ih, Nat.add_assoc]

theorem byteCount_lt (h : IsCut short text) : byteCount short < byteCount text := by
  obtain ⟨lost, hlost, rfl⟩ := h
  cases lost with
  | nil => exact absurd rfl hlost
  | cons c lost =>
    have hpos := c.utf8Size_pos
    rw [byteCount_append, byteCount]
    omega

theorem utf8Size_hexDigit {digit : Nat} (h : digit < 16) : (Text.hexDigit digit).utf8Size = 1 := by
  revert digit
  decide

theorem byteCount_hexPadded (code : Nat) : byteCount (Text.hexPadded 4 code) = 4 := by
  have hsize (n : Nat) : (Text.hexDigit (n % 16)).utf8Size = 1 := utf8Size_hexDigit (Nat.mod_lt _ (by decide))
  simp only [Text.hexPadded, List.nil_append, byteCount_append, byteCount, hsize]

theorem escapedChar_cases (h : IsCut short (escapedChar c)) :
    short = [] ∨ short = ['\\'] ∨ ∃ digits, short = '\\' :: 'u' :: digits ∧ byteCount digits < 4 := by
  have hpair {d : Char} (h : IsCut short ['\\', d]) : short = [] ∨ short = ['\\'] := by
    rcases h.cons_cases with hnil | ⟨rest, hcons, hrest⟩
    · exact .inl hnil
    · exact .inr (hrest.eq_nil ▸ hcons)
  rw [escapedChar] at h
  split_ifs at h
  iterate 6 exact (hpair h).imp_right .inl
  · rcases h.append_cases with hfront | ⟨digits, hcons, hdigits⟩
    · exact (hpair hfront).imp_right .inl
    · exact .inr (.inr ⟨digits, hcons, byteCount_hexPadded _ ▸ byteCount_lt hdigits⟩)
  · exact .inl h.eq_nil

theorem hexEscape_runsOut (h : byteCount text < 4) : RunsOut (hexEscape text) := by
  unfold hexEscape
  rw [if_pos h]
  exact runsOut_failAt rfl []

theorem stringBody_runsOut {fuel : Nat} {done : List Char}
    (h : IsCut short (text.flatMap escapedChar ++ ['"'])) : RunsOut (stringBody fuel done short) := by
  induction text generalizing fuel done short with
  | nil =>
    obtain rfl : short = [] := h.eq_nil
    cases fuel <;> exact runsOut_failAt rfl []
  | cons c text ih =>
    cases fuel with
    | zero => exact runsOut_failAt rfl short
    | succ fuel =>
      rw [List.flatMap_cons, List.append_assoc] at h
      rcases h.append_cases with hchar | ⟨rest, rfl, hrest⟩
      · rcases escapedChar_cases hchar with rfl | rfl | ⟨digits, rfl, hdigits⟩
        · exact runsOut_failAt rfl []
        · exact RunsOut.bind (runsOut_failAt rfl []) _
        · exact RunsOut.bind (RunsOut.bind (hexEscape_runsOut hdigits) _) _
      · rw [stringBody_escapedChar]
        exact ih hrest

theorem readString_runsOut (h : IsCut short (text.flatMap escapedChar ++ ['"'])) : RunsOut (readString short) :=
  stringBody_runsOut h

theorem readText_runsOut (expected : String) (h : IsCut short (' ' :: renderString text)) :
    RunsOut (readText expected short) := by
  rcases h.cons_cases with rfl | ⟨rest, rfl, hrest⟩
  · exact runsOut_failOn rfl []
  · rw [renderString] at hrest
    rcases hrest.cons_cases with rfl | ⟨body, rfl, hbody⟩
    · exact runsOut_failOn rfl []
    · exact readString_runsOut hbody

/-! ## Numbers -/

/-- The digits that are left of a number are those of a number that is no larger. -/
theorem toDigits_of_isCut {n : Nat} {digits : List Char} (h : IsCut digits (Nat.toDigits 10 n)) (hne : digits ≠ []) :
    ∃ m ≤ n, digits = Nat.toDigits 10 m := by
  induction n using Nat.strongRecOn generalizing digits with
  | ind n ih =>
    by_cases hsmall : n < 10
    · rw [Nat.toDigits_of_lt_base hsmall] at h
      exact absurd h.eq_nil hne
    · rw [Nat.toDigits_of_base_le (by decide) (Nat.not_lt.1 hsmall)] at h
      rcases h.append_cases with hfront | ⟨rest, rfl, hrest⟩
      · obtain ⟨m, hm, hdigits⟩ := ih (n / 10) (by omega) hfront hne
        exact ⟨m, by omega, hdigits⟩
      · exact ⟨n / 10, by omega, by rw [hrest.eq_nil, List.append_nil]⟩

theorem endsNumber_nil : EndsNumber [] := fun _ h => by cases h

theorem EndsNumber.of_isCut (h : EndsNumber text) (hcut : IsCut short text) : EndsNumber short := by
  obtain ⟨lost, -, rfl⟩ := hcut
  cases short with
  | nil => exact endsNumber_nil
  | cons c short => exact h

/-! ## Lines -/

variable {key : String} {value : List Char} {first : Bool}

/-- What is left of a line and of what stands behind it: the line is cut off before its key, in its key or behind it,
or it is whole. -/
theorem line_cases (h : IsCut short (lead first ++ (line key value ++ rest))) :
    IsCut short (lead first ++ [' ', ' ', '"']) ∨
    (∃ part, short = lead first ++ ' ' :: ' ' :: '"' :: part ∧ IsCut part (key.toList.flatMap escapedChar ++ ['"'])) ∨
    (∃ part, short = lead first ++ keyed key part ∧ IsCut part (':' :: ' ' :: value)) ∨
    ∃ more, short = lead first ++ (line key value ++ more) ∧ IsCut more rest := by
  have hpieces (rest : List Char) : lead first ++ (line key value ++ rest) = (lead first ++ [' ', ' ', '"']) ++
      ((key.toList.flatMap escapedChar ++ ['"']) ++ ((':' :: ' ' :: value) ++ rest)) := by
    rw [line_append, keyed]
    simp only [List.append_assoc, List.cons_append, List.nil_append]
  rw [hpieces] at h
  rcases h.append_cases with hlead | ⟨part, rfl, hpart⟩
  · exact .inl hlead
  refine .inr ?_
  rcases hpart.append_cases with hkey | ⟨tail, rfl, htail⟩
  · exact .inl ⟨_, by simp only [List.append_assoc, List.cons_append, List.nil_append], hkey⟩
  refine .inr ?_
  rcases htail.append_cases with hvalue | ⟨more, rfl, hmore⟩
  · exact .inl ⟨_, by simp only [keyed, List.append_assoc, List.cons_append, List.nil_append], hvalue⟩
  · exact .inr ⟨more, (hpieces more).symm, hmore⟩

/-- Where no key has begun, no member is found, whatever was read of the separator. -/
theorem nextMember_runsOut (h : IsCut short (lead first ++ [' ', ' ', '"'])) : RunsOut (nextMember first short) := by
  obtain ⟨n, hn, rfl⟩ := h.exists_take
  cases first
  · have hfive : n < 5 := hn
    interval_cases n <;> exact ⟨_, rfl, rfl⟩
  · have hfour : n < 4 := hn
    interval_cases n <;> exact ⟨_, rfl, rfl⟩

theorem readColon_runsOut {read : Reader α} (hread : ∀ part, IsCut part (' ' :: value) → RunsOut (read part))
    (h : IsCut short (':' :: ' ' :: value)) : RunsOut (readColon short >>= read) := by
  rcases h.cons_cases with rfl | ⟨part, rfl, hpart⟩
  · exact RunsOut.bind (runsOut_failOn rfl []) _
  · exact hread part hpart

end DirLock.Json
