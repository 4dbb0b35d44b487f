import DirLock.Proofs.Yaml.Member
import DirLock.Yaml.Document

/-!
# Characters of written scalars

Whatever a text holds, what is written of it holds only characters that a text to be read may hold:
the others are written as escapes.
-/

namespace DirLock.Yaml

variable {text : List Char} {c : Char}

theorem firstForbidden_eq_none (htext : ∀ c ∈ text, isAllowed c = true) (offset : Nat) :
    firstForbidden text offset = none := by
  induction text generalizing offset with
  | nil => rfl
  | cons c text ih =>
    rw [firstForbidden, if_pos (htext c List.mem_cons_self)]
    exact ih (fun d hd => htext d (List.mem_cons_of_mem _ hd)) _

theorem isAllowed_of_isPrintable (h : Printer.isPrintable c = true) : isAllowed c = true := by
  simp only [Printer.isPrintable, isAllowed, Bool.or_eq_true, Bool.and_eq_true, beq_iff_eq, decide_eq_true_eq,
    bne_iff_ne] at h ⊢
  omega

namespace Printer

theorem eq_of_mem_indentation {broken : Bool} (h : c ∈ if broken then indentation else []) : c = ' ' := by
  cases broken with
  | false => exact nomatch h
  | true => simpa [indentation] using h

theorem mem_singleQuoted {broken : Bool} (h : c ∈ singleQuoted broken text) :
    c ∈ text ∨ c = ' ' ∨ c = '\'' := by
  induction text generalizing broken with
  | nil =>
    rcases List.mem_append.1 h with h | h
    · exact .inr (.inl (eq_of_mem_indentation h))
    · exact .inr (.inr (List.mem_singleton.1 h))
  | cons d text ih =>
    have hcons (broken : Bool) (h : c ∈ d :: singleQuoted broken text) : c ∈ d :: text ∨ c = ' ' ∨ c = '\'' := by
      rcases List.mem_cons.1 h with rfl | h
      · exact .inl List.mem_cons_self
      · exact (ih h).imp_left (List.mem_cons_of_mem _)
    rw [singleQuoted] at h
    split at h
    · exact hcons true h
    · split at h
      · exact hcons broken h
      · rcases List.mem_append.1 h with h | h
        · rcases List.mem_append.1 h with h | h
          · exact .inr (.inl (eq_of_mem_indentation h))
          · split at h
            · exact .inr (.inr (by simpa using h))
            · rw [List.mem_singleton.1 h]
              exact .inl List.mem_cons_self
        · exact hcons false (List.mem_cons_of_mem _ h)

theorem mem_blockLines {broken : Bool} (h : c ∈ blockLines broken text) : c ∈ text ∨ c = ' ' := by
  induction text generalizing broken with
  | nil => exact nomatch h
  | cons d text ih =>
    have hcons (broken : Bool) (h : c ∈ d :: blockLines broken text) : c ∈ d :: text ∨ c = ' ' := by
      rcases List.mem_cons.1 h with rfl | h
      · exact .inl List.mem_cons_self
      · exact (ih h).imp_left (List.mem_cons_of_mem _)
    rw [blockLines] at h
    split at h
    · exact hcons true h
    · rcases List.mem_append.1 h with h | h
      · exact .inr (eq_of_mem_indentation h)
      · exact hcons false h

theorem isAllowed_upperDigits {width code : Nat} (h : c ∈ upperDigits width code) : isAllowed c = true := by
  have hdigits : ∀ digit < 16, isAllowed (Text.hexDigit digit).toUpper = true := by decide
  induction width generalizing code with
  | zero => exact nomatch h
  | succ width ih =>
    rw [upperDigits, Text.hexPadded, List.map_append] at h
    rcases List.mem_append.1 h with h | h
    · exact ih h
    · rw [List.map_singleton, List.mem_singleton] at h
      rw [h]
      exact hdigits _ (Nat.mod_lt _ (by decide))

theorem isAllowed_escape {d : Char} (h : c ∈ escape d) : isAllowed c = true := by
  have hletter (letter : Char) (hletter : isAllowed letter = true) (h : c ∈ [letter]) : isAllowed c = true :=
    List.mem_singleton.1 h ▸ hletter
  have hcode (letter : Char) (width : Nat) (hletter : isAllowed letter = true)
      (h : c ∈ letter :: upperDigits width d.toNat) : isAllowed c = true := by
    rcases List.mem_cons.1 h with rfl | h
    · exact hletter
    · exact isAllowed_upperDigits h
  rcases List.mem_cons.1 h with rfl | h
  · decide
  · split at h
    case h_16 =>
      dsimp only at h
      split at h
      · exact hcode _ _ (by decide) h
      · split at h
        · exact hcode _ _ (by decide) h
        · exact hcode _ _ (by decide) h
    all_goals exact hletter _ (by decide) h

theorem isAllowed_doubleQuotedChar {d : Char} (h : c ∈ doubleQuotedChar d) : isAllowed c = true := by
  cases hescaped : !isPrintable d || isBreak d || d == '"' || d == '\\' with
  | true =>
    rw [doubleQuotedChar, hescaped, if_pos rfl] at h
    exact isAllowed_escape h
  | false =>
    rw [doubleQuotedChar, hescaped, if_neg Bool.false_ne_true, List.mem_singleton] at h
    simp only [Bool.or_eq_false_iff, Bool.not_eq_false'] at hescaped
    rw [h]
    exact isAllowed_of_isPrintable hescaped.1.1.1

theorem isAllowed_blockHints (hne : text ≠ []) (h : c ∈ blockHints text) : isAllowed c = true := by
  obtain ⟨known, last, chomping, hhints, -, hlast⟩ := Scalar.blockHints_cases hne
  have hhint : c = '2' ∨ c = '-' ∨ c = '+' := by
    rw [hhints] at h
    rcases List.mem_append.1 h with h | h
    · cases known with
      | false => exact nomatch h
      | true => exact .inl (by simpa using h)
    · cases chomping with
      | strip => exact .inr (.inl (by simpa [hlast.1] using h))
      | clip => exact absurd h (by simp [hlast.1])
      | keep => exact .inr (.inr (by simpa [hlast.1] using h))
  rcases hhint with rfl | rfl | rfl <;> decide

theorem isAllowed_scalar (h : c ∈ scalar text) : isAllowed c = true := by
  have hprintable (hescapes : needsEscapes text = false) (h : c ∈ text) : isAllowed c = true :=
    isAllowed_of_isPrintable (isPrintable_of_needsEscapes hescapes c h)
  rw [scalar] at h
  cases hstyle : style text with
  | plain =>
    rw [hstyle] at h
    have htext := isPlain_of_allowsPlain (Lexer.plain_of_style hstyle).2
    exact isAllowed_of_isPrintable (htext.printable c h)
  | singleQuoted =>
    rw [hstyle] at h
    have hsingle := (Lexer.single_of_style hstyle).2
    simp only [allowsSingle, Bool.not_eq_true', Bool.or_eq_false_iff] at hsingle
    rcases List.mem_cons.1 h with rfl | h
    · decide
    · rcases mem_singleQuoted h with h | rfl | rfl
      · exact hprintable hsingle.1 h
      · decide
      · decide
  | doubleQuoted =>
    rw [hstyle] at h
    rcases List.mem_append.1 h with h | h
    · rcases List.mem_cons.1 h with rfl | h
      · decide
      · obtain ⟨d, -, h⟩ := List.mem_flatMap.1 h
        exact isAllowed_doubleQuotedChar h
    · rw [List.mem_singleton.1 h]
      decide
  | literal =>
    rw [hstyle] at h
    have hblock := Lexer.block_of_style hstyle
    simp only [allowsBlock, Bool.not_eq_true', Bool.or_eq_false_iff] at hblock
    have hne : text ≠ [] := by
      rintro rfl
      exact absurd hblock.1.2 (by decide)
    rcases List.mem_append.1 h with h | h
    · rcases List.mem_cons.1 h with rfl | h
      · decide
      · exact isAllowed_blockHints hne h
    · rcases List.mem_cons.1 h with rfl | h
      · decide
      · rcases mem_blockLines h with h | rfl
        · exact hprintable hblock.1.1 h
        · decide
  | folded => exact absurd hstyle (Lexer.style_ne_folded text)

theorem mem_ended (h : c ∈ ended text) : c ∈ text ∨ c = '\n' := by
  rw [ended] at h
  split at h
  · exact .inl h
  · exact (List.mem_append.1 h).imp_right List.mem_singleton.1

end Printer

end DirLock.Yaml
