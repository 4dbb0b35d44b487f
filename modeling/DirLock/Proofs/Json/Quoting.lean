import DirLock.Json.Quoting

/-!
# JSON strings are read back

A string is written one character after another, and each of them, escaped or not, is read back as the
character that it was written for.
-/

namespace DirLock.Json

variable {c : Char} {done text rest : List Char} {fuel : Nat}

theorem hexValue?_hexDigit {digit : Nat} (h : digit < 16) : Text.hexValue? (Text.hexDigit digit) = some digit := by
  revert digit
  decide

theorem hexEscape_hexPadded {code : Nat} (h : code < 0x10000) :
    hexEscape (Text.hexPadded 4 code ++ rest) = .ok (code, rest) := by
  have hpadded : Text.hexPadded 4 code = [Text.hexDigit (code / 16 / 16 / 16 % 16),
      Text.hexDigit (code / 16 / 16 % 16), Text.hexDigit (code / 16 % 16), Text.hexDigit (code % 16)] := rfl
  have hdigit (n : Nat) : Text.hexValue? (Text.hexDigit (n % 16)) = some (n % 16) :=
    hexValue?_hexDigit (Nat.mod_lt _ (by decide))
  have hbytes (a b c d : Char) : ¬byteCount (a :: b :: c :: d :: rest) < 4 := by
    simp only [byteCount]
    have ha := a.utf8Size_pos
    have hb := b.utf8Size_pos
    have hc := c.utf8Size_pos
    have hd := d.utf8Size_pos
    omega
  have hcode : ((code / 16 / 16 / 16 % 16 * 16 + code / 16 / 16 % 16) * 16 + code / 16 % 16) * 16 + code % 16 =
      code := by omega
  rw [hpadded]
  simp only [List.cons_append, List.nil_append, hexEscape, if_neg (hbytes _ _ _ _), hdigit, hcode]

theorem readEscape_control (h : c.toNat < 0x20) :
    readEscape ('u' :: (Text.hexPadded 4 c.toNat ++ rest)) = .ok (c, rest) := by
  have hread := @hexEscape_hexPadded rest c.toNat (by omega)
  have hlow : ¬(0xdc00 ≤ c.toNat ∧ c.toNat ≤ 0xdfff) := by omega
  have hhigh : ¬(0xd800 ≤ c.toNat ∧ c.toNat ≤ 0xdbff) := by omega
  simp only [readEscape, hread, bind, Except.bind, if_neg hlow, if_neg hhigh, Char.ofNat_toNat, pure, Except.pure]

theorem stringBody_escapedChar :
    stringBody (fuel + 1) done (escapedChar c ++ rest) = stringBody fuel (c :: done) rest := by
  rw [escapedChar]
  split
  · rename_i h
    rcases h with rfl | rfl <;> rfl
  split
  · subst c; rfl
  split
  · subst c; rfl
  split
  · subst c; rfl
  split
  · subst c; rfl
  split
  · subst c; rfl
  split
  · rename_i h
    have hread := @readEscape_control c rest h
    rw [List.append_assoc, List.cons_append, stringBody]
    simp only [List.cons_append, List.nil_append, hread, bind, Except.bind]
  · rename_i hspecial _ _ _ _ _ hcontrol
    obtain ⟨hquote, hbackslash⟩ := not_or.1 hspecial
    rw [List.cons_append, List.nil_append, stringBody]
    · exact if_neg hcontrol
    · exact hquote
    · exact hbackslash

theorem stringBody_flatMap (h : text.length < fuel) :
    stringBody fuel done (text.flatMap escapedChar ++ '"' :: rest) = .ok (done.reverse ++ text, rest) := by
  induction text generalizing fuel done with
  | nil =>
    obtain ⟨fuel, rfl⟩ := Nat.exists_eq_add_of_lt h
    rw [List.append_nil]
    rfl
  | cons c text ih =>
    cases fuel with
    | zero => exact absurd h (Nat.not_lt_zero _)
    | succ fuel =>
      rw [List.flatMap_cons, List.append_assoc, stringBody_escapedChar, ih (Nat.lt_of_succ_lt_succ h),
        List.reverse_cons, List.append_assoc]
      rfl

theorem escapedChar_ne_nil (c : Char) : escapedChar c ≠ [] := by
  rw [escapedChar]
  repeat' split
  all_goals exact List.cons_ne_nil _ _

theorem length_le_flatMap (text : List Char) : text.length ≤ (text.flatMap escapedChar).length := by
  induction text with
  | nil => exact Nat.le_refl 0
  | cons c text ih =>
    have hchar := List.length_pos_iff.2 (escapedChar_ne_nil c)
    rw [List.flatMap_cons, List.length_append, List.length_cons]
    omega

theorem readString_flatMap (text rest : List Char) :
    readString (text.flatMap escapedChar ++ '"' :: rest) = .ok (text, rest) := by
  have hfuel : text.length < (text.flatMap escapedChar ++ '"' :: rest).length + 1 := by
    have hlength := length_le_flatMap text
    rw [List.length_append]
    omega
  exact stringBody_flatMap hfuel

end DirLock.Json
