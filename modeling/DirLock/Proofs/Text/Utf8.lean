import DirLock.Text.Utf8
import Mathlib.Tactic.SplitIfs

/-!
# Text from its bytes

Decoding gives back a text from its UTF-8 form, and only the UTF-8 form of a text can be decoded to
it. Both go byte by byte: what a lead byte opens says how many bytes follow and between which bounds
the next one lies.
-/

namespace DirLock.Text

theorem toNat_valid (c : Char) : c.toNat < 0xd800 ∨ 0xdfff < c.toNat ∧ c.toNat < 0x110000 := c.valid

theorem toNat_ofNat_of_lt {b : Nat} (h : b < 256) : (UInt8.ofNat b).toNat = b := by
  simp [Nat.mod_eq_of_lt h]

theorem utf8Pieces_cons (state : Option Unfinished) (byte : UInt8) (rest : List UInt8) :
    utf8Pieces state (byte :: rest) =
      (feedByte state byte).1 ++ utf8Pieces (feedByte state byte).2 rest := by
  cases state <;> rfl

/-! ## Decoding what was encoded -/

section Feed

variable {u : Unfinished} {b : Nat} (hb : b < 256) (hlow : u.low ≤ b) (hhigh : b ≤ u.high)
include hb hlow hhigh

theorem utf8Pieces_more (hmissing : u.missing ≠ 1) (rest : List UInt8) :
    utf8Pieces (some u) (UInt8.ofNat b :: rest) =
      utf8Pieces (some ⟨u.missing - 1, 0x80, 0xbf, u.code * 64 + b % 64⟩) rest := by
  rw [utf8Pieces_cons, feedByte, toNat_ofNat_of_lt hb, if_pos ⟨hlow, hhigh⟩, if_neg hmissing]
  rfl

theorem utf8Pieces_last (hmissing : u.missing = 1) (rest : List UInt8) :
    utf8Pieces (some u) (UInt8.ofNat b :: rest) =
      some (Char.ofNat (u.code * 64 + b % 64)) :: utf8Pieces none rest := by
  rw [utf8Pieces_cons, feedByte, toNat_ofNat_of_lt hb, if_pos ⟨hlow, hhigh⟩, if_pos hmissing]
  rfl

end Feed

theorem openChar_two {n : Nat} (hlow : 0x7f < n) (hhigh : n ≤ 0x7ff) :
    openChar (UInt8.ofNat (n / 64 % 0x20 + 0xc0)) = ([], some ⟨1, 0x80, 0xbf, n / 64⟩) := by
  rw [openChar, toNat_ofNat_of_lt (by omega)]
  rw [if_neg (by omega), if_neg (by omega), if_pos (by omega), show n / 64 % 0x20 + 0xc0 - 0xc0 = n / 64 by omega]

theorem openChar_three {n : Nat} (hlow : 0x7ff < n) (hhigh : n ≤ 0xffff)
    (hvalid : n < 0xd800 ∨ 0xdfff < n) :
    ∃ u, openChar (UInt8.ofNat (n / 4096 % 0x10 + 0xe0)) = ([], some u) ∧ u.missing = 2 ∧
      u.code = n / 4096 ∧ u.low ≤ n / 64 % 64 + 0x80 ∧ n / 64 % 64 + 0x80 ≤ u.high := by
  rw [openChar, toNat_ofNat_of_lt (by omega)]
  rw [if_neg (by omega), if_neg (by omega), if_neg (by omega)]
  by_cases hfirst : n / 4096 % 0x10 + 0xe0 = 0xe0
  · rw [if_pos hfirst]
    exact ⟨_, rfl, rfl, by dsimp only; omega, by dsimp only; omega, by dsimp only; omega⟩
  rw [if_neg hfirst]
  by_cases hsurrogate : n / 4096 % 0x10 + 0xe0 = 0xed
  · rw [if_pos hsurrogate]
    exact ⟨_, rfl, rfl, by dsimp only; omega, by dsimp only; omega, by dsimp only; omega⟩
  · rw [if_neg hsurrogate, if_pos (by omega)]
    exact ⟨_, rfl, rfl, by dsimp only; omega, by dsimp only; omega, by dsimp only; omega⟩

theorem openChar_four {n : Nat} (hlow : 0xffff < n) (hhigh : n < 0x110000) :
    ∃ u, openChar (UInt8.ofNat (n / 262144 % 0x08 + 0xf0)) = ([], some u) ∧ u.missing = 3 ∧
      u.code = n / 262144 ∧ u.low ≤ n / 4096 % 64 + 0x80 ∧ n / 4096 % 64 + 0x80 ≤ u.high := by
  rw [openChar, toNat_ofNat_of_lt (by omega)]
  rw [if_neg (by omega), if_neg (by omega), if_neg (by omega), if_neg (by omega), if_neg (by omega),
    if_neg (by omega)]
  by_cases hfirst : n / 262144 % 0x08 + 0xf0 = 0xf0
  · rw [if_pos hfirst]
    exact ⟨_, rfl, rfl, by dsimp only; omega, by dsimp only; omega, by dsimp only; omega⟩
  rw [if_neg hfirst]
  by_cases hmiddle : n / 262144 % 0x08 + 0xf0 < 0xf4
  · rw [if_pos hmiddle]
    exact ⟨_, rfl, rfl, by dsimp only; omega, by dsimp only; omega, by dsimp only; omega⟩
  · rw [if_neg hmiddle, if_pos (by omega)]
    exact ⟨_, rfl, rfl, by dsimp only; omega, by dsimp only; omega, by dsimp only; omega⟩

/-- The bytes of a character are decoded to it, whatever follows them. -/
theorem utf8Pieces_encodeChar (c : Char) (rest : List UInt8) :
    utf8Pieces none (String.utf8EncodeChar c ++ rest) = some c :: utf8Pieces none rest := by
  have hvalid := toNat_valid c
  have hval : c.val.toNat = c.toNat := rfl
  rw [String.utf8EncodeChar, hval]
  split_ifs with h1 h2 h3
  · rw [List.singleton_append, utf8Pieces_cons, feedByte, openChar, toNat_ofNat_of_lt (by omega),
      if_pos (by omega), Char.ofNat_toNat]
    rfl
  · rw [List.cons_append, utf8Pieces_cons, feedByte, openChar_two (by omega) h2]
    dsimp only
    rw [List.nil_append, List.singleton_append,
      utf8Pieces_last (by omega) (by dsimp only; omega) (by dsimp only; omega) rfl]
    dsimp only
    rw [show c.toNat / 64 * 64 + (c.toNat % 64 + 128) % 64 = c.toNat by omega, Char.ofNat_toNat]
  · obtain ⟨u, hopen, hmissing, hcode, hlow, hhigh⟩ :=
      openChar_three (Nat.not_le.1 h2) h3 (hvalid.imp_right And.left)
    rw [List.cons_append, utf8Pieces_cons, feedByte, hopen]
    dsimp only
    rw [List.nil_append, List.cons_append, List.singleton_append,
      utf8Pieces_more (by omega) hlow hhigh (by omega),
      utf8Pieces_last (by omega) (by dsimp only; omega) (by dsimp only; omega) (by simp [hmissing])]
    dsimp only
    rw [hcode, show (c.toNat / 4096 * 64 + (c.toNat / 64 % 64 + 128) % 64) * 64 +
      (c.toNat % 64 + 128) % 64 = c.toNat by omega, Char.ofNat_toNat]
  · obtain ⟨u, hopen, hmissing, hcode, hlow, hhigh⟩ :=
      openChar_four (Nat.not_le.1 h3) (by omega)
    rw [List.cons_append, utf8Pieces_cons, feedByte, hopen]
    dsimp only
    rw [List.nil_append, List.cons_append, List.cons_append, List.singleton_append,
      utf8Pieces_more (by omega) hlow hhigh (by omega),
      utf8Pieces_more (by omega) (by dsimp only; omega) (by dsimp only; omega) (by simp [hmissing]),
      utf8Pieces_last (by omega) (by dsimp only; omega) (by dsimp only; omega) (by simp [hmissing])]
    dsimp only
    rw [hcode, show ((c.toNat / 262144 * 64 + (c.toNat / 4096 % 64 + 128) % 64) * 64 +
      (c.toNat / 64 % 64 + 128) % 64) * 64 + (c.toNat % 64 + 128) % 64 = c.toNat by omega,
      Char.ofNat_toNat]

theorem utf8Pieces_encode_append (text : List Char) (rest : List UInt8) :
    utf8Pieces none (utf8Encode text ++ rest) = text.map some ++ utf8Pieces none rest := by
  induction text with
  | nil => rfl
  | cons c text ih =>
    have hcons : utf8Encode (c :: text) = String.utf8EncodeChar c ++ utf8Encode text := rfl
    rw [hcons, List.append_assoc, utf8Pieces_encodeChar, ih]
    rfl

theorem utf8Pieces_encode (text : List Char) : utf8Pieces none (utf8Encode text) = text.map some := by
  have happend := utf8Pieces_encode_append text []
  rwa [List.append_nil, utf8Pieces, List.append_nil] at happend

theorem utf8Decode?_encode (text : List Char) : utf8Decode? (utf8Encode text) = some text := by
  rw [utf8Decode?, utf8Pieces_encode, if_pos (by simp), List.filterMap_map]
  simp

/-! ## Encoding what was decoded -/

theorem toNat_ofNat_of_valid {n : Nat} (h : n.isValidChar) : (Char.ofNat n).toNat = n := by
  rw [Char.ofNat, dif_pos h]
  rfl

theorem ofNat_eq_of_toNat_eq {b : UInt8} {n : Nat} (h : n = b.toNat) : UInt8.ofNat n = b := by
  rw [h, UInt8.ofNat_toNat]

theorem encodeChar_one {b : UInt8} (h : b.toNat < 0x80) :
    ∃ c, String.utf8EncodeChar c = [b] := by
  refine ⟨Char.ofNat b.toNat, ?_⟩
  have hnat : (Char.ofNat b.toNat).val.toNat = _ := toNat_ofNat_of_valid (.inl (by omega))
  rw [String.utf8EncodeChar, hnat, if_pos (by omega), UInt8.ofNat_toNat]

theorem encodeChar_two {b₀ b₁ : UInt8} (h₀ : 0xc2 ≤ b₀.toNat ∧ b₀.toNat < 0xe0)
    (h₁ : 0x80 ≤ b₁.toNat ∧ b₁.toNat ≤ 0xbf) : ∃ c, String.utf8EncodeChar c = [b₀, b₁] := by
  refine ⟨Char.ofNat ((b₀.toNat - 0xc0) * 64 + b₁.toNat % 64), ?_⟩
  have hnat : (Char.ofNat ((b₀.toNat - 0xc0) * 64 + b₁.toNat % 64)).val.toNat = _ :=
    toNat_ofNat_of_valid (.inl (by omega))
  rw [String.utf8EncodeChar, hnat, if_neg (by omega), if_pos (by omega),
    ofNat_eq_of_toNat_eq (b := b₀) (by omega), ofNat_eq_of_toNat_eq (b := b₁) (by omega)]

theorem encodeChar_three {b₀ b₁ b₂ : UInt8} (h₀ : 0xe0 ≤ b₀.toNat ∧ b₀.toNat < 0xf0)
    (h₁ : 0x80 ≤ b₁.toNat ∧ b₁.toNat ≤ 0xbf) (h₂ : 0x80 ≤ b₂.toNat ∧ b₂.toNat ≤ 0xbf)
    (hlong : b₀.toNat = 0xe0 → 0xa0 ≤ b₁.toNat) (hvalid : b₀.toNat = 0xed → b₁.toNat ≤ 0x9f) :
    ∃ c, String.utf8EncodeChar c = [b₀, b₁, b₂] := by
  refine ⟨Char.ofNat (((b₀.toNat - 0xe0) * 64 + b₁.toNat % 64) * 64 + b₂.toNat % 64), ?_⟩
  have hnat : (Char.ofNat (((b₀.toNat - 0xe0) * 64 + b₁.toNat % 64) * 64 +
      b₂.toNat % 64)).val.toNat = _ := toNat_ofNat_of_valid (by unfold Nat.isValidChar; omega)
  rw [String.utf8EncodeChar, hnat, if_neg (by omega), if_neg (by omega), if_pos (by omega),
    ofNat_eq_of_toNat_eq (b := b₀) (by omega), ofNat_eq_of_toNat_eq (b := b₁) (by omega),
    ofNat_eq_of_toNat_eq (b := b₂) (by omega)]

theorem encodeChar_four {b₀ b₁ b₂ b₃ : UInt8} (h₀ : 0xf0 ≤ b₀.toNat ∧ b₀.toNat ≤ 0xf4)
    (h₁ : 0x80 ≤ b₁.toNat ∧ b₁.toNat ≤ 0xbf) (h₂ : 0x80 ≤ b₂.toNat ∧ b₂.toNat ≤ 0xbf)
    (h₃ : 0x80 ≤ b₃.toNat ∧ b₃.toNat ≤ 0xbf) (hlong : b₀.toNat = 0xf0 → 0x90 ≤ b₁.toNat)
    (hvalid : b₀.toNat = 0xf4 → b₁.toNat ≤ 0x8f) :
    ∃ c, String.utf8EncodeChar c = [b₀, b₁, b₂, b₃] := by
  refine ⟨Char.ofNat ((((b₀.toNat - 0xf0) * 64 + b₁.toNat % 64) * 64 + b₂.toNat % 64) * 64 +
    b₃.toNat % 64), ?_⟩
  have hnat : (Char.ofNat ((((b₀.toNat - 0xf0) * 64 + b₁.toNat % 64) * 64 +
      b₂.toNat % 64) * 64 + b₃.toNat % 64)).val.toNat = _ :=
    toNat_ofNat_of_valid (by unfold Nat.isValidChar; omega)
  rw [String.utf8EncodeChar, hnat, if_neg (by omega), if_neg (by omega), if_neg (by omega),
    ofNat_eq_of_toNat_eq (b := b₀) (by omega), ofNat_eq_of_toNat_eq (b := b₁) (by omega),
    ofNat_eq_of_toNat_eq (b := b₂) (by omega), ofNat_eq_of_toNat_eq (b := b₃) (by omega)]

theorem next_of_decodable {u : Unfinished} {bytes : List UInt8}
    (h : (utf8Pieces (some u) bytes).all Option.isSome = true) :
    ∃ b rest, bytes = b :: rest ∧ u.low ≤ b.toNat ∧ b.toNat ≤ u.high ∧
      (u.missing ≠ 1 → (utf8Pieces (some ⟨u.missing - 1, 0x80, 0xbf, u.code * 64 + b.toNat % 64⟩)
        rest).all Option.isSome = true) := by
  cases bytes with
  | nil => simp [utf8Pieces] at h
  | cons b rest =>
    rw [utf8Pieces_cons, feedByte] at h
    split_ifs at h with hb hmissing
    · exact ⟨b, rest, rfl, hb.1, hb.2, fun hne => absurd hmissing hne⟩
    · exact ⟨b, rest, rfl, hb.1, hb.2, fun _ => by simpa using h⟩
    · simp at h

theorem two_of_decodable {u : Unfinished} {bytes : List UInt8} (hmissing : u.missing ≠ 1)
    (h : (utf8Pieces (some u) bytes).all Option.isSome = true) :
    ∃ b₁ b₂ rest, bytes = b₁ :: b₂ :: rest ∧ (u.low ≤ b₁.toNat ∧ b₁.toNat ≤ u.high) ∧
      (0x80 ≤ b₂.toNat ∧ b₂.toNat ≤ 0xbf) ∧
      (u.missing ≠ 2 → ∃ b₃ more, rest = b₃ :: more ∧ 0x80 ≤ b₃.toNat ∧ b₃.toNat ≤ 0xbf) := by
  obtain ⟨b₁, rest, rfl, hlow, hhigh, hnext⟩ := next_of_decodable h
  obtain ⟨b₂, rest, rfl, hlow', hhigh', hnext⟩ := next_of_decodable (hnext hmissing)
  refine ⟨b₁, b₂, rest, rfl, ⟨hlow, hhigh⟩, ⟨hlow', hhigh'⟩, fun hmissing' => ?_⟩
  obtain ⟨b₃, more, rfl, hlow'', hhigh'', -⟩ := next_of_decodable (hnext (by dsimp only; omega))
  exact ⟨b₃, more, rfl, hlow'', hhigh''⟩

theorem exists_char_of_decodable {b : UInt8} {rest : List UInt8}
    (h : (utf8Pieces none (b :: rest)).all Option.isSome = true) :
    ∃ c more, b :: rest = String.utf8EncodeChar c ++ more := by
  rw [utf8Pieces_cons, feedByte, openChar] at h
  -- One case for each class of lead bytes; a class that opens nothing is not decodable.
  split_ifs at h
  · obtain ⟨c, hc⟩ : ∃ c, String.utf8EncodeChar c = [b] := encodeChar_one (by assumption)
    exact ⟨c, rest, by rw [hc]; rfl⟩
  · simp at h
  · obtain ⟨b₁, more, rfl, hlow, hhigh, -⟩ := next_of_decodable h
    obtain ⟨c, hc⟩ : ∃ c, String.utf8EncodeChar c = [b, b₁] :=
      encodeChar_two (by omega) ⟨hlow, hhigh⟩
    exact ⟨c, more, by rw [hc]; rfl⟩
  iterate 3
    obtain ⟨b₁, b₂, more, rfl, ⟨hlow, hhigh⟩, h₂, -⟩ := two_of_decodable (by dsimp only; omega) h
    dsimp only at hlow hhigh
    obtain ⟨c, hc⟩ : ∃ c, String.utf8EncodeChar c = [b, b₁, b₂] :=
      encodeChar_three (by omega) (by omega) h₂ (by omega) (by omega)
    exact ⟨c, more, by rw [hc]; rfl⟩
  iterate 3
    obtain ⟨b₁, b₂, rest, rfl, ⟨hlow, hhigh⟩, h₂, hnext⟩ :=
      two_of_decodable (by dsimp only; omega) h
    obtain ⟨b₃, more, rfl, h₃⟩ := hnext (by dsimp only; omega)
    dsimp only at hlow hhigh
    obtain ⟨c, hc⟩ : ∃ c, String.utf8EncodeChar c = [b, b₁, b₂, b₃] :=
      encodeChar_four (by omega) (by omega) h₂ h₃ (by omega) (by omega)
    exact ⟨c, more, by rw [hc]; rfl⟩
  · simp at h

theorem exists_text_of_decodable {bytes : List UInt8}
    (h : (utf8Pieces none bytes).all Option.isSome = true) : ∃ text, bytes = utf8Encode text := by
  induction hlen : bytes.length using Nat.strongRecOn generalizing bytes with
  | ind n ih =>
    cases bytes with
    | nil => exact ⟨[], rfl⟩
    | cons b rest =>
      obtain ⟨c, more, heq⟩ := exists_char_of_decodable h
      have hpos := List.length_pos_iff.2 (String.utf8EncodeChar_ne_nil (c := c))
      have hshort : more.length < n := by
        rw [← hlen, heq, List.length_append]
        omega
      rw [heq, utf8Pieces_encodeChar, List.all_cons] at h
      obtain ⟨text, rfl⟩ := ih _ hshort h rfl
      exact ⟨c :: text, heq⟩

theorem utf8Decode?_eq_some_iff {bytes : List UInt8} {text : List Char} :
    utf8Decode? bytes = some text ↔ bytes = utf8Encode text := by
  constructor
  · intro h
    have hall : (utf8Pieces none bytes).all Option.isSome = true := by
      rw [utf8Decode?] at h
      split_ifs at h with hall
      exact hall
    obtain ⟨text', rfl⟩ := exists_text_of_decodable hall
    rw [utf8Decode?_encode] at h
    rw [Option.some.inj h]
  · rintro rfl
    exact utf8Decode?_encode text

end DirLock.Text
