import DirLock.Proofs.Text.Utf8

/-!
# Texts that were cut off

A text that was cut off lost at least its last character. If it was written piece by piece, it ends inside the
first piece that is not whole, or before it. Cut off as bytes, it is a text if it ends before a character, and
cannot be decoded if it ends inside one.
-/

namespace DirLock.Text

def IsCut {α : Type} (short whole : List α) : Prop := ∃ lost, lost ≠ [] ∧ whole = short ++ lost

section

variable {α β : Type} {short whole front back : List α} {a : α}

theorem isCut_iff : IsCut short whole ↔ short <+: whole ∧ short ≠ whole := by
  constructor
  · rintro ⟨lost, hlost, rfl⟩
    exact ⟨List.prefix_append short lost, fun heq => hlost (List.self_eq_append_right.1 heq)⟩
  · rintro ⟨⟨lost, rfl⟩, hne⟩
    exact ⟨lost, fun hlost => hne (by rw [hlost, List.append_nil]), rfl⟩

theorem IsCut.isPrefix (h : IsCut short whole) : short <+: whole := (isCut_iff.1 h).1

theorem not_isCut_nil : ¬IsCut short [] := by
  rintro ⟨lost, hlost, heq⟩
  exact hlost (List.append_eq_nil_iff.1 heq.symm).2

theorem IsCut.exists_take (h : IsCut short whole) : ∃ n < whole.length, short = whole.take n := by
  obtain ⟨lost, hlost, rfl⟩ := h
  have hpos := List.length_pos_iff.2 hlost
  refine ⟨short.length, ?_, List.take_left.symm⟩
  rw [List.length_append]
  omega

theorem isCut_take {n : Nat} (h : n < whole.length) : IsCut (whole.take n) whole := by
  refine ⟨whole.drop n, fun hnil => ?_, (List.take_append_drop n whole).symm⟩
  exact absurd (List.drop_eq_nil_iff.1 hnil) (Nat.not_le.2 h)

theorem IsCut.append_cases (h : IsCut short (front ++ back)) :
    IsCut short front ∨ ∃ rest, short = front ++ rest ∧ IsCut rest back := by
  obtain ⟨lost, hlost, heq⟩ := h
  rcases List.append_eq_append_iff.1 heq with ⟨rest, hshort, hback⟩ | ⟨rest, hfront, hlostEq⟩
  · exact .inr ⟨rest, hshort, lost, hlost, hback⟩
  · by_cases hrest : rest = []
    · rw [hrest, List.nil_append] at hlostEq
      rw [hrest, List.append_nil] at hfront
      exact .inr ⟨[], by rw [hfront, List.append_nil], lost, hlost, hlostEq.symm⟩
    · exact .inl ⟨rest, hrest, hfront⟩

theorem IsCut.cons_cases (h : IsCut short (a :: back)) : short = [] ∨ ∃ rest, short = a :: rest ∧ IsCut rest back := by
  rcases @IsCut.append_cases _ _ [a] back h with ⟨lost, hlost, heq⟩ | hrest
  · cases short with
    | nil => exact .inl rfl
    | cons b short =>
      obtain ⟨-, hnil⟩ := List.cons.inj heq
      exact absurd (List.append_eq_nil_iff.1 hnil.symm).2 hlost
  · exact .inr hrest

theorem IsCut.eq_nil (h : IsCut short [a]) : short = [] := by
  rcases h.cons_cases with hnil | ⟨rest, -, hrest⟩
  · exact hnil
  · exact absurd hrest not_isCut_nil

theorem IsCut.flatMap_cases {f : α → List β} {short : List β} (h : IsCut short (whole.flatMap f)) :
    ∃ before a after part, whole = before ++ a :: after ∧ short = before.flatMap f ++ part ∧ IsCut part (f a) := by
  induction whole generalizing short with
  | nil => exact absurd h not_isCut_nil
  | cons a whole ih =>
    rw [List.flatMap_cons] at h
    rcases h.append_cases with hpart | ⟨rest, rfl, hrest⟩
    · exact ⟨[], a, whole, short, rfl, rfl, hpart⟩
    · obtain ⟨before, b, after, part, rfl, rfl, hpart⟩ := ih hrest
      exact ⟨a :: before, b, after, part, rfl, by rw [List.flatMap_cons, List.append_assoc], hpart⟩

end

/-! ## Bytes -/

variable {text before : List Char} {bytes part : List UInt8} {c : Char}

theorem isPrefix_of_utf8Encode (h : utf8Encode before <+: utf8Encode text) : before <+: text := by
  obtain ⟨lost, heq⟩ := h
  have hpieces := congrArg (fun bytes => (utf8Pieces none bytes).filterMap id) heq
  simp only [utf8Pieces_encode_append, utf8Pieces_encode, List.filterMap_append, List.filterMap_map,
    Function.id_comp, List.filterMap_some] at hpieces
  exact ⟨_, hpieces⟩

/-- Bytes that end inside a character cannot be decoded: those of no character go on as those of another. -/
theorem utf8Decode?_of_isCut (hpart : IsCut part (String.utf8EncodeChar c)) (hne : part ≠ []) :
    utf8Decode? (utf8Encode before ++ part) = none := by
  have hsingle : utf8Encode [c] = String.utf8EncodeChar c := List.flatMap_singleton _ _
  have hundecodable : (utf8Pieces none part).all Option.isSome = false := by
    refine Bool.eq_false_iff.2 fun hdecodable => ?_
    obtain ⟨text, rfl⟩ := exists_text_of_decodable hdecodable
    have htext : text <+: [c] := isPrefix_of_utf8Encode (hsingle ▸ hpart.isPrefix)
    rcases List.prefix_cons_iff.1 htext with rfl | ⟨more, rfl, hmore⟩
    · exact hne rfl
    · rw [List.prefix_nil.1 hmore, hsingle] at hpart
      exact (isCut_iff.1 hpart).2 rfl
  rw [utf8Decode?, utf8Pieces_encode_append, List.all_append, hundecodable, Bool.and_false]
  rfl

def EndsInside (text : List Char) (bytes : List UInt8) : Prop :=
  ∃ before c after part, text = before ++ c :: after ∧ bytes = utf8Encode before ++ part ∧
    IsCut part (String.utf8EncodeChar c) ∧ part ≠ []

theorem EndsInside.utf8Decode? (h : EndsInside text bytes) : utf8Decode? bytes = none := by
  obtain ⟨before, c, after, part, -, rfl, hpart, hne⟩ := h
  exact utf8Decode?_of_isCut hpart hne

theorem IsCut.utf8Encode_cases (h : IsCut bytes (utf8Encode text)) :
    (∃ short, IsCut short text ∧ bytes = utf8Encode short) ∨ EndsInside text bytes := by
  obtain ⟨before, c, after, part, rfl, rfl, hpart⟩ := h.flatMap_cases
  by_cases hne : part = []
  · exact .inl ⟨before, ⟨c :: after, List.cons_ne_nil _ _, rfl⟩, by rw [hne, List.append_nil]; rfl⟩
  · exact .inr ⟨before, c, after, part, rfl, rfl, hpart, hne⟩

end DirLock.Text
