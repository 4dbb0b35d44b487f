import DirLock.Proofs.Yaml.Member
import DirLock.Text.Alphanumeric

/-!
# Words

Letters and digits of any script, and a few marks, mean nothing but themselves. A word of them is read as a plain
scalar wherever a value may stand, and as a key at the start of a line if it is made of letters, digits and
underscores only.
-/

namespace DirLock.Yaml

variable {c : Char} {text rest : List Char} {mark : Mark}

/-! ## Characters -/

/-- A character that words are made of: a letter or a digit of some script, or one of five marks. -/
def IsWordChar (c : Char) : Prop := Text.isAlphanumeric c = true ∨ c ∈ ['_', '.', '+', '-', '/']

instance : DecidablePred IsWordChar := fun c =>
  inferInstanceAs (Decidable (Text.isAlphanumeric c = true ∨ c ∈ ['_', '.', '+', '-', '/']))

/-- The characters of a line that mean something where a token may begin, or in a plain scalar. -/
def meaningful : List Char :=
  [' ', '\t', '\n', '\r', '\u0085', '\u2028', '\u2029', '\ufeff', ':', '?', '%', '[', ']', '\x7b', '\x7d', ',', '*',
    '&', '!', '|', '>', '\'', '"', '#', '@', Char.ofNat 0x60]

theorem not_isAlphanumeric_of_mem_meaningful : ∀ d ∈ meaningful, Text.isAlphanumeric d = false :=
  Text.forall_of_all (by decide +kernel)

theorem IsWordChar.ne (h : IsWordChar c) {d : Char} (hd : d ∈ meaningful) : c ≠ d := by
  rintro rfl
  rcases h with h | h
  · exact Bool.false_ne_true ((not_isAlphanumeric_of_mem_meaningful c hd).symm.trans h)
  · have hmarks : ∀ d ∈ ['_', '.', '+', '-', '/'], d ∉ meaningful := Text.forall_of_all (by decide)
    exact hmarks c h hd

/-- The code points that may stand in a text and are no control codes. -/
def allowedRanges : List Text.CodeRange := [(0x20, 0x7e), (0xa0, 0xd7ff), (0xe000, 0xfffd), (0x10000, 0x10ffff)]

theorem isAllowed_of_covers (h : Text.CodeRange.covers allowedRanges c.toNat = true) : isAllowed c = true := by
  rw [Text.CodeRange.covers_iff] at h
  simp only [allowedRanges, List.mem_cons, List.not_mem_nil, or_false, exists_eq_or_imp, exists_eq_left] at h
  simp only [isAllowed, Bool.or_eq_true, Bool.and_eq_true, beq_iff_eq, decide_eq_true_eq]
  omega

theorem alphanumericRanges_allowed : ∀ r ∈ Text.alphanumericRanges, ∃ a ∈ allowedRanges, a.1 ≤ r.1 ∧ r.2 ≤ a.2 := by
  decide +kernel

theorem IsWordChar.isAllowed (h : IsWordChar c) : isAllowed c = true := by
  rcases h with h | h
  · obtain ⟨r, hr, hlow, hhigh⟩ := Text.CodeRange.covers_iff.1 h
    obtain ⟨a, ha, halow, hahigh⟩ := alphanumericRanges_allowed r hr
    exact isAllowed_of_covers (Text.CodeRange.covers_iff.2 ⟨a, ha, halow.trans hlow, hhigh.trans hahigh⟩)
  · have hmarks : ∀ d ∈ ['_', '.', '+', '-', '/'], Yaml.isAllowed d = true := Text.forall_of_all (by decide)
    exact hmarks c h

theorem IsWordChar.isBlank_eq (h : IsWordChar c) : isBlank c = false := by
  simp [isBlank, h.ne (d := ' ') (by decide), h.ne (d := '\t') (by decide)]

theorem IsWordChar.isBreak_eq (h : IsWordChar c) : isBreak c = false := by
  simp [isBreak, h.ne (d := '\n') (by decide), h.ne (d := '\r') (by decide), h.ne (d := '\u0085') (by decide),
    h.ne (d := '\u2028') (by decide), h.ne (d := '\u2029') (by decide)]

theorem IsWordChar.opensOther_eq (h : IsWordChar c) : Printer.opensOther c = false := by
  have hothers : ∀ d ∈ "#,[]\x7b\x7d&*!|>'\"%@".toList, d ∈ meaningful := Text.forall_of_all (by decide)
  rw [Printer.opensOther, Bool.or_eq_false_iff]
  constructor
  · rw [Bool.eq_false_iff]
    exact fun hmem => h.ne (hothers c (List.contains_iff_mem.1 hmem)) rfl
  · rw [beq_eq_false_iff_ne]
    intro hcode
    exact h.ne (d := Char.ofNat 0x60) (by decide) (by rw [← hcode, Char.ofNat_toNat])

theorem IsWordChar.stopsGap (h : IsWordChar c) : Lexer.StopsGap (c :: rest) := by
  intro d hd
  obtain rfl : c = d := Option.some.inj hd
  exact ⟨h.ne (by decide), h.ne (by decide), h.ne (by decide), h.ne (by decide), h.isBreak_eq⟩

/-! ## Words -/

/-- A word, which a number is too. A lone dash is none. -/
structure IsWord (text : List Char) : Prop where
  nonempty : text ≠ []
  chars : ∀ c ∈ text, IsWordChar c
  ne_dash : text ≠ ['-']

instance (text : List Char) : Decidable (IsWord text) :=
  decidable_of_iff (text ≠ [] ∧ (text.all fun c => decide (IsWordChar c)) = true ∧ text ≠ ['-'])
    ⟨fun h => ⟨h.1, Text.forall_of_all h.2.1, h.2.2⟩, fun h => ⟨h.nonempty, Text.all_of_forall h.chars, h.ne_dash⟩⟩

theorem IsWord.unbroken (h : IsWord text) : ∀ c ∈ text, isBlank c = false ∧ isBreak c = false ∧ c ≠ ':' :=
  fun c hc => ⟨(h.chars c hc).isBlank_eq, (h.chars c hc).isBreak_eq, (h.chars c hc).ne (by decide)⟩

theorem IsWord.stopsGap (h : IsWord text) : Lexer.StopsGap (text ++ rest) := by
  obtain ⟨c, more, rfl⟩ := List.exists_cons_of_ne_nil h.nonempty
  exact (h.chars c List.mem_cons_self).stopsGap

/-- A word may begin a plain scalar, but at the left margin one of dashes or dots may not. -/
theorem IsWord.beginsPlain (h : IsWord (c :: text)) (hmargin : mark.column ≠ 0 ∨ (c ≠ '-' ∧ c ≠ '.')) :
    Lexer.BeginsPlain c (text ++ rest) mark := by
  have hc := h.chars c List.mem_cons_self
  refine ⟨hc.opensOther_eq, hc.isBlank_eq, hc.isBreak_eq, ?_, ?_⟩
  · rintro (rfl | rfl | rfl)
    · exact absurd rfl (hc.ne (by decide))
    · exact absurd rfl (hc.ne (by decide))
    · obtain ⟨d, more, rfl⟩ := List.exists_cons_of_ne_nil fun hnil => h.ne_dash (hnil ▸ rfl)
      have hd := h.chars d (by simp)
      simp [Cursor.isGap, hd.isBlank_eq, hd.isBreak_eq]
  · rcases hmargin with hcolumn | ⟨hdash, hdot⟩
    · simp [Cursor.atDocumentIndicator, Cursor.atIndicator, hcolumn]
    · simp [Cursor.atDocumentIndicator, Cursor.atIndicator, hdash, hdot]

/-- A name: a word of letters, digits and underscores. -/
structure IsIdentifier (text : List Char) : Prop where
  nonempty : text ≠ []
  chars : ∀ c ∈ text, Text.isAlphanumeric c = true ∨ c = '_'

instance (text : List Char) : Decidable (IsIdentifier text) :=
  decidable_of_iff (text ≠ [] ∧ (text.all fun c => decide (Text.isAlphanumeric c = true ∨ c = '_')) = true)
    ⟨fun h => ⟨h.1, Text.forall_of_all h.2⟩, fun h => ⟨h.nonempty, Text.all_of_forall h.chars⟩⟩

theorem IsIdentifier.isWord (h : IsIdentifier text) : IsWord text where
  nonempty := h.nonempty
  chars c hc := (h.chars c hc).imp_right fun heq => by simp [heq]
  ne_dash := by
    rintro rfl
    exact absurd (h.chars '-' (by simp)) (by decide +kernel)

theorem IsIdentifier.readsAsKey (h : IsIdentifier text) (hshort : text.length ≤ 1024) : Lexer.ReadsAsKey text where
  nonempty := h.nonempty
  unbroken := h.isWord.unbroken
  begins := by
    rintro c more rfl rest mark
    have hc := h.chars c List.mem_cons_self
    refine h.isWord.beginsPlain (.inr ⟨?_, ?_⟩)
    · rintro rfl
      exact absurd hc (by decide +kernel)
    · rintro rfl
      exact absurd hc (by decide +kernel)
  stops _ := h.isWord.stopsGap
  short := hshort

end DirLock.Yaml
