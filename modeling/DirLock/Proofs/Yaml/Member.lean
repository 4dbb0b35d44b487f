import DirLock.Proofs.Text.Plain
import DirLock.Proofs.Yaml.Block
import DirLock.Proofs.Yaml.Quoted
import DirLock.Yaml.Token.Stream

/-!
# The tokens of a member

A member of a mapping at the left margin, a key, a colon and a value, becomes four tokens. The key is
given out only once its colon was seen, since the key token, and before the first member the start of
the mapping, stand before it.
-/

namespace DirLock.Yaml

namespace Lexer

open Cursor

/-- The state outside of brackets, with one candidate for a key. -/
def inBlock (cursor : Cursor) (queue : List Token) (given : Nat) (indent : Int) (outer : List Int)
    (keyAllowed : Bool) (candidate : KeyCandidate) : Lexer :=
  ⟨cursor, true, false, queue, given, indent, outer, keyAllowed, [candidate], 0⟩

/-- Giving out tokens goes on from the first state to the second in so many steps, and these are the
tokens given out meanwhile. -/
def Gives (steps : Nat) (lexer : Lexer) (tokens : List Token) (lexer' : Lexer) : Prop :=
  ∀ fuel done, run (fuel + steps) lexer done = run fuel lexer' (tokens.reverse ++ done)

section

variable {cursor : Cursor} {queue tokens tokens' : List Token} {given m n : Nat} {indent : Int}
  {outer : List Int} {keyAllowed : Bool} {candidate : KeyCandidate} {lexer lexer' lexer'' : Lexer}
  {mark : Mark} {text rest name : List Char} {c : Char}

theorem Gives.trans (h : Gives m lexer tokens lexer') (h' : Gives n lexer' tokens' lexer'') :
    Gives (n + m) lexer (tokens ++ tokens') lexer'' := by
  intro fuel done
  rw [← Nat.add_assoc, h, h', List.reverse_append, List.append_assoc]

/-! ## Giving out -/

theorem dropStale_of_not_stale (hcandidate : isStale cursor.mark candidate = false) :
    (inBlock cursor queue given indent outer keyAllowed candidate).dropStale =
      .ok (inBlock cursor queue given indent outer keyAllowed candidate) := by
  simp [dropStale, inBlock, withered, hcandidate]

theorem isStale_of_not_possible (hcandidate : candidate.possible = false) :
    isStale mark candidate = false := by
  rw [isStale, hcandidate, Bool.false_and]

theorem gives_queue (hcandidate : candidate.possible = false) :
    Gives tokens.length (inBlock cursor (tokens ++ queue) given indent outer keyAllowed candidate) tokens
      (inBlock cursor queue (given + tokens.length) indent outer keyAllowed candidate) := by
  induction tokens generalizing given with
  | nil => exact fun fuel done => rfl
  | cons first tokens ih =>
    intro fuel done
    have hdrop := @dropStale_of_not_stale cursor (first :: (tokens ++ queue)) given indent outer
      keyAllowed candidate (isStale_of_not_possible hcandidate)
    have hnext := @ih (given + 1) fuel (first :: done)
    rw [Nat.add_assoc, Nat.add_comm 1] at hnext
    rw [List.length_cons, ← Nat.add_assoc, run, List.reverse_cons, List.append_assoc,
      List.singleton_append, ← hnext]
    simp only [inBlock] at hdrop ⊢
    simp only [List.cons_append, hdrop, mustWait]
    simp [hcandidate]

theorem gives_read (hread : (inBlock cursor [] given indent outer keyAllowed candidate).read = .ok lexer) :
    Gives 1 (inBlock cursor [] given indent outer keyAllowed candidate) [] lexer := by
  intro fuel done
  rw [run]
  simp only [inBlock] at hread ⊢
  simp [hread]

/-! ## Gaps -/

/-- Where a gap before a token is over. -/
def StopsGap (text : List Char) : Prop :=
  ∀ c, text.head? = some c → c ≠ ' ' ∧ c ≠ '\t' ∧ c ≠ '#' ∧ c ≠ '\ufeff' ∧ isBreak c = false

theorem skipGaps_spaces {spaces : List Char} (hspaces : ∀ c ∈ spaces, c = ' ') (htext : StopsGap text)
    (fuel : Nat) :
    skipGaps (fuel + 1) (inBlock ⟨spaces ++ text, mark⟩ queue given indent outer keyAllowed candidate) =
      inBlock ⟨text, mark.along spaces.length⟩ queue given indent outer keyAllowed candidate := by
  have hmark : (mark.index == 0 && Cursor.sees ⟨spaces ++ text, mark⟩ '\ufeff') = false := by
    rw [Bool.and_eq_false_iff]
    right
    cases spaces with
    | nil =>
      cases text with
      | nil => rfl
      | cons c text => simpa [sees, peek] using (htext c rfl).2.2.2.1
    | cons d spaces => simp [sees, peek, hspaces d List.mem_cons_self]
  have hskip : Cursor.takeWhile (fun c => c == ' ' || ((!keyAllowed) && c == '\t')) ⟨spaces ++ text, mark⟩ =
      (spaces, ⟨text, mark.along spaces.length⟩) := by
    have hpass : ∀ d ∈ spaces, (d == ' ' || ((!keyAllowed) && d == '\t')) = true := by
      intro d hd
      simp [hspaces d hd]
    rw [Cursor.takeWhile, List.takeWhile_append_of_pos hpass, List.dropWhile_append_of_pos hpass]
    cases text with
    | nil => simp [Mark.along]
    | cons c text => simp [htext c rfl, Mark.along]
  have hstop : Cursor.skipComment ⟨text, mark.along spaces.length⟩ = ⟨text, mark.along spaces.length⟩ ∧
      Cursor.atBreak ⟨text, mark.along spaces.length⟩ = false := by
    cases text with
    | nil => exact ⟨rfl, rfl⟩
    | cons c text => simp [skipComment, sees, peek, atBreak, htext c rfl]
  rw [skipGaps]
  simp [inBlock, inFlow, hmark, hskip, hstop]

theorem skipGaps_newline (htext : StopsGap text) (fuel : Nat) :
    skipGaps (fuel + 2) (inBlock ⟨'\n' :: text, mark⟩ queue given indent outer keyAllowed candidate) =
      inBlock ⟨text, ⟨mark.index + 1, mark.line + 1, 0⟩⟩ queue given indent outer true candidate := by
  have hline : skipGaps (fuel + 1) (inBlock ⟨[] ++ text, ⟨mark.index + 1, mark.line + 1, 0⟩⟩ queue given
      indent outer true candidate) =
      inBlock ⟨text, ⟨mark.index + 1, mark.line + 1, 0⟩⟩ queue given indent outer true candidate :=
    skipGaps_spaces (List.forall_mem_nil _) htext fuel
  have hskip : Cursor.takeWhile (fun c => c == ' ' || ((!keyAllowed) && c == '\t')) ⟨'\n' :: text, mark⟩ =
      ([], ⟨'\n' :: text, mark⟩) := by
    simp [Cursor.takeWhile]
  have hbreak : Cursor.atBreak ⟨'\n' :: text, mark⟩ = true := rfl
  rw [skipGaps]
  simp [inBlock, inFlow, hskip, skipComment, sees, peek, hbreak]
  exact hline

/-! ## The next token -/

theorem closeBlocks_of_le {column : Int} (h : indent ≤ column) :
    (inBlock cursor queue given indent outer keyAllowed candidate).closeBlocks column =
      inBlock cursor queue given indent outer keyAllowed candidate := by
  have hcolumns : closeColumns column cursor.mark outer indent queue = (outer, indent, queue) := by
    cases outer with
    | nil => rfl
    | cons next outer =>
      rw [closeColumns, if_neg]
      omega
  simp only [closeBlocks, inBlock, inFlow] at hcolumns ⊢
  rw [hcolumns]
  rfl

theorem read_of_skipGaps {cursor' : Cursor} {keyAllowed' : Bool}
    (hskip : skipGaps (cursor.rest.length + 1) (inBlock cursor queue given indent outer keyAllowed candidate) =
      inBlock cursor' queue given indent outer keyAllowed' candidate)
    (hcandidate : isStale cursor'.mark candidate = false) (hindent : indent ≤ cursor'.mark.column) :
    (inBlock cursor queue given indent outer keyAllowed candidate).read =
      (inBlock cursor' queue given indent outer keyAllowed' candidate).token := by
  have hdrop := @dropStale_of_not_stale cursor' queue given indent outer keyAllowed' candidate hcandidate
  have hcursor : (inBlock cursor queue given indent outer keyAllowed candidate).cursor = cursor := rfl
  rw [read, if_neg (by simp [inBlock])]
  simp only [hcursor, hskip, hdrop, Bind.bind, Except.bind]
  exact congrArg token (closeBlocks_of_le hindent)

theorem read_spaces {spaces : List Char} (hspaces : ∀ c ∈ spaces, c = ' ') (htext : StopsGap text)
    (hcandidate : isStale (mark.along spaces.length) candidate = false)
    (hindent : indent ≤ (mark.along spaces.length).column) :
    (inBlock ⟨spaces ++ text, mark⟩ queue given indent outer keyAllowed candidate).read =
      (inBlock ⟨text, mark.along spaces.length⟩ queue given indent outer keyAllowed candidate).token :=
  read_of_skipGaps (skipGaps_spaces hspaces htext _) hcandidate hindent

theorem read_here (htext : StopsGap text) (hcandidate : isStale mark candidate = false)
    (hindent : indent ≤ mark.column) :
    (inBlock ⟨text, mark⟩ queue given indent outer keyAllowed candidate).read =
      (inBlock ⟨text, mark⟩ queue given indent outer keyAllowed candidate).token := by
  have hread := @read_spaces queue given indent outer keyAllowed candidate mark text []
    (List.forall_mem_nil _) htext
  rw [List.nil_append, List.length_nil, Mark.along_zero] at hread
  exact hread hcandidate hindent

theorem read_newline (htext : StopsGap text) (hcandidate : candidate.possible = false) (hindent : indent ≤ 0) :
    (inBlock ⟨'\n' :: text, mark⟩ queue given indent outer keyAllowed candidate).read =
      (inBlock ⟨text, ⟨mark.index + 1, mark.line + 1, 0⟩⟩ queue given indent outer true candidate).token :=
  read_of_skipGaps (skipGaps_newline htext _) (isStale_of_not_possible hcandidate) hindent

/-- Where a plain scalar may begin: no indicator stands there. -/
structure BeginsPlain (c : Char) (rest : List Char) (mark : Mark) : Prop where
  noOpening : Printer.opensOther c = false
  noBlank : isBlank c = false
  noBreak : isBreak c = false
  noGap : c = '?' ∨ c = ':' ∨ c = '-' → isGap rest.head? = false
  noDocument : atDocumentIndicator ⟨c :: rest, mark⟩ = false

theorem BeginsPlain.ne (h : BeginsPlain c rest mark) {d : Char} (hd : Printer.opensOther d = true) :
    c ≠ d := by
  rintro rfl
  exact Bool.false_ne_true (h.noOpening.symm.trans hd)

theorem beginsPlain_of (h : BeginsPlain c rest mark) : beginsPlain false c rest.head? = true := by
  by_cases hdash : c = '-'
  · have hgap := h.noGap (.inr (.inr hdash))
    have hnext : (rest.head?.map isBlank).getD false = false := by
      cases rest with
      | nil => rfl
      | cons d rest => exact (Bool.or_eq_false_iff.1 hgap).1
    simp [beginsPlain, hdash, hnext]
  · by_cases hmark : c = '?' ∨ c = ':'
    · have hgap := h.noGap (hmark.imp_right .inl)
      rcases hmark with rfl | rfl <;> simp [beginsPlain, hgap]
    · have hindicators : ∀ d ∈ "-?:,[]\x7b\x7d#&*!|>'\"%@".toList,
          d = '-' ∨ (d = '?' ∨ d = ':') ∨ Printer.opensOther d = true :=
        Text.forall_of_all (by decide)
      have hnone : c ∉ "-?:,[]\x7b\x7d#&*!|>'\"%@".toList := by
        intro hc
        rcases hindicators c hc with hc | hc | hc
        · exact hdash hc
        · exact hmark hc
        · exact h.ne hc rfl
      have htick : c.toNat ≠ 0x60 := by
        intro hc
        have hopens : Printer.opensOther c = true := by simp [Printer.opensOther, hc]
        exact h.ne hopens rfl
      have hcontains : "-?:,[]\x7b\x7d#&*!|>'\"%@".toList.contains c = false := by
        rw [Bool.eq_false_iff]
        exact fun hc => hnone (List.contains_iff_mem.1 hc)
      rw [beginsPlain, hcontains, h.noBlank, h.noBreak]
      simp [htick]

theorem token_plain (h : BeginsPlain c rest mark) :
    (inBlock ⟨c :: rest, mark⟩ queue given indent outer keyAllowed candidate).token =
      (inBlock ⟨c :: rest, mark⟩ queue given indent outer keyAllowed candidate).plainScalar := by
  have hbegins := beginsPlain_of h
  have hindicator := h.noDocument
  simp only [atDocumentIndicator, Bool.or_eq_false_iff] at hindicator
  have hflow : (inBlock ⟨c :: rest, mark⟩ queue given indent outer keyAllowed candidate).inFlow = false := rfl
  have hgap (d : Char) (hd : d = '?' ∨ d = ':' ∨ d = '-') : (c == d && isGap rest.head?) = false := by
    rw [Bool.and_eq_false_iff, beq_eq_false_iff_ne]
    by_cases hc : c = d
    · exact .inr (h.noGap (hc ▸ hd))
    · exact .inl hc
  have hother (d : Char) (hd : Printer.opensOther d = true) : (c == d) = false :=
    beq_eq_false_iff_ne.2 (h.ne hd)
  have hcursor : (inBlock ⟨c :: rest, mark⟩ queue given indent outer keyAllowed candidate).cursor =
      ⟨c :: rest, mark⟩ := rfl
  rw [token, hcursor]
  simp only [hindicator, hflow, Bool.false_or, hgap '-' (by decide), hgap '?' (by decide),
    hgap ':' (by decide), hother '%' (by decide), hother '[' (by decide), hother '\x7b' (by decide),
    hother ']' (by decide), hother '\x7d' (by decide), hother ',' (by decide), hother '*' (by decide),
    hother '&' (by decide), hother '!' (by decide), hother '|' (by decide), hother '>' (by decide),
    hother '\'' (by decide), hother '"' (by decide), hbegins, Bool.false_and, Bool.false_eq_true, if_false,
    if_true]

/-! ## Keys -/

/-- A word that can be a key. -/
structure IsKey (name : List Char) : Prop where
  nonempty : name ≠ []
  word : ∀ c ∈ name, c.isAlphanum = true ∨ c = '_'
  short : name.length ≤ 1024

theorem ne_of_word {d : Char} (hc : c.isAlphanum = true ∨ c = '_') (hd : d.isAlphanum = false ∧ d ≠ '_') :
    c ≠ d := by
  rintro rfl
  rcases hc with hc | hc
  · exact Bool.false_ne_true (hd.1.symm.trans hc)
  · exact hd.2 hc

theorem noBreak_of_word (hc : c.isAlphanum = true ∨ c = '_') : isBlank c = false ∧ isBreak c = false := by
  constructor
  · simp [isBlank, ne_of_word hc (d := ' ') (by decide), ne_of_word hc (d := '\t') (by decide)]
  · simp [isBreak, ne_of_word hc (d := '\n') (by decide), ne_of_word hc (d := '\r') (by decide),
      ne_of_word hc (d := '\u0085') (by decide), ne_of_word hc (d := '\u2028') (by decide),
      ne_of_word hc (d := '\u2029') (by decide)]

theorem opensOther_of_word (hc : c.isAlphanum = true ∨ c = '_') : Printer.opensOther c = false := by
  have hothers : ∀ d ∈ "#,[]\x7b\x7d&*!|>'\"%@".toList, d.isAlphanum = false ∧ d ≠ '_' :=
    Text.forall_of_all (by decide)
  rw [Printer.opensOther, Bool.or_eq_false_iff]
  constructor
  · rw [Bool.eq_false_iff]
    exact fun hmem => ne_of_word hc (hothers c (List.contains_iff_mem.1 hmem)) rfl
  · rw [beq_eq_false_iff_ne]
    intro hcode
    have htick : c = Char.ofNat 0x60 := by rw [← hcode, Char.ofNat_toNat]
    exact ne_of_word hc (by decide) htick

theorem IsKey.beginsPlain (h : IsKey (c :: text)) : BeginsPlain c (text ++ rest) mark := by
  have hc := h.word c List.mem_cons_self
  obtain ⟨hblank, hbreak⟩ := noBreak_of_word hc
  refine ⟨opensOther_of_word hc, hblank, hbreak, ?_, ?_⟩
  · rintro (rfl | rfl | rfl) <;> exact absurd hc (by decide)
  · simp [atDocumentIndicator, atIndicator, ne_of_word hc (d := '-') (by decide),
      ne_of_word hc (d := '.') (by decide)]

theorem IsKey.stopsGap (h : IsKey name) : StopsGap (name ++ rest) := by
  intro c hc
  obtain ⟨d, text, rfl⟩ := List.exists_cons_of_ne_nil h.nonempty
  obtain rfl : d = c := Option.some.inj hc
  have hword := h.word d List.mem_cons_self
  exact ⟨ne_of_word hword (by decide), ne_of_word hword (by decide), ne_of_word hword (by decide),
    ne_of_word hword (by decide), (noBreak_of_word hword).2⟩

/-- What is read as a key where it begins a line: a word that nothing else begins with. -/
structure ReadsAsKey (name : List Char) : Prop where
  nonempty : name ≠ []
  unbroken : ∀ c ∈ name, isBlank c = false ∧ isBreak c = false ∧ c ≠ ':'
  begins : ∀ c text, name = c :: text → ∀ rest mark, BeginsPlain c (text ++ rest) mark
  stops : ∀ rest, StopsGap (name ++ rest)
  short : name.length ≤ 1024

theorem IsKey.readsAsKey (h : IsKey name) : ReadsAsKey name where
  nonempty := h.nonempty
  unbroken c hc := by
    obtain ⟨hblank, hbreak⟩ := noBreak_of_word (h.word c hc)
    exact ⟨hblank, hbreak, ne_of_word (h.word c hc) (by decide)⟩
  begins c text hname rest mark := IsKey.beginsPlain (hname ▸ h)
  stops _ := h.stopsGap
  short := h.short

/-- A line begins: at the left margin, or behind the break that ends the line before. -/
def AtLine (text : List Char) (cursor : Cursor) (keyAllowed : Bool) : Prop :=
  (cursor.rest = text ∧ cursor.mark.column = 0 ∧ keyAllowed = true) ∨ cursor.rest = '\n' :: text

theorem read_line (hcursor : AtLine text cursor keyAllowed) (htext : StopsGap text)
    (hcandidate : candidate.possible = false) (hindent : indent ≤ 0) : ∃ mark, mark.column = 0 ∧
      (inBlock cursor queue given indent outer keyAllowed candidate).read =
        (inBlock ⟨text, mark⟩ queue given indent outer true candidate).token := by
  obtain ⟨_, mark⟩ := cursor
  rcases hcursor with ⟨rfl, hcolumn, rfl⟩ | rfl
  · have hmargin : indent ≤ mark.column := by omega
    exact ⟨mark, hcolumn, read_here htext (isStale_of_not_possible hcandidate) hmargin⟩
  · exact ⟨⟨mark.index + 1, mark.line + 1, 0⟩, rfl, read_newline htext hcandidate hindent⟩

theorem saveCandidate_of_allowed (hcandidate : candidate.possible = false) :
    (inBlock cursor [] given indent outer true candidate).saveCandidate =
      .ok (inBlock cursor [] given indent outer true ⟨true, indent == cursor.mark.column, given, cursor.mark⟩) := by
  simp [saveCandidate, inBlock, inFlow, dropCandidate, Lexer.candidate, hcandidate, setCandidate, Bind.bind,
    Except.bind, Pure.pure, Except.pure]

theorem saveCandidate_of_not_allowed :
    (inBlock cursor queue given indent outer false candidate).saveCandidate =
      .ok (inBlock cursor queue given indent outer false candidate) := rfl

theorem plainScalar_eq {cursor' : Cursor} {keyAllowed' broken : Bool} {candidate' : KeyCandidate}
    {token : Token}
    (hsave : (inBlock cursor queue given indent outer keyAllowed candidate).saveCandidate =
      .ok (inBlock cursor queue given indent outer keyAllowed' candidate'))
    (hplain : Scalar.plain false indent cursor = .ok (token, broken, cursor')) :
    (inBlock cursor queue given indent outer keyAllowed candidate).plainScalar =
      .ok (inBlock cursor' (queue ++ [token]) given indent outer broken candidate') := by
  rw [plainScalar, hsave]
  change (Scalar.plain false indent cursor >>= _) = _
  rw [hplain]
  rfl

theorem token_key (hname : ReadsAsKey name) (hcandidate : candidate.possible = false) : ∃ stop,
    (inBlock ⟨name ++ ':' :: ' ' :: rest, mark⟩ [] given indent outer true candidate).token =
      .ok (inBlock ⟨':' :: ' ' :: rest, mark.along name.length⟩ [⟨.scalar name .plain, mark, stop⟩] given
        indent outer false ⟨true, indent == mark.column, given, mark⟩) := by
  obtain ⟨stop, hplain⟩ := @Scalar.plain_key mark rest name indent hname.unbroken
  obtain ⟨c, text, rfl⟩ := List.exists_cons_of_ne_nil hname.nonempty
  refine ⟨stop, (token_plain (hname.begins c text rfl _ mark)).trans ?_⟩
  exact plainScalar_eq (saveCandidate_of_allowed hcandidate) hplain

theorem gives_wait {first : Token} (hpossible : candidate.possible = true) (hnumber : candidate.number = given)
    (hstale : isStale cursor.mark candidate = false)
    (hread : (inBlock cursor (first :: queue) given indent outer keyAllowed candidate).read = .ok lexer) :
    Gives 1 (inBlock cursor (first :: queue) given indent outer keyAllowed candidate) [] lexer := by
  intro fuel done
  have hdrop := @dropStale_of_not_stale cursor (first :: queue) given indent outer keyAllowed candidate hstale
  rw [run]
  simp only [inBlock] at hread hdrop ⊢
  simp [hdrop, mustWait, hpossible, hnumber, hread]

/-- The tokens that stand before a key: the start of the mapping where none is open. -/
def opening (indent : Int) (mark : Mark) : List Token :=
  if indent = 0 then [] else [⟨.blockMappingStart, mark, mark⟩]

/-- The columns of the mappings around an entry at the left margin. -/
def around (indent : Int) (outer : List Int) : List Int := if indent = 0 then outer else indent :: outer

theorem token_colon {first : Token} {required : Bool} {stop : Mark} (hcolumn : mark.column = 0)
    (hindent : indent = 0 ∨ indent = -1) :
    (inBlock ⟨':' :: ' ' :: rest, stop⟩ [first] given indent outer false
        ⟨true, required, given, mark⟩).token =
      .ok (inBlock ⟨' ' :: rest, stop.along 1⟩
        (opening indent mark ++ [⟨.key, mark, mark⟩, first, ⟨.value, stop, stop.along 1⟩]) given 0
        (around indent outer) false ⟨false, required, given, mark⟩) := by
  have hindicator : Cursor.atIndicator ⟨':' :: ' ' :: rest, stop⟩ '-' = false ∧
      Cursor.atIndicator ⟨':' :: ' ' :: rest, stop⟩ '.' = false := by
    simp [atIndicator]
  have hcolon : (inBlock ⟨':' :: ' ' :: rest, stop⟩ [first] given indent outer false
      ⟨true, required, given, mark⟩).token = (inBlock ⟨':' :: ' ' :: rest, stop⟩ [first] given indent outer
        false ⟨true, required, given, mark⟩).value := by
    have hgap : isGap (some ' ') = true := rfl
    rw [token]
    simp [inBlock, hindicator, hgap]
  rw [hcolon]
  rcases hindent with rfl | rfl <;>
    simp [value, inBlock, Lexer.candidate, pushAt, openBlock, inFlow, hcolumn, setCandidate, indicator,
      advanceBy, advance_cons, push, opening, around, Pure.pure, Except.pure]

theorem gives_key (hname : ReadsAsKey name) (hread : ∃ mark : Mark, mark.column = 0 ∧
      (inBlock cursor [] given indent outer keyAllowed candidate).read =
        (inBlock ⟨name ++ ':' :: ' ' :: rest, mark⟩ [] given indent outer true candidate).token)
    (hcandidate : candidate.possible = false) (hindent : indent = 0 ∨ indent = -1) :
    ∃ mark stop stop' tokens candidate', stop'.column ≠ 0 ∧ candidate'.possible = false ∧
      tokens = opening indent mark ++
        [⟨.key, mark, mark⟩, ⟨.scalar name .plain, mark, stop⟩, ⟨.value, stop', stop'.along 1⟩] ∧
      Gives (tokens.length + 1 + 1) (inBlock cursor [] given indent outer keyAllowed candidate) tokens
        (inBlock ⟨' ' :: rest, stop'.along 1⟩ [] (given + tokens.length) 0 (around indent outer) false
          candidate') := by
  obtain ⟨mark, hcolumn, hread⟩ := hread
  obtain ⟨stop, hkey⟩ : ∃ stop, (inBlock ⟨name ++ ':' :: ' ' :: rest, mark⟩ [] given indent outer true
      candidate).token = .ok (inBlock ⟨':' :: ' ' :: rest, mark.along name.length⟩
        [⟨.scalar name .plain, mark, stop⟩] given indent outer false
        ⟨true, indent == mark.column, given, mark⟩) := token_key hname hcandidate
  have hfirst := gives_read (hread.trans hkey)
  have hfresh : isStale (mark.along name.length) ⟨true, indent == mark.column, given, mark⟩ = false := by
    have hshort := hname.short
    simp [isStale, Mark.along]
    omega
  have hstops : StopsGap (':' :: ' ' :: rest) := by
    intro c hc
    obtain rfl : ':' = c := Option.some.inj hc
    decide
  have hcolon := @token_colon given indent outer mark rest ⟨.scalar name .plain, mark, stop⟩
    (indent == mark.column) (mark.along name.length) hcolumn hindent
  have hmargin : indent ≤ (mark.along name.length).column := by
    simp only [Mark.along]
    omega
  have hsecond := gives_wait rfl rfl hfresh ((read_here hstops hfresh hmargin).trans hcolon)
  refine ⟨mark, stop, mark.along name.length, _, ⟨false, indent == mark.column, given, mark⟩, ?_, rfl, rfl,
    (hfirst.trans hsecond).trans ?_⟩
  · have hlong := List.length_pos_iff.2 hname.nonempty
    simp only [Mark.along]
    omega
  · have hgiven := @gives_queue ⟨' ' :: rest, (mark.along name.length).along 1⟩ []
      (opening indent mark ++ [⟨.key, mark, mark⟩, ⟨.scalar name .plain, mark, stop⟩,
        ⟨.value, mark.along name.length, (mark.along name.length).along 1⟩]) given 0 (around indent outer)
      false ⟨false, indent == mark.column, given, mark⟩ rfl
    rwa [List.append_nil] at hgiven

/-! ## Values -/

theorem gives_value {cursor' : Cursor} {keyAllowed' : Bool} {candidate' : KeyCandidate} {token : Token}
    (htext : StopsGap text) (hcandidate : candidate.possible = false) (hcandidate' : candidate'.possible = false)
    (htoken : (inBlock ⟨text, mark.along 1⟩ [] given 0 outer false candidate).token =
      .ok (inBlock cursor' [token] given 0 outer keyAllowed' candidate')) :
    Gives 2 (inBlock ⟨' ' :: text, mark⟩ [] given 0 outer false candidate) [token]
      (inBlock cursor' [] (given + 1) 0 outer keyAllowed' candidate') := by
  have hread : (inBlock ⟨[' '] ++ text, mark⟩ [] given 0 outer false candidate).read = _ :=
    read_spaces (fun c hc => List.mem_singleton.1 hc) htext (isStale_of_not_possible hcandidate)
      (Int.natCast_nonneg _)
  have hgiven := @gives_queue cursor' [] [token] given 0 outer keyAllowed' candidate' hcandidate'
  exact (gives_read (hread.trans htoken)).trans hgiven

theorem beginsPlain_of_isPlain (htext : Printer.IsPlain (c :: text)) (hcolumn : mark.column ≠ 0) :
    BeginsPlain c (text ++ rest) mark := by
  obtain ⟨-, -, hopens, hgap, -⟩ := Printer.first_of_not_indicator htext.noIndicator
  have hspace : c ≠ ' ' := fun h => htext.firstNoSpace (congrArg some h)
  refine ⟨hopens, ?_, htext.oneLine c List.mem_cons_self, fun h => ?_, ?_⟩
  · rw [Printer.isBlank_of_isPrintable (htext.printable c List.mem_cons_self)]
    exact beq_eq_false_iff_ne.2 hspace
  · have hnext := hgap h
    rw [Printer.isGap, Bool.or_eq_false_iff] at hnext
    cases text with
    | nil => exact absurd hnext.1 (by decide)
    | cons d text => exact hnext.1
  · simp [atDocumentIndicator, atIndicator, hcolumn]

theorem stopsGap_of_beginsPlain (hbegins : BeginsPlain c rest mark) (hprint : Printer.isPrintable c = true) :
    StopsGap (c :: rest) := by
  intro d hd
  obtain rfl : c = d := Option.some.inj hd
  have hother (d : Char) (hd : isBlank d = true ∨ Printer.isPrintable d = false) : c ≠ d := by
    rintro rfl
    rcases hd with hd | hd
    · exact Bool.false_ne_true (hbegins.noBlank.symm.trans hd)
    · exact Bool.false_ne_true (hd.symm.trans hprint)
  exact ⟨hother ' ' (by decide), hother '\t' (by decide), hbegins.ne (by decide), hother '\ufeff' (by decide),
    hbegins.noBreak⟩

/-- What is written is the value of a member, and then what follows it. -/
def IsValue (written : List Char) (follows : Cursor → Bool → Prop) (value : List Char) (style : ScalarStyle) : Prop :=
  ∀ (given : Nat) (outer : List Int) (mark : Mark) (candidate : KeyCandidate), candidate.possible = false →
    ∃ token cursor' keyAllowed' candidate', token.kind = .scalar value style ∧
      follows cursor' keyAllowed' ∧ candidate'.possible = false ∧
      Gives 2 (inBlock ⟨' ' :: written, mark⟩ [] given 0 outer false candidate) [token]
        (inBlock cursor' [] (given + 1) 0 outer keyAllowed' candidate')

theorem isValue_plain (hne : text ≠ []) (hplain : Printer.allowsPlain text = true)
    (hrest : ∀ c, rest.head? = some c → isBlank c = false ∧ isBreak c = false) :
    IsValue (text ++ '\n' :: rest) (AtLine rest) text .plain := by
  intro given outer mark candidate hcandidate
  obtain ⟨stop, hread⟩ := @Scalar.plain_line (mark.along 1) rest text hne hplain (Nat.succ_ne_zero _) hrest
  obtain ⟨c, text, rfl⟩ := List.exists_cons_of_ne_nil hne
  have htext := Printer.isPlain_of_allowsPlain hplain
  have hbegins : BeginsPlain c (text ++ '\n' :: rest) (mark.along 1) :=
    beginsPlain_of_isPlain htext (Nat.succ_ne_zero _)
  have hstops := stopsGap_of_beginsPlain hbegins (htext.printable c List.mem_cons_self)
  refine ⟨⟨.scalar (c :: text) .plain, mark.along 1, stop⟩,
    ⟨rest, ⟨(mark.along 1).index + (c :: text).length + 1, (mark.along 1).line + 1, 0⟩⟩, true,
    candidate, rfl, .inl ⟨rfl, rfl, rfl⟩, hcandidate, gives_value hstops hcandidate hcandidate ?_⟩
  exact (token_plain hbegins).trans (plainScalar_eq saveCandidate_of_not_allowed hread)

theorem token_quote {quote : Char} (hquote : quote = '\'' ∨ quote = '"') {cursor' : Cursor} {token : Token}
    (hread : Scalar.quoted (quote == '\'') ⟨quote :: rest, mark⟩ = .ok (token, cursor')) :
    (inBlock ⟨quote :: rest, mark⟩ queue given indent outer false candidate).token =
      .ok (inBlock cursor' (queue ++ [token]) given indent outer false candidate) := by
  have hcontent : (inBlock ⟨quote :: rest, mark⟩ queue given indent outer false candidate).token =
      (inBlock ⟨quote :: rest, mark⟩ queue given indent outer false candidate).content
        (Scalar.quoted (quote == '\'')) := by
    rw [Lexer.token]
    rcases hquote with rfl | rfl <;> simp [inBlock, inFlow, atIndicator]
  rw [hcontent, content, saveCandidate_of_not_allowed]
  change (Scalar.quoted (quote == '\'') ⟨quote :: rest, mark⟩ >>= _) = _
  rw [hread]
  rfl

theorem token_block {cursor' : Cursor} {token : Token} (hcandidate : candidate.possible = false)
    (hread : Scalar.block true indent ⟨'|' :: rest, mark⟩ = .ok (token, cursor')) :
    (inBlock ⟨'|' :: rest, mark⟩ queue given indent outer keyAllowed candidate).token =
      .ok (inBlock cursor' (queue ++ [token]) given indent outer true { candidate with possible := false }) := by
  have hblock : (inBlock ⟨'|' :: rest, mark⟩ queue given indent outer keyAllowed candidate).token =
      (inBlock ⟨'|' :: rest, mark⟩ queue given indent outer keyAllowed candidate).blockScalar true := by
    rw [Lexer.token]
    simp [inBlock, inFlow, atIndicator]
  have hdrop : (inBlock ⟨'|' :: rest, mark⟩ queue given indent outer keyAllowed candidate).dropCandidate =
      .ok (inBlock ⟨'|' :: rest, mark⟩ queue given indent outer keyAllowed
        { candidate with possible := false }) := by
    simp [dropCandidate, Lexer.candidate, inBlock, hcandidate, setCandidate]
  rw [hblock, blockScalar, hdrop]
  change (Scalar.block true indent ⟨'|' :: rest, mark⟩ >>= _) = _
  rw [hread]
  rfl

theorem ended_of_last {written : List Char} (hlast : written.getLast? = some c) (hbreak : isBreak c = false) :
    Printer.ended written = written ++ ['\n'] := by
  simp [Printer.ended, hlast, hbreak]

theorem getLast?_singleQuoted (broken : Bool) (text : List Char) :
    (Printer.singleQuoted broken text).getLast? = some '\'' := by
  have hcons (c : Char) (rest : List Char) (h : rest.getLast? = some '\'') :
      (c :: rest).getLast? = some '\'' := by
    rw [List.getLast?_cons, h]
    rfl
  induction text generalizing broken with
  | nil => exact List.getLast?_concat
  | cons c text ih =>
    rw [Printer.singleQuoted]
    split
    · exact hcons c _ (ih true)
    · split
      · exact hcons c _ (ih broken)
      · rw [List.getLast?_append, ih false]
        rfl

theorem plain_of_style (hstyle : Printer.style text = .plain) :
    Printer.isAmbiguous text = false ∧ Printer.allowsPlain text = true := by
  rw [Printer.style] at hstyle
  split at hstyle
  · split at hstyle <;> contradiction
  · split at hstyle
    case isTrue hplain => simpa using hplain
    case isFalse => split at hstyle <;> contradiction

theorem single_of_style (hstyle : Printer.style text = .singleQuoted) :
    '\n' ∉ text ∧ Printer.allowsSingle text = true := by
  rw [Printer.style] at hstyle
  split at hstyle
  · split at hstyle <;> contradiction
  · rename_i hfeed
    refine ⟨by simpa using hfeed, ?_⟩
    split at hstyle
    · contradiction
    · split at hstyle
      · assumption
      · contradiction

theorem block_of_style (hstyle : Printer.style text = .literal) : Printer.allowsBlock text = true := by
  rw [Printer.style] at hstyle
  split at hstyle
  · split at hstyle
    · assumption
    · contradiction
  · split at hstyle
    · contradiction
    · split at hstyle <;> contradiction

theorem style_ne_folded (text : List Char) : Printer.style text ≠ .folded := by
  rw [Printer.style]
  split <;> (try split) <;> (try split) <;> decide

theorem ended_append (front : List Char) (hne : text ≠ []) :
    Printer.ended (front ++ text) = front ++ Printer.ended text := by
  obtain ⟨c, hlast⟩ : ∃ c, text.getLast? = some c := ⟨_, List.getLast?_eq_some_getLast hne⟩
  rw [Printer.ended, Printer.ended, List.getLast?_append, hlast]
  cases hbreak : isBreak c <;> simp [hbreak]

theorem scalar_ne_nil (text : List Char) : Printer.scalar text ≠ [] := by
  rw [Printer.scalar]
  split
  case h_1 hstyle =>
    rintro rfl
    exact absurd (plain_of_style hstyle).1 (by decide)
  all_goals exact List.cons_ne_nil _ _

theorem isValue_scalar (text : List Char) :
    IsValue (Printer.ended (Printer.scalar text)) (AtLine []) text (Printer.style text) := by
  intro given outer mark candidate hcandidate
  have hstops (quote : Char) (inside : List Char) (hquote : quote = '\'' ∨ quote = '"' ∨ quote = '|') :
      StopsGap (quote :: inside) := by
    intro c hc
    obtain rfl : quote = c := Option.some.inj hc
    rcases hquote with rfl | rfl | rfl <;> decide
  cases hstyle : Printer.style text with
  | plain =>
    obtain ⟨hclear, hplain⟩ := plain_of_style hstyle
    have hne : text ≠ [] := by
      rintro rfl
      exact absurd hclear (by decide)
    obtain ⟨c, hlast⟩ : ∃ c, text.getLast? = some c := ⟨_, List.getLast?_eq_some_getLast hne⟩
    have hbreak := (Printer.isPlain_of_allowsPlain hplain).oneLine c (List.mem_of_getLast? hlast)
    rw [Printer.scalar, hstyle, ended_of_last hlast hbreak]
    have hnone : ∀ c, ([] : List Char).head? = some c → isBlank c = false ∧ isBreak c = false :=
      fun c hc => absurd hc (by simp)
    exact isValue_plain hne hplain hnone given outer mark candidate hcandidate
  | singleQuoted =>
    obtain ⟨hfeed, hsingle⟩ := single_of_style hstyle
    have hlast : ('\'' :: Printer.singleQuoted false text).getLast? = some '\'' := by
      rw [List.getLast?_cons, getLast?_singleQuoted]
      rfl
    obtain ⟨stop, hread⟩ := @Scalar.quoted_single (mark.along 1) ['\n'] text hsingle hfeed (by decide)
    rw [Printer.scalar, hstyle, ended_of_last hlast rfl]
    exact ⟨_, ⟨['\n'], stop⟩, false, candidate, rfl, .inr rfl, hcandidate,
      gives_value (hstops '\'' _ (by decide)) hcandidate hcandidate (token_quote (.inl rfl) hread)⟩
  | doubleQuoted =>
    have hlast : ('"' :: text.flatMap Printer.doubleQuotedChar ++ ['"']).getLast? = some '"' :=
      List.getLast?_concat
    obtain ⟨stop, hread⟩ := @Scalar.quoted_double (mark.along 1) ['\n'] text
    have hwritten : '"' :: text.flatMap Printer.doubleQuotedChar ++ ['"'] ++ ['\n'] =
        '"' :: (text.flatMap Printer.doubleQuotedChar ++ '"' :: ['\n']) := by simp
    rw [Printer.scalar, hstyle, ended_of_last hlast rfl, hwritten]
    exact ⟨_, ⟨['\n'], stop⟩, false, candidate, rfl, .inr rfl, hcandidate,
      gives_value (hstops '"' _ (by decide)) hcandidate hcandidate (token_quote (.inr rfl) hread)⟩
  | literal =>
    obtain ⟨stop, mark', hcolumn, hread⟩ := @Scalar.block_literal (mark.along 1) text (block_of_style hstyle)
    have hwritten : Printer.scalar text =
        '|' :: Printer.blockHints text ++ ['\n'] ++ Printer.blockLines true text := by
      rw [Printer.scalar, hstyle]
      simp
    rw [← hwritten] at hread
    obtain ⟨inside, hinside⟩ : ∃ inside, Printer.ended (Printer.scalar text) = '|' :: inside := by
      rw [Printer.ended, hwritten]
      split
      · exact ⟨_, rfl⟩
      · exact ⟨_, rfl⟩
    rw [hinside] at hread ⊢
    exact ⟨_, ⟨[], mark'⟩, true, { candidate with possible := false }, rfl, .inl ⟨rfl, hcolumn, rfl⟩, rfl,
      gives_value (hstops '|' _ (by decide)) hcandidate rfl (token_block hcandidate hread)⟩
  | folded => exact absurd hstyle (style_ne_folded text)

/-! ## Members -/

def memberKinds (name value : List Char) (style : ScalarStyle) : List TokenKind :=
  [.key, .scalar name .plain, .value, .scalar value style]

theorem gives_member {written value : List Char} {style : ScalarStyle} {follows : Cursor → Bool → Prop}
    (hname : ReadsAsKey name) (hvalue : IsValue written follows value style)
    (hread : ∃ mark : Mark, mark.column = 0 ∧
      (inBlock cursor [] given indent outer keyAllowed candidate).read =
        (inBlock ⟨name ++ ':' :: ' ' :: written, mark⟩ [] given indent outer true candidate).token)
    (hcandidate : candidate.possible = false) (hindent : indent = 0 ∨ indent = -1) :
    ∃ n ≤ 8, ∃ tokens cursor' keyAllowed' candidate',
      tokens.map Token.kind =
        (if indent = 0 then [] else [.blockMappingStart]) ++ memberKinds name value style ∧
      follows cursor' keyAllowed' ∧ candidate'.possible = false ∧
      Gives n (inBlock cursor [] given indent outer keyAllowed candidate) tokens
        (inBlock cursor' [] (given + tokens.length) 0 (around indent outer) keyAllowed' candidate') := by
  obtain ⟨mark, stop, stop', keys, middle, -, hmiddle, hkeys, hkey⟩ :=
    @gives_key cursor given indent outer keyAllowed candidate written name hname hread hcandidate hindent
  obtain ⟨token, cursor', keyAllowed', candidate', hkind, hnext, hcandidate', hgives⟩ :=
    hvalue (given + keys.length) (around indent outer) (stop'.along 1) middle hmiddle
  refine ⟨2 + (keys.length + 1 + 1), ?_, keys ++ [token], cursor', keyAllowed', candidate', ?_, hnext,
    hcandidate', ?_⟩
  · rw [hkeys]
    rcases hindent with rfl | rfl <;> simp [opening]
  · rw [hkeys]
    rcases hindent with rfl | rfl <;> simp [opening, memberKinds, hkind]
  · rw [List.length_append, List.length_singleton, ← Nat.add_assoc]
    exact hkey.trans hgives

/-! ## The ends of the text -/

theorem gives_start (text : List Char) :
    Gives 2 (ofText text) [⟨.streamStart, Mark.start, Mark.start⟩]
      (inBlock (Cursor.ofText text) [] 1 (-1) [] true KeyCandidate.none) := by
  have hgiven := @gives_queue (Cursor.ofText text) [] [⟨.streamStart, Mark.start, Mark.start⟩] 0 (-1) [] true
    KeyCandidate.none rfl
  intro fuel done
  exact hgiven fuel done

/-- The tokens that close a text: the end of the mapping if one is open, and that of the text. -/
def closing (indent : Int) : List TokenKind := if indent = 0 then [.blockEnd, .streamEnd] else [.streamEnd]

theorem ends_text (hread : ∃ mark keyAllowed', (inBlock cursor [] given indent outer keyAllowed candidate).read =
      (inBlock ⟨[], mark⟩ [] given indent outer keyAllowed' candidate).token)
    (hopen : indent = 0 ∧ outer = [-1] ∨ indent = -1 ∧ outer = []) (hcandidate : candidate.possible = false) :
    ∃ tokens : List Token, tokens.map Token.kind = closing indent ∧ ∀ fuel done,
      run (fuel + 4) (inBlock cursor [] given indent outer keyAllowed candidate) done =
        ⟨done.reverse ++ tokens, none⟩ := by
  obtain ⟨mark, keyAllowed', hread⟩ := hread
  -- Behind the last line the end stands at the start of a line of its own.
  obtain ⟨last, hlast⟩ : ∃ last, (if mark.column = 0 then mark else ⟨mark.index, mark.line + 1, 0⟩) = last := ⟨_, rfl⟩
  rcases hopen with ⟨rfl, rfl⟩ | ⟨rfl, rfl⟩
  · have hfinish : (inBlock ⟨[], mark⟩ [] given 0 [-1] keyAllowed' candidate).token =
        .ok ⟨⟨[], last⟩, true, true, [⟨.blockEnd, last, last⟩, ⟨.streamEnd, last, last⟩], given, -1, [], false,
          [{ candidate with possible := false }], 0⟩ := by
      rw [Lexer.token]
      simp [inBlock, finish, closeBlocks, inFlow, closeColumns, dropCandidate, Lexer.candidate, hcandidate,
        setCandidate, push, Bind.bind, Except.bind, Pure.pure, Except.pure]
      exact hlast
    refine ⟨[⟨.blockEnd, last, last⟩, ⟨.streamEnd, last, last⟩], rfl, fun fuel done => ?_⟩
    have hfirst := gives_read (hread.trans hfinish) (fuel + 3) done
    rw [hfirst]
    simp [run, dropStale, isStale, withered, mustWait]
  · have hfinish : (inBlock ⟨[], mark⟩ [] given (-1) [] keyAllowed' candidate).token =
        .ok ⟨⟨[], last⟩, true, true, [⟨.streamEnd, last, last⟩], given, -1, [], false,
          [{ candidate with possible := false }], 0⟩ := by
      rw [Lexer.token]
      simp [inBlock, finish, closeBlocks, inFlow, closeColumns, dropCandidate, Lexer.candidate, hcandidate,
        setCandidate, push, Bind.bind, Except.bind, Pure.pure, Except.pure]
      exact hlast
    refine ⟨[⟨.streamEnd, last, last⟩], rfl, fun fuel done => ?_⟩
    have hfirst := gives_read (hread.trans hfinish) (fuel + 3) done
    rw [hfirst]
    simp [run, dropStale, isStale, withered, mustWait]

theorem scan_of_gives
    (hgives : Gives n (inBlock (Cursor.ofText text) [] 1 (-1) [] true KeyCandidate.none) tokens
      (inBlock cursor [] given indent outer keyAllowed candidate))
    (hread : ∃ mark keyAllowed', (inBlock cursor [] given indent outer keyAllowed candidate).read =
      (inBlock ⟨[], mark⟩ [] given indent outer keyAllowed' candidate).token)
    (hopen : indent = 0 ∧ outer = [-1] ∨ indent = -1 ∧ outer = []) (hcandidate : candidate.possible = false)
    (hn : n ≤ 8 * text.length) : ∃ all, Token.scan text = ⟨all, none⟩ ∧
      all.map Token.kind = .streamStart :: (tokens.map Token.kind ++ closing indent) := by
  obtain ⟨closed, hkinds, hend⟩ := ends_text hread hopen hcandidate
  have hfuel : 8 * text.length + 16 = 8 * text.length - n + 10 + 4 + (n + 2) := by omega
  refine ⟨⟨.streamStart, Mark.start, Mark.start⟩ :: (tokens ++ closed), ?_, by simp [hkinds]⟩
  rw [Token.scan, hfuel, (gives_start text).trans hgives, hend]
  simp

theorem read_end (hcursor : AtLine [] cursor keyAllowed) (hcandidate : candidate.possible = false)
    (hindent : indent ≤ 0) : ∃ mark keyAllowed',
      (inBlock cursor [] given indent outer keyAllowed candidate).read =
        (inBlock ⟨[], mark⟩ [] given indent outer keyAllowed' candidate).token := by
  obtain ⟨mark, -, hread⟩ : ∃ mark : Mark, mark.column = 0 ∧
      (inBlock cursor [] given indent outer keyAllowed candidate).read =
        (inBlock ⟨[], mark⟩ [] given indent outer true candidate).token :=
    read_line hcursor (fun c hc => absurd hc (by simp)) hcandidate hindent
  exact ⟨mark, true, hread⟩

end

end Lexer

end DirLock.Yaml
