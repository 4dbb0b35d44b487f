import DirLock.Proofs.Yaml.Allowed
import DirLock.Proofs.Yaml.Mapping
import DirLock.Proofs.Yaml.Word
import Mathlib.Data.List.Basic

/-!
# Texts of simple lines

A text of blank lines, comments and entries at the left margin has the tokens of its entries, in their order, and
no others. What stands between two entries is passed over in two places: blank lines behind a value while the value
is read, since its next line could go on with it, and the rest when the next token is looked for. So behind an entry
the reader has lines before it that hold the entries that are left, not always all the lines that are.
-/

namespace DirLock.Yaml

inductive Line where
  | blank (spaces : Nat)
  | comment (text : List Char)
  | entry (name value : List Char)
  deriving DecidableEq, Repr

namespace Line

def text : Line → List Char
  | blank spaces => List.replicate spaces ' '
  | comment text => '#' :: text
  | entry name value => name ++ ':' :: ' ' :: value

def entry? : Line → Option Entry
  | entry name value => some ⟨name, value, .plain⟩
  | _ => none

/-- The line is read as what it is: a comment ends with its line, and a name and a value are words. -/
def Reads : Line → Prop
  | blank _ => True
  | comment text => ∀ c ∈ text, isAllowed c = true ∧ isBreak c = false
  | entry name value => (IsIdentifier name ∧ name.length ≤ 1024) ∧ IsWord value

def join (lines : List Line) : List Char := ['\n'].intercalate (lines.map text)

def entries (lines : List Line) : List Entry := lines.filterMap entry?

/-- What stands behind a line that these follow. -/
def behind : List Line → List Char
  | [] => []
  | lines => '\n' :: join lines

variable {line : Line} {lines more : List Line}

theorem join_cons (line : Line) (lines : List Line) : join (line :: lines) = line.text ++ behind lines := by
  cases lines with
  | nil => simp [join, behind]
  | cons next lines => simp [join, behind, List.intercalate_cons_cons]

theorem behind_cons (line : Line) (lines : List Line) : behind (line :: lines) = '\n' :: join (line :: lines) := rfl

theorem join_append_cons (gap : List Line) (line : Line) (lines : List Line) :
    join (gap ++ line :: lines) = (gap.flatMap fun l => l.text ++ ['\n']) ++ join (line :: lines) := by
  induction gap with
  | nil => rfl
  | cons first gap ih =>
    have hbehind : behind (gap ++ line :: lines) = '\n' :: join (gap ++ line :: lines) := by
      cases gap <;> rfl
    rw [List.cons_append, join_cons, hbehind, ih, List.flatMap_cons]
    simp

theorem mem_join {c : Char} (hline : line ∈ lines) (hc : c ∈ line.text) : c ∈ join lines := by
  obtain ⟨gap, more, rfl⟩ := List.append_of_mem hline
  rw [join_append_cons, join_cons]
  exact List.mem_append_right _ (List.mem_append_left _ hc)

theorem Reads.blank_or_comment (hreads : line.Reads) (hnone : line.entry? = none) :
    (∃ spaces, line = blank spaces) ∨
      ∃ text, line = comment text ∧ ∀ c ∈ text, Yaml.isAllowed c = true ∧ Yaml.isBreak c = false := by
  cases line with
  | blank spaces => exact .inl ⟨spaces, rfl⟩
  | comment text => exact .inr ⟨text, rfl, hreads⟩
  | entry name value => cases hnone

theorem Reads.head (hreads : line.Reads) : (∃ spaces, line = blank spaces) ∨
    ∃ c text, line.text = c :: text ∧ isBlank c = false ∧ isBreak c = false := by
  cases line with
  | blank spaces => exact .inl ⟨spaces, rfl⟩
  | comment text => exact .inr ⟨'#', text, rfl, rfl, rfl⟩
  | entry name value =>
    obtain ⟨c, rest, rfl⟩ := List.exists_cons_of_ne_nil hreads.1.1.nonempty
    have hc := hreads.1.1.isWord.chars c List.mem_cons_self
    exact .inr ⟨c, rest ++ ':' :: ' ' :: value, rfl, hc.isBlank_eq, hc.isBreak_eq⟩

theorem length_entries_le (lines : List Line) : (entries lines).length ≤ (join lines).length := by
  induction lines with
  | nil => exact Nat.le_refl 0
  | cons line lines ih =>
    have hbehind : (join lines).length ≤ (behind lines).length := by
      cases lines with
      | nil => exact Nat.le_refl 0
      | cons next lines => exact Nat.le_succ _
    rw [join_cons, List.length_append]
    cases line with
    | entry name value =>
      have hcons : entries (entry name value :: lines) = ⟨name, value, .plain⟩ :: entries lines := rfl
      rw [hcons, text, List.length_append, List.length_cons, List.length_cons]
      omega
    | blank spaces => exact (ih.trans hbehind).trans (Nat.le_add_left _ _)
    | comment text => exact (ih.trans hbehind).trans (Nat.le_add_left _ _)

theorem isAllowed_join (hreads : ∀ line ∈ lines, line.Reads) : ∀ c ∈ join lines, isAllowed c = true := by
  induction lines with
  | nil => exact nofun
  | cons line lines ih =>
    intro c hc
    rw [join_cons] at hc
    rcases List.mem_append.1 hc with hc | hc
    · have hline := hreads line List.mem_cons_self
      cases line with
      | blank spaces =>
        rw [List.eq_of_mem_replicate hc]
        decide
      | comment text =>
        rcases List.mem_cons.1 hc with rfl | hc
        · decide
        · exact (hline c hc).1
      | entry name value =>
        rcases List.mem_append.1 hc with hc | hc
        · exact (hline.1.1.isWord.chars c hc).isAllowed
        · rcases List.mem_cons.1 hc with rfl | hc
          · decide
          · rcases List.mem_cons.1 hc with rfl | hc
            · decide
            · exact (hline.2.chars c hc).isAllowed
    · cases lines with
      | nil => exact nomatch hc
      | cons next lines =>
        rcases List.mem_cons.1 hc with rfl | hc
        · decide
        · exact ih (fun line hmem => hreads line (List.mem_cons_of_mem _ hmem)) c hc

/-- What is left behind an entry that these lines follow: lines at the left margin that hold the same entries, or
nothing any more. -/
def Leaves (lines : List Line) (cursor : Cursor) (keyAllowed : Bool) : Prop :=
  ∃ left, left <:+ lines ∧ entries left = entries lines ∧
    (cursor.rest = join left ∧ cursor.mark.column = 0 ∧ keyAllowed = true ∨ cursor.rest = [] ∧ left = [])

end Line

/-! ## Values -/

namespace Scalar

open Line (join entries behind Leaves)

variable {began mark stop : Mark} {value text : List Char} {gap : Gap} {lines : List Line} {rest : List Char}
  {indent : Int}

theorem plainGoes_margin (spaces : Nat) (hbroken : gap.broken = true) :
    PlainGoes indent began spaces ⟨value, stop, gap, false⟩ ⟨List.replicate spaces ' ' ++ rest, mark⟩
      ⟨value, stop, gap, false⟩ ⟨rest, mark.along spaces⟩ := by
  induction spaces generalizing mark with
  | zero => exact .refl _ _
  | succ spaces ih =>
    have hstep : PlainGoes indent began 1 ⟨value, stop, gap, false⟩
        ⟨' ' :: (List.replicate spaces ' ' ++ rest), mark⟩ ⟨value, stop, gap, false⟩
        ⟨List.replicate spaces ' ' ++ rest, mark.along 1⟩ := by
      intro fuel
      rw [plainFrom]
      simp [Cursor.atBlank, Cursor.sees, Cursor.peek, isBlank, Gap.step, hbroken, Cursor.advance_cons]
    have hrest := hstep.trans (@ih (mark.along 1))
    rw [Mark.along_along, Nat.add_comm 1] at hrest
    exact hrest

theorem plainGoes_break (hbroken : gap.broken = true) :
    PlainGoes indent began 1 ⟨value, stop, gap, false⟩ ⟨'\n' :: rest, mark⟩
      ⟨value, stop, { gap with more := gap.more ++ ['\n'] }, false⟩
      ⟨rest, ⟨mark.index + 1, mark.line + 1, 0⟩⟩ := by
  intro fuel
  rw [plainFrom]
  simp [Cursor.atBlank, Cursor.atBreak, Cursor.sees, Cursor.peek, isBlank, isBreak, Gap.step, hbroken,
    Cursor.advanceLine, Cursor.breakText]

theorem plainGoes_lines (hreads : ∀ line ∈ lines, line.Reads) (hcolumn : mark.column = 0)
    (hbroken : gap.broken = true) : ∃ n ≤ (join lines).length, ∃ left gap' cursor',
      PlainGoes indent began n ⟨value, stop, gap, false⟩ ⟨join lines, mark⟩ ⟨value, stop, gap', false⟩ cursor' ∧
        gap'.broken = true ∧ left <:+ lines ∧ entries left = entries lines ∧
        (cursor'.rest = join left ∧ cursor'.mark.column = 0 ∧
            (∃ c, cursor'.rest.head? = some c ∧ isBlank c = false ∧ isBreak c = false) ∨
          cursor'.rest = [] ∧ left = []) := by
  induction lines generalizing mark gap with
  | nil => exact ⟨0, Nat.le_refl 0, [], gap, ⟨[], mark⟩, .refl _ _, hbroken, List.suffix_refl _, rfl, .inr ⟨rfl, rfl⟩⟩
  | cons line lines ih =>
    rcases (hreads line List.mem_cons_self).head with ⟨spaces, rfl⟩ | ⟨c, text, htext, hblank, hbreak⟩
    · rw [Line.join_cons, Line.text]
      cases lines with
      | nil =>
        refine ⟨spaces, by simp, [], gap, ⟨[], mark.along spaces⟩, plainGoes_margin spaces hbroken, hbroken,
          List.nil_suffix, rfl, .inr ⟨rfl, rfl⟩⟩
      | cons next lines =>
        let below : Mark := ⟨(mark.along spaces).index + 1, (mark.along spaces).line + 1, 0⟩
        obtain ⟨n, hn, left, gap', cursor', hgo, hbroken', hsuffix, hsame, hend⟩ :=
          @ih below { gap with more := gap.more ++ ['\n'] }
            (fun line hmem => hreads line (List.mem_cons_of_mem _ hmem)) rfl hbroken
        refine ⟨n + (1 + spaces), ?_, left, gap', cursor',
          ((plainGoes_margin spaces hbroken).trans (plainGoes_break hbroken)).trans hgo, hbroken',
          hsuffix.trans (List.suffix_cons _ _), hsame, hend⟩
        rw [Line.behind_cons, List.length_append, List.length_replicate, List.length_cons]
        omega
    · refine ⟨0, Nat.zero_le _, line :: lines, gap, ⟨join (line :: lines), mark⟩, .refl _ _, hbroken,
        List.suffix_refl _, rfl, .inl ⟨rfl, hcolumn, c, ?_, hblank, hbreak⟩⟩
      rw [Line.join_cons, htext]
      rfl

/-- At the margin the next line ends a scalar behind whose words a line ended. At the end of the text, the end does. -/
theorem plainFrom_stops {cursor : Cursor} (hend : cursor.rest = [] ∨
      cursor.mark.column = 0 ∧ ∃ c, cursor.rest.head? = some c ∧ isBlank c = false ∧ isBreak c = false) :
    ∃ inWord, ∀ fuel, plainFrom false (0 + 1) began (fuel + 2) ⟨value, stop, gap, false⟩ cursor =
      .ok (⟨value, stop, gap, inWord⟩, cursor) := by
  obtain ⟨rest, mark⟩ := cursor
  rcases hend with hnil | ⟨hcolumn, c, hhead, hblank, hbreak⟩
  · obtain rfl : rest = [] := hnil
    by_cases hcolumn : mark.column = 0
    · refine ⟨false, fun fuel => ?_⟩
      rw [plainFrom]
      simp [Cursor.atBlank, Cursor.atBreak, Cursor.peek, hcolumn]
    · refine ⟨true, fun fuel => ?_⟩
      rw [plainFrom]
      simp [Cursor.atBlank, Cursor.atBreak, Cursor.peek, Cursor.sees, Cursor.atDocumentIndicator,
        Cursor.atIndicator, hcolumn]
      rw [plainFrom]
      rfl
  · refine ⟨false, fun fuel => ?_⟩
    rw [plainFrom]
    have hpast : Cursor.atBlank ⟨rest, mark⟩ = false ∧ Cursor.atBreak ⟨rest, mark⟩ = false := by
      simp [Cursor.atBlank, Cursor.atBreak, Cursor.peek, show rest.head? = some c from hhead, hblank, hbreak]
    simp [hpast, show mark.column = 0 from hcolumn]

theorem plain_word (hword : IsWord text) (hreads : ∀ line ∈ lines, line.Reads) :
    ∃ stop broken cursor', plain false 0 ⟨text ++ behind lines, mark⟩ =
      .ok (⟨.scalar text .plain, mark, stop⟩, broken, cursor') ∧ Leaves lines cursor' broken := by
  obtain ⟨stop, hgo⟩ : ∃ stop, PlainGoes (0 + 1) mark text.length ⟨[], mark, .spaces [], true⟩
      ⟨text ++ behind lines, mark⟩ ⟨text.reverse ++ [], stop, .spaces [], true⟩
      ⟨behind lines, mark.along text.length⟩ := plainGoes_key hword.unbroken
  cases lines with
  | nil =>
    have hend (fuel : Nat) : plainFrom false (0 + 1) mark (fuel + 1) ⟨text.reverse ++ [], stop, .spaces [], true⟩
        ⟨behind [], mark.along text.length⟩ =
          .ok (⟨text.reverse ++ [], stop, .spaces [], true⟩, ⟨behind [], mark.along text.length⟩) := by
      rw [plainFrom]
      simp [behind]
    refine ⟨stop, false, ⟨behind [], mark.along text.length⟩,
      (plain_of_goes hgo hend ?_).trans (by simp [Gap.spaces]), [], List.suffix_refl _, rfl, .inr ⟨rfl, rfl⟩⟩
    simp only [List.length_append]
    omega
  | cons line lines =>
    obtain ⟨n, hn, left, gap, cursor', hlines, hbroken, hsuffix, hsame, hend⟩ :=
      @plainGoes_lines mark ⟨(mark.along text.length).index + 1, (mark.along text.length).line + 1, 0⟩ stop
        (text.reverse ++ []) ⟨true, [], ['\n'], []⟩ (line :: lines) (0 + 1) hreads rfl rfl
    obtain ⟨inWord, hstops⟩ := @plainFrom_stops mark stop (text.reverse ++ []) gap cursor'
      (hend.symm.imp And.left And.right)
    have hwhole := (hgo.trans plainGoes_newline).trans hlines
    refine ⟨stop, gap.broken, cursor', (plain_of_goes hwhole hstops ?_).trans (by simp), left, hsuffix, hsame, ?_⟩
    · have hlong := List.length_pos_iff.2 hword.nonempty
      rw [List.length_append, Line.behind_cons, List.length_cons]
      omega
    · exact hend.imp_left fun hmargin => ⟨hmargin.1, hmargin.2.1, hbroken⟩

end Scalar

/-! ## Gaps -/

namespace Lexer

open Line (join entries behind Leaves)

variable {queue tokens : List Token} {given : Nat} {indent : Int} {outer : List Int} {keyAllowed : Bool}
  {candidate : KeyCandidate} {cursor : Cursor} {mark : Mark} {line : Line} {lines : List Line} {tail : List Char}
  {entry : Entry} {others : List Entry}

theorem skipComment_line (hreads : line.Reads) (hnone : line.entry? = none) (tabs : Bool)
    (htail : tail = [] ∨ ∃ rest, tail = '\n' :: rest) :
    (Cursor.takeWhile (fun c => c == ' ' || (tabs && c == '\t')) ⟨line.text ++ tail, mark⟩).2.skipComment =
      ⟨tail, mark.along line.text.length⟩ := by
  have hstop (p : Char → Bool) (hp : p '\n' = false) : tail.takeWhile p = [] ∧ tail.dropWhile p = tail := by
    rcases htail with rfl | ⟨rest, rfl⟩ <;> simp [hp]
  rcases hreads.blank_or_comment hnone with ⟨spaces, rfl⟩ | ⟨text, rfl, htext⟩
  · have hpass : ∀ c ∈ List.replicate spaces ' ', (c == ' ' || (tabs && c == '\t')) = true := by
      intro c hc
      simp [List.eq_of_mem_replicate hc]
    have hskip : Cursor.takeWhile (fun c => c == ' ' || (tabs && c == '\t'))
        ⟨List.replicate spaces ' ' ++ tail, mark⟩ = (List.replicate spaces ' ', ⟨tail, mark.along spaces⟩) := by
      rw [Cursor.takeWhile, List.takeWhile_append_of_pos hpass, List.dropWhile_append_of_pos hpass]
      simp [hstop, Mark.along]
    have hnone : Cursor.skipComment ⟨tail, mark.along spaces⟩ = ⟨tail, mark.along spaces⟩ := by
      rcases htail with rfl | ⟨rest, rfl⟩ <;> simp [Cursor.skipComment, Cursor.sees, Cursor.peek]
    rw [Line.text, hskip, hnone, List.length_replicate]
  · have hskip : Cursor.takeWhile (fun c => c == ' ' || (tabs && c == '\t')) ⟨'#' :: (text ++ tail), mark⟩ =
        ([], ⟨'#' :: (text ++ tail), mark⟩) := by simp [Cursor.takeWhile]
    have hpass : ∀ c ∈ '#' :: text, (!isBreak c) = true := by
      intro c hc
      rcases List.mem_cons.1 hc with rfl | hc
      · rfl
      · simp [(htext c hc).2]
    have hcomment : Cursor.takeWhile (fun c => !isBreak c) ⟨'#' :: text ++ tail, mark⟩ =
        ('#' :: text, ⟨tail, mark.along ('#' :: text).length⟩) := by
      rw [Cursor.takeWhile, List.takeWhile_append_of_pos hpass, List.dropWhile_append_of_pos hpass]
      simp [hstop, isBreak, Mark.along]
    rw [Line.text, List.cons_append, hskip, Cursor.skipComment]
    exact congrArg Prod.snd hcomment

theorem not_sees_mark (hreads : line.Reads) (hnone : line.entry? = none)
    (htail : tail = [] ∨ ∃ rest, tail = '\n' :: rest) : Cursor.sees ⟨line.text ++ tail, mark⟩ '\ufeff' = false := by
  rcases hreads.blank_or_comment hnone with ⟨_ | spaces, rfl⟩ | ⟨text, rfl, -⟩
  · rcases htail with rfl | ⟨rest, rfl⟩ <;> simp [Line.text, Cursor.sees, Cursor.peek]
  · simp [Line.text, Cursor.sees, Cursor.peek, List.replicate_succ]
  · simp [Line.text, Cursor.sees, Cursor.peek]

theorem skipGaps_line (hreads : line.Reads) (hnone : line.entry? = none) (fuel : Nat) :
    skipGaps (fuel + 1) (inBlock ⟨line.text ++ '\n' :: tail, mark⟩ queue given indent outer keyAllowed candidate) =
      skipGaps fuel (inBlock ⟨tail, ⟨(mark.along line.text.length).index + 1, mark.line + 1, 0⟩⟩ queue given indent
        outer true candidate) := by
  have hmark := @not_sees_mark mark line ('\n' :: tail) hreads hnone (.inr ⟨tail, rfl⟩)
  have hskip := @skipComment_line mark line ('\n' :: tail) hreads hnone (!keyAllowed) (.inr ⟨tail, rfl⟩)
  rw [skipGaps]
  simp only [inBlock, inFlow, hmark, Bool.and_false, Bool.false_eq_true, if_false, Nat.lt_irrefl, decide_false,
    Bool.false_or, hskip]
  have hbreak : Cursor.atBreak ⟨'\n' :: tail, mark.along line.text.length⟩ = true := rfl
  rw [if_pos hbreak, Bool.not_false, Bool.or_true]
  rfl

theorem skipGaps_last (hreads : line.Reads) (hnone : line.entry? = none) (fuel : Nat) :
    skipGaps (fuel + 1) (inBlock ⟨line.text, mark⟩ queue given indent outer keyAllowed candidate) =
      inBlock ⟨[], mark.along line.text.length⟩ queue given indent outer keyAllowed candidate := by
  have hmark := @not_sees_mark mark line [] hreads hnone (.inl rfl)
  have hskip := @skipComment_line mark line [] hreads hnone (!keyAllowed) (.inl rfl)
  rw [List.append_nil] at hmark hskip
  rw [skipGaps]
  simp only [inBlock, inFlow, hmark, Bool.and_false, Bool.false_eq_true, if_false, Nat.lt_irrefl, decide_false,
    Bool.false_or, hskip]
  rfl

theorem skipGaps_lines (hgap : ∀ line ∈ lines, line.Reads ∧ line.entry? = none) (hcolumn : mark.column = 0) :
    ∃ mark', mark'.column = 0 ∧ ∀ fuel, skipGaps (fuel + lines.length)
        (inBlock ⟨(lines.flatMap fun l => l.text ++ ['\n']) ++ tail, mark⟩ queue given indent outer true candidate) =
      skipGaps fuel (inBlock ⟨tail, mark'⟩ queue given indent outer true candidate) := by
  induction lines generalizing mark with
  | nil => exact ⟨mark, hcolumn, fun _ => rfl⟩
  | cons line lines ih =>
    obtain ⟨hreads, hnone⟩ := hgap line List.mem_cons_self
    obtain ⟨mark', hmargin, hskip⟩ := @ih ⟨(mark.along line.text.length).index + 1, mark.line + 1, 0⟩
      (fun line hmem => hgap line (List.mem_cons_of_mem _ hmem)) rfl
    refine ⟨mark', hmargin, fun fuel => ?_⟩
    have hfirst := @skipGaps_line queue given indent outer true candidate mark line
      ((lines.flatMap fun l => l.text ++ ['\n']) ++ tail) hreads hnone (fuel + lines.length)
    rw [List.flatMap_cons, List.append_assoc, List.append_assoc, List.singleton_append, List.length_cons,
      ← Nat.add_assoc, hfirst, hskip]

theorem skipGaps_gap (hgap : ∀ line ∈ lines, line.Reads ∧ line.entry? = none) (hcolumn : mark.column = 0) :
    ∃ mark' fuel, mark'.column = 0 ∧
      skipGaps (((lines.flatMap fun l => l.text ++ ['\n']) ++ tail).length + 1)
        (inBlock ⟨(lines.flatMap fun l => l.text ++ ['\n']) ++ tail, mark⟩ queue given indent outer true candidate) =
      skipGaps (fuel + 1) (inBlock ⟨tail, mark'⟩ queue given indent outer true candidate) := by
  obtain ⟨mark', hmargin, hskip⟩ := @skipGaps_lines queue given indent outer candidate mark lines tail hgap hcolumn
  have hlong : lines.length ≤ (lines.flatMap fun l => l.text ++ ['\n']).length := by
    clear hskip hgap
    induction lines with
    | nil => exact Nat.le_refl 0
    | cons line lines ih =>
      rw [List.flatMap_cons, List.length_append, List.length_append, List.length_cons, List.length_singleton]
      omega
  obtain ⟨fuel, hfuel⟩ : ∃ fuel, ((lines.flatMap fun l => l.text ++ ['\n']) ++ tail).length + 1 =
      fuel + 1 + lines.length :=
    ⟨((lines.flatMap fun l => l.text ++ ['\n']) ++ tail).length - lines.length, by
      rw [List.length_append]
      omega⟩
  exact ⟨mark', fuel, hmargin, by rw [hfuel, hskip]⟩

theorem read_entry (hleaves : Leaves lines cursor keyAllowed) (hreads : ∀ line ∈ lines, line.Reads)
    (hentries : entries lines = entry :: others) (hcandidate : candidate.possible = false) (hindent : indent ≤ 0) :
    ReadsAsKey entry.name ∧ IsWord entry.value ∧ entry.style = .plain ∧ ∃ more, more <:+ lines ∧
      entries more = others ∧ ∃ mark : Mark, mark.column = 0 ∧
        (inBlock cursor queue given indent outer keyAllowed candidate).read =
          (inBlock ⟨entry.name ++ ':' :: ' ' :: (entry.value ++ behind more), mark⟩ queue given indent outer true
            candidate).token := by
  obtain ⟨left, hsuffix, hsame, hleft⟩ := hleaves
  obtain ⟨gap, line, more, rfl, hgap, hline, hmore⟩ := List.filterMap_eq_cons_iff.1 (hsame.trans hentries)
  rcases hleft with ⟨hrest, hcolumn, rfl⟩ | ⟨-, hnil⟩
  · obtain ⟨name, value, rfl, rfl⟩ : ∃ name value, line = .entry name value ∧ entry = ⟨name, value, .plain⟩ := by
      cases line with
      | entry name value => exact ⟨name, value, rfl, (Option.some.inj hline).symm⟩
      | _ => cases hline
    obtain ⟨⟨hname, hshort⟩, hvalue⟩ := hreads _ (hsuffix.subset (by simp : Line.entry name value ∈ _))
    have hkey := hname.readsAsKey hshort
    refine ⟨hkey, hvalue, rfl, more, ?_, hmore, ?_⟩
    · exact (List.suffix_cons _ _).trans ((List.suffix_append _ _).trans hsuffix)
    · obtain ⟨rest, mark⟩ := cursor
      obtain rfl : rest = join (gap ++ .entry name value :: more) := hrest
      have htext : join (gap ++ .entry name value :: more) = (gap.flatMap fun l => l.text ++ ['\n']) ++
          (name ++ ':' :: ' ' :: (value ++ behind more)) := by
        rw [Line.join_append_cons, Line.join_cons, Line.text]
        simp
      rw [htext]
      obtain ⟨mark', fuel, hmargin, hskip⟩ := @skipGaps_gap queue given indent outer candidate mark gap
        (name ++ ':' :: ' ' :: (value ++ behind more))
        (fun l hmem => ⟨hreads l (hsuffix.subset (List.mem_append_left _ hmem)), hgap l hmem⟩) hcolumn
      have hhere := @skipGaps_spaces queue given indent outer true candidate mark'
        (name ++ ':' :: ' ' :: (value ++ behind more)) [] (List.forall_mem_nil _) (hkey.stops _) fuel
      exact ⟨mark', hmargin, read_of_skipGaps (hskip.trans hhere) (isStale_of_not_possible hcandidate)
        (show indent ≤ (mark'.column : Int) by omega)⟩
  · simp at hnil

theorem read_lines_end (hleaves : Leaves lines cursor keyAllowed) (hreads : ∀ line ∈ lines, line.Reads)
    (hentries : entries lines = []) (hcandidate : candidate.possible = false) (hindent : indent ≤ 0) :
    ∃ mark keyAllowed', (inBlock cursor queue given indent outer keyAllowed candidate).read =
      (inBlock ⟨[], mark⟩ queue given indent outer keyAllowed' candidate).token := by
  obtain ⟨left, hsuffix, hsame, hleft⟩ := hleaves
  obtain ⟨rest, mark⟩ := cursor
  have hnil : rest = [] → ∃ mark' keyAllowed', (inBlock ⟨rest, mark⟩ queue given indent outer keyAllowed
      candidate).read = (inBlock ⟨[], mark'⟩ queue given indent outer keyAllowed' candidate).token := by
    rintro rfl
    exact ⟨mark, keyAllowed, read_here nofun (isStale_of_not_possible hcandidate) (by omega)⟩
  rcases hleft with ⟨hrest, hcolumn, rfl⟩ | ⟨hrest, -⟩
  · rcases List.eq_nil_or_concat' left with rfl | ⟨gap, last, rfl⟩
    · exact hnil hrest
    · have hgap : ∀ line ∈ gap ++ [last], line.Reads ∧ line.entry? = none := fun line hmem =>
        ⟨hreads line (hsuffix.subset hmem), List.filterMap_eq_nil_iff.1 (hsame.trans hentries) line hmem⟩
      obtain ⟨hlast, hnone⟩ := hgap last (by simp)
      obtain rfl : rest = (gap.flatMap fun l => l.text ++ ['\n']) ++ last.text := by
        have htext := Line.join_append_cons gap last []
        rw [Line.join_cons, behind, List.append_nil] at htext
        exact hrest.trans htext
      obtain ⟨mark', fuel, hmargin, hskip⟩ := @skipGaps_gap queue given indent outer candidate mark gap last.text
        (fun line hmem => hgap line (List.mem_append_left _ hmem)) hcolumn
      exact ⟨mark'.along last.text.length, true, read_of_skipGaps (hskip.trans (skipGaps_last hlast hnone fuel))
        (isStale_of_not_possible hcandidate) (show indent ≤ ((mark'.along last.text.length).column : Int) by omega)⟩
  · exact hnil hrest

/-! ## Entries -/

theorem isValue_word {text : List Char} (hword : IsWord text) (hreads : ∀ line ∈ lines, line.Reads) :
    IsValue (text ++ behind lines) (Leaves lines) text .plain := by
  intro given outer mark candidate hcandidate
  obtain ⟨stop, broken, cursor', hread, hleaves⟩ := @Scalar.plain_word (mark.along 1) text lines hword hreads
  obtain ⟨c, rest, rfl⟩ := List.exists_cons_of_ne_nil hword.nonempty
  refine ⟨⟨.scalar (c :: rest) .plain, mark.along 1, stop⟩, cursor', broken, candidate, rfl, hleaves, hcandidate,
    gives_value hword.stopsGap hcandidate hcandidate ?_⟩
  exact (token_plain (hword.beginsPlain (.inl (Nat.succ_ne_zero _)))).trans
    (plainScalar_eq saveCandidate_of_not_allowed hread)

theorem gives_entry (hleaves : Leaves lines cursor keyAllowed) (hreads : ∀ line ∈ lines, line.Reads)
    (hentries : entries lines = entry :: others) (hcandidate : candidate.possible = false)
    (hindent : indent = 0 ∨ indent = -1) : ∃ n ≤ 8, ∃ tokens more cursor' keyAllowed' candidate',
      tokens.map Token.kind = (if indent = 0 then [] else [.blockMappingStart]) ++ entry.tokens ∧
      more <:+ lines ∧ entries more = others ∧ Leaves more cursor' keyAllowed' ∧ candidate'.possible = false ∧
      Gives n (inBlock cursor [] given indent outer keyAllowed candidate) tokens
        (inBlock cursor' [] (given + tokens.length) 0 (around indent outer) keyAllowed' candidate') := by
  obtain ⟨hkey, hvalue, hstyle, more, hsuffix, hmore, hread⟩ :=
    @read_entry [] given indent outer keyAllowed candidate cursor lines entry others hleaves hreads hentries hcandidate
      (by omega)
  obtain ⟨n, hn, tokens, cursor', keyAllowed', candidate', hkinds, hleaves', hcandidate', hgives⟩ :=
    gives_member hkey (isValue_word hvalue fun line hmem => hreads line (hsuffix.subset hmem)) hread hcandidate hindent
  exact ⟨n, hn, tokens, more, cursor', keyAllowed', candidate', by rw [hkinds, Entry.tokens, hstyle], hsuffix, hmore,
    hleaves', hcandidate', hgives⟩

/-- Inside the mapping, the entries of lines become their tokens, and then the text is at its end. -/
theorem gives_entries (hleaves : Leaves lines cursor keyAllowed) (hreads : ∀ line ∈ lines, line.Reads)
    (hentries : entries lines = others) (hcandidate : candidate.possible = false) :
    ∃ n ≤ 8 * others.length, ∃ tokens cursor' keyAllowed' given' candidate',
      tokens.map Token.kind = others.flatMap Entry.tokens ∧ candidate'.possible = false ∧
      (∃ mark keyAllowed'', (inBlock cursor' [] given' 0 [-1] keyAllowed' candidate').read =
        (inBlock ⟨[], mark⟩ [] given' 0 [-1] keyAllowed'' candidate').token) ∧
      Gives n (inBlock cursor [] given 0 [-1] keyAllowed candidate) tokens
        (inBlock cursor' [] given' 0 [-1] keyAllowed' candidate') := by
  induction others generalizing lines cursor keyAllowed given candidate with
  | nil =>
    exact ⟨0, Nat.le_refl 0, [], cursor, keyAllowed, given, candidate, rfl, hcandidate,
      read_lines_end hleaves hreads hentries hcandidate (Int.le_refl 0), fun _ _ => rfl⟩
  | cons entry others ih =>
    obtain ⟨n, hn, tokens, more, cursor', keyAllowed', candidate', hkinds, hsuffix, hmore, hleaves', hcandidate',
      hgives⟩ := @gives_entry given 0 [-1] keyAllowed candidate cursor lines entry others hleaves hreads hentries
        hcandidate (.inl rfl)
    obtain ⟨m, hm, tokens', cursor'', keyAllowed'', given', candidate'', hkinds', hcandidate'', hend, hgives'⟩ :=
      @ih (given + tokens.length) keyAllowed' candidate' cursor' more hleaves'
        (fun line hmem => hreads line (hsuffix.subset hmem)) hmore hcandidate'
    refine ⟨m + n, ?_, tokens ++ tokens', cursor'', keyAllowed'', given', candidate'', ?_, hcandidate'', hend,
      hgives.trans hgives'⟩
    · rw [List.length_cons]
      omega
    · rw [List.map_append, hkinds, hkinds', List.flatMap_cons]
      rfl

theorem scan_lines (hreads : ∀ line ∈ lines, line.Reads) : ∃ tokens,
    Token.scan (join lines) = ⟨tokens, none⟩ ∧ tokens.map Token.kind =
      if entries lines = [] then [.streamStart, .streamEnd] else mappingTokens (entries lines) := by
  have hleaves : Leaves lines (Cursor.ofText (join lines)) true :=
    ⟨lines, List.suffix_refl _, rfl, .inl ⟨rfl, rfl, rfl⟩⟩
  have hsize := Line.length_entries_le lines
  cases hentries : entries lines with
  | nil =>
    have hnothing : Gives 0 (inBlock (Cursor.ofText (join lines)) [] 1 (-1) [] true KeyCandidate.none) []
        (inBlock (Cursor.ofText (join lines)) [] 1 (-1) [] true KeyCandidate.none) := fun _ _ => rfl
    exact scan_of_gives hnothing (read_lines_end hleaves hreads hentries rfl (by decide)) (.inr ⟨rfl, rfl⟩) rfl
      (Nat.zero_le _)
  | cons entry others =>
    rw [hentries, List.length_cons] at hsize
    obtain ⟨n, hn, tokens, more, cursor, keyAllowed, candidate, hkinds, hsuffix, hmore, hleaves', hcandidate,
      hgives⟩ := @gives_entry 1 (-1) [] true KeyCandidate.none (Cursor.ofText (join lines)) lines entry others hleaves
        hreads hentries rfl (.inr rfl)
    obtain ⟨m, hm, tokens', cursor', keyAllowed', given', candidate', hkinds', hcandidate', hend, hgives'⟩ :=
      @gives_entries (1 + tokens.length) keyAllowed candidate cursor more others hleaves'
        (fun line hmem => hreads line (hsuffix.subset hmem)) hmore hcandidate
    obtain ⟨all, hscan, hall⟩ := scan_of_gives (hgives.trans hgives') hend (.inl ⟨rfl, rfl⟩) hcandidate' (by omega)
    refine ⟨all, hscan, hall.trans ?_⟩
    rw [List.map_append, hkinds, hkinds', if_neg (List.cons_ne_nil _ _), mappingTokens, List.flatMap_cons]
    simp [closing]

end Lexer

/-! ## The document -/

theorem Grammar.ofTokens_nothing {tokens : List Token} (htokens : tokens.map Token.kind = [.streamStart, .streamEnd]) :
    ∃ events, Event.ofTokens ⟨tokens, none⟩ = ⟨events, none⟩ ∧
      events.map Event.kind = [.streamStart, .streamEnd] := by
  obtain ⟨⟨_, start, stop⟩, _, rfl, rfl, hmore⟩ := List.map_eq_cons_iff.1 htokens
  obtain ⟨⟨_, start', stop'⟩, _, rfl, rfl, hnil⟩ := List.map_eq_cons_iff.1 hmore
  obtain rfl := List.map_eq_nil_iff.1 hnil
  exact ⟨[⟨.streamStart, start⟩, ⟨.streamEnd, start'⟩], rfl, rfl⟩

theorem Document.ofText_lines {lines : List Line} (hreads : ∀ line ∈ lines, line.Reads) : ∃ items,
    Document.ofText (Line.join lines) = (⟨items, [], none⟩, false) ∧ items.map Item.part =
      if Line.entries lines = [] then [.void] else mappingParts (Line.entries lines) := by
  obtain ⟨tokens, hscan, hkinds⟩ := Lexer.scan_lines hreads
  rw [Document.ofText, firstForbidden_eq_none (Line.isAllowed_join hreads)]
  dsimp only
  rw [hscan]
  by_cases hnone : Line.entries lines = []
  · rw [if_pos hnone] at hkinds ⊢
    obtain ⟨events, hevents, hformed⟩ := Grammar.ofTokens_nothing hkinds
    obtain ⟨⟨_, start⟩, _, rfl, rfl, hmore⟩ := List.map_eq_cons_iff.1 hformed
    obtain ⟨⟨_, stop⟩, _, rfl, rfl, hnil⟩ := List.map_eq_cons_iff.1 hmore
    obtain rfl := List.map_eq_nil_iff.1 hnil
    rw [hevents]
    exact ⟨[⟨.void, stop⟩], rfl, rfl⟩
  · rw [if_neg hnone] at hkinds ⊢
    obtain ⟨events, hevents, hformed⟩ := Grammar.ofTokens_mapping hnone hkinds
    obtain ⟨items, hitems, hcollect⟩ := Document.collect_mapping hformed
    rw [hevents]
    exact ⟨items, hcollect, hitems⟩

end DirLock.Yaml
