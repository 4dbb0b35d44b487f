import DirLock.Proofs.Yaml.Plain

/-!
# Literal blocks read back

In a block the lines stand as they are, each indented by two spaces unless it is empty. The hints in
the header tell the reader what it cannot see from the lines: how far they are indented where the first
one begins with a space or is empty, and how many of the last breaks belong to the text.
-/

namespace DirLock.Yaml

namespace Scalar

open Cursor
open Printer (isPrintable isSpace indentation blockHints)

variable {began mark stop : Mark} {text line breaks tail rest : List Char} {c : Char} {fuel : Nat}
  {broken : Bool}

/-! ## What is written -/

theorem written_break (hbreak : isBreak c = true) :
    Printer.blockLines broken (c :: rest) = c :: Printer.blockLines true rest := by
  rw [Printer.blockLines, if_pos hbreak]

theorem written_char (hbreak : isBreak c = false) :
    Printer.blockLines broken (c :: rest) =
      (if broken then indentation else []) ++ c :: Printer.blockLines false rest := by
  rw [Printer.blockLines, hbreak, if_neg Bool.false_ne_true]

theorem written_line (hline : ∀ c ∈ line, isBreak c = false) :
    Printer.blockLines false (line ++ rest) = line ++ Printer.blockLines false rest := by
  induction line with
  | nil => rfl
  | cons c line ih =>
    rw [List.cons_append, written_char (hline c List.mem_cons_self),
      ih fun d hd => hline d (List.mem_cons_of_mem _ hd)]
    rfl

theorem written_breaks (hbreaks : ∀ c ∈ breaks, isBreak c = true) :
    Printer.blockLines true (breaks ++ rest) = breaks ++ Printer.blockLines true rest := by
  induction breaks with
  | nil => rfl
  | cons c breaks ih =>
    rw [List.cons_append, written_break (hbreaks c List.mem_cons_self),
      ih fun d hd => hbreaks d (List.mem_cons_of_mem _ hd)]
    rfl

theorem written_last (text : List Char) (c : Char) (broken : Bool) :
    ∃ before, Printer.blockLines broken (text ++ [c]) = before ++ [c] ∧
      (isBreak c = true → before = Printer.blockLines broken text) := by
  induction text generalizing broken with
  | nil =>
    cases hbreak : isBreak c with
    | true => exact ⟨[], written_break hbreak, fun _ => rfl⟩
    | false =>
      exact ⟨if broken then indentation else [], written_char hbreak, fun h => nomatch h⟩
  | cons d text ih =>
    cases hbreak : isBreak d with
    | true =>
      obtain ⟨before, hbefore, hc⟩ := ih true
      refine ⟨d :: before, ?_, fun h => ?_⟩
      · rw [List.cons_append, written_break hbreak, hbefore, List.cons_append]
      · rw [written_break hbreak, hc h]
    | false =>
      obtain ⟨before, hbefore, hc⟩ := ih false
      refine ⟨(if broken then indentation else []) ++ d :: before, ?_, fun h => ?_⟩
      · rw [List.cons_append, written_char hbreak, hbefore, List.append_assoc, List.cons_append]
      · rw [written_char hbreak, hc h]

theorem length_le_written (broken : Bool) (text : List Char) :
    text.length ≤ (Printer.blockLines broken text).length := by
  induction text generalizing broken with
  | nil => exact Nat.zero_le _
  | cons c text ih =>
    cases hbreak : isBreak c with
    | true =>
      rw [written_break hbreak, List.length_cons, List.length_cons]
      exact Nat.succ_le_succ (ih true)
    | false =>
      have hshort := ih false
      rw [written_char hbreak, List.length_append, List.length_cons, List.length_cons]
      omega

/-! ## Empty lines -/

theorem advanceLine_of_isPrintable (hprint : isPrintable c = true) (hbreak : isBreak c = true) :
    Cursor.advanceLine ⟨c :: rest, mark⟩ = ⟨rest, ⟨mark.index + 1, mark.line + 1, 0⟩⟩ ∧
      Cursor.breakText ⟨c :: rest, mark⟩ = [c] := by
  rcases Printer.isBreak_cases hprint hbreak with rfl | rfl | rfl <;> exact ⟨rfl, rfl⟩

theorem blockBreaks_written {indent : Nat} {acc : List Char}
    (hbreaks : ∀ c ∈ breaks, isPrintable c = true ∧ isBreak c = true)
    (hrest : ∀ c, rest.head? = some c → isBreak c = false ∧ c ≠ '\t' ∧ (indent = 0 → c ≠ ' '))
    (hindent : indent = 0 ∨ indent = 2) (hfuel : breaks.length < fuel) (hcolumn : mark.column = 0) :
    ∃ stop' mark', mark'.column = (if rest.isEmpty then 0 else 2) ∧
      blockBreaks began indent fuel acc 0 stop ⟨breaks ++ Printer.blockLines true rest, mark⟩ =
        .ok (acc ++ breaks, if rest.isEmpty then 0 else 2, stop',
          ⟨Printer.blockLines false rest, mark'⟩) := by
  obtain ⟨fuel, rfl⟩ := Nat.exists_eq_add_one_of_ne_zero (Nat.ne_of_gt (Nat.zero_lt_of_lt hfuel))
  induction breaks generalizing fuel acc stop mark with
  | nil =>
    cases rest with
    | nil =>
      refine ⟨stop, mark, hcolumn, ?_⟩
      rw [blockBreaks]
      rcases hindent with rfl | rfl <;>
        simp [Printer.blockLines, advanceBy, sees, atBreak, peek, hcolumn]
    | cons c rest =>
      obtain ⟨hbreak, htab, hspace⟩ := hrest c rfl
      have hroom : (if indent = 0 then ((' ' :: ' ' :: c :: Printer.blockLines false rest).takeWhile
          (· = ' ')).length else min ((' ' :: ' ' :: c :: Printer.blockLines false rest).takeWhile
          (· = ' ')).length (indent - mark.column)) = 2 := by
        rcases hindent with rfl | rfl
        · simp [hspace rfl]
        · simp [hcolumn]
      refine ⟨stop, mark.along 2, by simp [Mark.along, hcolumn], ?_⟩
      rw [written_char hbreak, written_char hbreak, blockBreaks]
      simp only [if_true, indentation, List.nil_append, List.cons_append, hroom]
      simp [advanceBy, advance_cons, sees, peek, atBreak, htab, hbreak, Mark.along, hcolumn]
  | cons c breaks ih =>
    obtain ⟨hprint, hbreak⟩ := hbreaks c List.mem_cons_self
    obtain ⟨hnext, htext⟩ := @advanceLine_of_isPrintable mark
      (breaks ++ Printer.blockLines true rest) c hprint hbreak
    have hfirst : c ≠ ' ' ∧ c ≠ '\t' := by
      constructor <;> rintro rfl <;> exact absurd hbreak (by decide)
    rw [List.length_cons] at hfuel
    obtain ⟨fuel, rfl⟩ := Nat.exists_eq_add_one_of_ne_zero (n := fuel) (by omega)
    obtain ⟨stop', mark', hcolumn', hrun⟩ := @ih ⟨mark.index + 1, mark.line + 1, 0⟩
      ⟨mark.index + 1, mark.line + 1, 0⟩ (acc ++ [c]) (fun d hd => hbreaks d (List.mem_cons_of_mem _ hd))
      rfl fuel (by omega)
    refine ⟨stop', mark', hcolumn', ?_⟩
    rw [List.append_assoc, List.singleton_append] at hrun
    rw [List.cons_append, blockBreaks]
    simp [advanceBy, hfirst, sees, peek, atBreak, hbreak, hcolumn, hnext, htext, hrun]

/-! ## Lines -/

theorem exists_span (p : Char → Bool) (text : List Char) : ∃ front rest, text = front ++ rest ∧
    (∀ c ∈ front, p c = true) ∧ ∀ c, rest.head? = some c → p c = false := by
  refine ⟨text.takeWhile p, text.dropWhile p, List.takeWhile_append_dropWhile.symm,
    List.all_eq_true.1 List.all_takeWhile, fun c hc => ?_⟩
  have hhead := List.head?_dropWhile_not p text
  rwa [hc] at hhead

/-- A text that ends with a break is a line, its break, empty lines, and a text that does not begin with
a break. -/
theorem exists_line (hne : text ≠ []) (hlast : ∀ c, text.getLast? = some c → isBreak c = true) :
    ∃ line c breaks rest, text = line ++ c :: (breaks ++ rest) ∧ (∀ d ∈ line, isBreak d = false) ∧
      isBreak c = true ∧ (∀ d ∈ breaks, isBreak d = true) ∧
      ∀ d, rest.head? = some d → isBreak d = false := by
  obtain ⟨line, after, rfl, hline, hafter⟩ := exists_span (fun c => !isBreak c) text
  replace hline : ∀ d ∈ line, isBreak d = false := fun d hd => by simpa using hline d hd
  cases after with
  | nil =>
    rw [List.append_nil] at hne hlast
    have hend := hline _ (List.getLast_mem hne)
    rw [hlast _ (List.getLast?_eq_some_getLast hne)] at hend
    exact absurd hend.symm Bool.false_ne_true
  | cons c after =>
    obtain ⟨breaks, rest, rfl, hbreaks, hrest⟩ := exists_span isBreak after
    exact ⟨line, c, breaks, rest, rfl, hline, by simpa using hafter c rfl, hbreaks, hrest⟩

theorem takeWhile_line (hline : ∀ d ∈ line, isBreak d = false) (hbreak : isBreak c = true) :
    Cursor.takeWhile (fun c => !isBreak c) ⟨line ++ c :: rest, mark⟩ =
      (line, ⟨c :: rest, mark.along line.length⟩) := by
  have hpass : ∀ d ∈ line, (!isBreak d) = true := fun d hd => by rw [hline d hd]; rfl
  have htaken : (line ++ c :: rest).takeWhile (fun c => !isBreak c) = line := by
    rw [List.takeWhile_append_of_pos hpass]
    simp [hbreak]
  have hleft : (line ++ c :: rest).dropWhile (fun c => !isBreak c) = c :: rest := by
    rw [List.dropWhile_append_of_pos hpass]
    simp [hbreak]
  rw [Cursor.takeWhile, htaken, hleft]
  rfl

/-- The lines are read to the end: the value, with the break that ended the last line and the breaks
after it, grows by the text. -/
theorem blockLines_written (block : Block) (hne : text ≠ [])
    (hprint : ∀ c ∈ text, isPrintable c = true)
    (hlast : ∀ c, text.getLast? = some c → isBreak c = true) (hcolumn : mark.column = 2)
    (hfuel : text.length < fuel) :
    ∃ block' : Block, ∃ mark', mark'.column = 0 ∧
      Scalar.blockLines true began 2 fuel block ⟨Printer.blockLines false text, mark⟩ =
        .ok (block', ⟨[], mark'⟩) ∧
      block'.done.reverse ++ block'.lineBreak ++ block'.breaks =
        block.done.reverse ++ block.lineBreak ++ block.breaks ++ text ∧
      (∃ c, isBreak c = true ∧ block'.lineBreak = [c]) ∧ ∀ c ∈ block'.breaks, isBreak c = true := by
  induction fuel generalizing text block mark with
  | zero => exact absurd hfuel (Nat.not_lt_zero _)
  | succ fuel ih =>
    obtain ⟨line, c, breaks, rest, rfl, hline, hbreak, hbreaks, hrest⟩ := exists_line hne hlast
    have hprintc : isPrintable c = true := hprint c (by simp)
    obtain ⟨hnext, htext⟩ := @advanceLine_of_isPrintable (mark.along line.length)
      (breaks ++ Printer.blockLines true rest) c hprintc hbreak
    have hwritten : Printer.blockLines false (line ++ c :: (breaks ++ rest)) =
        line ++ c :: (breaks ++ Printer.blockLines true rest) := by
      rw [written_line hline, written_break hbreak, written_breaks hbreaks]
    have htab : isPrintable '\t' = false := Printer.isPrintable_tab
    obtain ⟨stop', mark', hcolumn', hempty⟩ := @blockBreaks_written began
      ⟨(mark.along line.length).index + 1, (mark.along line.length).line + 1, 0⟩
      ⟨(mark.along line.length).index + 1, (mark.along line.length).line + 1, 0⟩
      breaks rest (breaks.length + (Printer.blockLines true rest).length + 1) 2 []
      (fun d hd => ⟨hprint d (by simp [hd]), hbreaks d hd⟩)
      (fun d hd => ⟨hrest d hd, fun h => absurd (hprint d (by simp [List.mem_of_head? hd]))
        (by simp [h, htab]), fun h => absurd h (by decide)⟩)
      (.inr rfl) (by omega) rfl
    obtain ⟨here, hstep, hvalue, hends, hafter⟩ : ∃ here : Block,
        Scalar.blockLines true began 2 (fuel + 1) block
          ⟨line ++ c :: (breaks ++ Printer.blockLines true rest), mark⟩ =
          Scalar.blockLines true began 2 fuel here ⟨Printer.blockLines false rest, mark'⟩ ∧
        here.done.reverse ++ here.lineBreak ++ here.breaks =
          block.done.reverse ++ block.lineBreak ++ block.breaks ++ line ++ c :: breaks ∧
        (∃ c, isBreak c = true ∧ here.lineBreak = [c]) ∧ ∀ c ∈ here.breaks, isBreak c = true := by
      refine ⟨⟨line.reverse ++ block.breaks.reverse ++ block.lineBreak.reverse ++ block.done, [c], breaks,
        Cursor.atBlank ⟨line ++ c :: (breaks ++ Printer.blockLines true rest), mark⟩, stop'⟩,
        ?_, by simp, ⟨c, hbreak, rfl⟩, hbreaks⟩
      rw [Scalar.blockLines]
      simp [hcolumn, atEnd, takeWhile_line hline hbreak, hnext, htext]
      rw [hempty]
      rfl
    have hwhole : line ++ c :: (breaks ++ rest) = line ++ c :: breaks ++ rest := by simp
    rw [hwritten, hstep, hwhole, ← List.append_assoc, ← List.append_assoc, ← hvalue]
    cases rest with
    | nil =>
      refine ⟨here, mark', hcolumn', ?_, (List.append_nil _).symm, hends, hafter⟩
      cases fuel <;> simp [Scalar.blockLines, Printer.blockLines, hcolumn']
    | cons d rest =>
      refine ih here (List.cons_ne_nil _ _) (fun e he => hprint e ?_) (fun e he => hlast e ?_) hcolumn' ?_
      · rw [hwhole]
        exact List.mem_append_right _ he
      · rw [hwhole, List.getLast?_append, he]
        rfl
      · rw [hwhole, List.length_append, List.length_append, List.length_cons] at hfuel
        omega

/-! ## The header -/

/-- What the hint about the last breaks says, and what it asks the reader to do with them. -/
def Hinted (text last : List Char) : Chomping → Prop
  | .strip => last = ['-'] ∧ ∃ before c, text = before ++ [c] ∧ isBreak c = false
  | .clip => last = [] ∧ ∃ before d c, text = before ++ [d, c] ∧ isBreak d = false ∧ isBreak c = true
  | .keep => last = ['+'] ∧ ∃ before c, text = before ++ [c] ∧ isBreak c = true

theorem blockHints_cases (hne : text ≠ []) : ∃ known : Bool, ∃ last chomping,
    blockHints text = (if known then ['2'] else []) ++ last ∧
      (known = false → ∀ c, text.head? = some c → c ≠ ' ' ∧ isBreak c = false) ∧
      Hinted text last chomping := by
  obtain ⟨a, rest, rfl⟩ := List.exists_cons_of_ne_nil hne
  obtain ⟨before, c, hlast⟩ : ∃ before c, a :: rest = before ++ [c] :=
    ⟨_, _, (List.dropLast_concat_getLast (List.cons_ne_nil a rest)).symm⟩
  have hreverse : (a :: rest).reverse = c :: before.reverse := by simp [hlast]
  have hknown : (if a = ' ' ∨ isBreak a = true then ['2'] else []) =
      if decide (a = ' ' ∨ isBreak a = true) = true then ['2'] else [] := by
    simp only [decide_eq_true_eq]
  refine ⟨decide (a = ' ' ∨ isBreak a = true), ?_⟩
  have hfirst : decide (a = ' ' ∨ isBreak a = true) = false →
      ∀ d, (a :: rest).head? = some d → d ≠ ' ' ∧ isBreak d = false := by
    intro h d hd
    obtain rfl : a = d := Option.some.inj hd
    rw [decide_eq_false_iff_not, not_or] at h
    exact ⟨h.1, Bool.eq_false_iff.2 h.2⟩
  simp only [blockHints, hreverse, hknown]
  cases hbreak : isBreak c with
  | false => exact ⟨['-'], .strip, rfl, hfirst, rfl, before, c, hlast, hbreak⟩
  | true =>
    rcases List.eq_nil_or_concat before with rfl | ⟨front, d, rfl⟩
    · exact ⟨['+'], .keep, rfl, hfirst, rfl, [], c, hlast, hbreak⟩
    · rw [List.concat_eq_append] at hlast
      simp only [List.concat_eq_append, List.reverse_append, List.reverse_cons, List.reverse_nil, List.nil_append,
        List.singleton_append]
      cases hbefore : isBreak d with
      | false => exact ⟨[], .clip, rfl, hfirst, rfl, front, d, c, by simp [hlast], hbefore, hbreak⟩
      | true => exact ⟨['+'], .keep, rfl, hfirst, rfl, front ++ [d], c, hlast, hbreak⟩

theorem blockHeader_hints (known : Bool) {last : List Char} {chomping : Chomping}
    (hlast : Hinted text last chomping) : ∃ mark',
      blockHeader began ⟨(if known then ['2'] else []) ++ (last ++ '\n' :: rest), mark⟩ =
        .ok (chomping, if known then some 2 else none, ⟨'\n' :: rest, mark'⟩) := by
  cases chomping <;> obtain ⟨rfl, -⟩ := hlast <;> cases known <;> exact ⟨_, rfl⟩

/-! ## Whole scalars -/

theorem ended_block {header : List Char} (hne : text ≠ []) : ∃ full,
    Printer.ended (header ++ Printer.blockLines true text) = header ++ Printer.blockLines true full ∧
      ∀ before c, text = before ++ [c] → full = if isBreak c then text else text ++ ['\n'] := by
  obtain ⟨front, d, rfl⟩ : ∃ front d, text = front ++ [d] :=
    ⟨_, _, (List.dropLast_concat_getLast hne).symm⟩
  obtain ⟨written, hwritten, -⟩ := written_last front d true
  obtain ⟨fed, hfed, heq⟩ := written_last (front ++ [d]) '\n' true
  refine ⟨if isBreak d then front ++ [d] else front ++ [d] ++ ['\n'], ?_, fun before c h => ?_⟩
  · have hlast : (header ++ Printer.blockLines true (front ++ [d])).getLast? = some d := by
      rw [hwritten, ← List.append_assoc]
      exact List.getLast?_concat
    rw [Printer.ended, hlast]
    cases hbreak : isBreak d with
    | true => simp [hbreak]
    | false =>
      rw [heq rfl] at hfed
      simp only [Option.map_some, hbreak, Option.getD_some, Bool.false_eq_true, if_false]
      rw [hfed, List.append_assoc]
  · rw [(List.append_inj' h rfl).2 |> List.singleton_inj.1]

/-- Where the last but one character is no break, only one break ends the text. -/
theorem one_break {done before : List Char} {x d : Char} (hx : isBreak x = true)
    (hbreaks : ∀ y ∈ breaks, isBreak y = true) (hd : isBreak d = false)
    (h : done ++ [x] ++ breaks = before ++ [d] ++ [c]) : breaks = [] ∧ done = before ++ [d] := by
  rcases List.eq_nil_or_concat breaks with rfl | ⟨more, y, rfl⟩
  · rw [List.append_nil] at h
    exact ⟨rfl, (List.append_inj' h rfl).1⟩
  · rw [List.concat_eq_append] at hbreaks h
    rw [← List.append_assoc] at h
    have hshort := (List.append_inj' h rfl).1
    rcases List.eq_nil_or_concat more with rfl | ⟨most, z, rfl⟩
    · rw [List.append_nil] at hshort
      obtain rfl : x = d := List.singleton_inj.1 (List.append_inj' hshort rfl).2
      exact absurd (hd.symm.trans hx) Bool.false_ne_true
    · rw [List.concat_eq_append, ← List.append_assoc] at hshort
      obtain rfl : z = d := List.singleton_inj.1 (List.append_inj' hshort rfl).2
      exact absurd (hd.symm.trans (hbreaks z (by simp))) Bool.false_ne_true

theorem blockLines_full {full : List Char} {indent : Nat} (hprint : ∀ c ∈ full, isPrintable c = true)
    (hlast : ∀ c, full.getLast? = some c → isBreak c = true) (hne : full ≠ [])
    (hindent : indent = 2 ∨ indent = 0 ∧ ∀ c, full.head? = some c → c ≠ ' ' ∧ isBreak c = false)
    (hcolumn : mark.column = 0) :
    ∃ breaks widest stop' cursor, blockBreaks began indent ((Printer.blockLines true full).length + 1) [] 0 mark
        ⟨Printer.blockLines true full, mark⟩ = .ok (breaks, widest, stop', cursor) ∧
      (if indent = 0 then max widest 1 else indent) = 2 ∧
      ∃ result mark', mark'.column = 0 ∧
        Scalar.blockLines true began 2 (cursor.rest.length + 1) ⟨[], [], breaks, false, stop'⟩ cursor =
          .ok (result, ⟨[], mark'⟩) ∧
        result.done.reverse ++ result.lineBreak ++ result.breaks = full ∧
        ((∃ c ∈ full, isBreak c = false) → (∃ c, isBreak c = true ∧ result.lineBreak = [c]) ∧
          ∀ c ∈ result.breaks, isBreak c = true) := by
  obtain ⟨breaks, rest, rfl, hbreaks, hrest⟩ := exists_span isBreak full
  have hnobreaks (h : indent = 0) : breaks = [] ∧ ∀ c, rest.head? = some c → c ≠ ' ' := by
    obtain ⟨-, hhead⟩ := hindent.resolve_left (by omega)
    cases breaks with
    | nil => exact ⟨rfl, fun c hc => (hhead c hc).1⟩
    | cons b breaks =>
      have hb := hbreaks b List.mem_cons_self
      exact absurd ((hhead b rfl).2.symm.trans hb) Bool.false_ne_true
  have htab : isPrintable '\t' = false := Printer.isPrintable_tab
  have hfirst : ∀ c, rest.head? = some c → isBreak c = false ∧ c ≠ '\t' ∧ (indent = 0 → c ≠ ' ') := by
    intro c hc
    refine ⟨hrest c hc, ?_, fun h => (hnobreaks h).2 c hc⟩
    rintro rfl
    have hmem := hprint '\t' (List.mem_append_right _ (List.mem_of_head? hc))
    exact Bool.false_ne_true (htab.symm.trans hmem)
  obtain ⟨stop', mark', hcolumn', hrun⟩ := @blockBreaks_written began mark mark breaks rest
    ((breaks ++ Printer.blockLines true rest).length + 1) indent []
    (fun c hc => ⟨hprint c (List.mem_append_left _ hc), hbreaks c hc⟩) hfirst (by omega)
    (by rw [List.length_append]; omega) hcolumn
  rw [written_breaks hbreaks]
  refine ⟨_, _, stop', _, hrun, ?_, ?_⟩
  · by_cases h : indent = 0
    · have hnonempty : rest ≠ [] := by
        rintro rfl
        exact hne (by rw [(hnobreaks h).1, List.append_nil])
      simp [h, hnonempty]
    · rw [if_neg h]
      exact hindent.resolve_right fun hzero => h hzero.1
  · cases rest with
    | nil =>
      refine ⟨⟨[], [], [] ++ breaks, false, stop'⟩, mark', hcolumn', ?_, by simp, ?_⟩
      · have hzero : mark'.column ≠ 2 := by
          rw [hcolumn']
          decide
        rw [Scalar.blockLines, if_pos (.inl hzero)]
        rfl
      · rintro ⟨c, hc, hnobreak⟩
        rw [List.append_nil] at hc
        exact absurd (hnobreak.symm.trans (hbreaks c hc)) Bool.false_ne_true
    | cons d rest =>
      obtain ⟨result, last, hlastColumn, hread, hvalue, hends, hafter⟩ := @blockLines_written began mark'
        (d :: rest) ((Printer.blockLines false (d :: rest)).length + 1) ⟨[], [], [] ++ breaks, false, stop'⟩
        (List.cons_ne_nil _ _) (fun c hc => hprint c (List.mem_append_right _ hc))
        (fun c hc => hlast c (by rw [List.getLast?_append, hc]; rfl)) hcolumn'
        (Nat.lt_succ_of_le (length_le_written false _))
      exact ⟨result, last, hlastColumn, hread, hvalue, fun _ => ⟨hends, hafter⟩⟩

theorem chomped_text {result : Block} {full last : List Char} {chomping : Chomping}
    (hhinted : Hinted text last chomping)
    (hfull : ∀ before c, text = before ++ [c] → full = if isBreak c then text else text ++ ['\n'])
    (hvalue : result.done.reverse ++ result.lineBreak ++ result.breaks = full)
    (hends : (∃ c ∈ full, isBreak c = false) → (∃ c, isBreak c = true ∧ result.lineBreak = [c]) ∧
      ∀ c ∈ result.breaks, isBreak c = true) :
    result.done.reverse ++ (match chomping with
      | .strip => []
      | .clip => result.lineBreak
      | .keep => result.lineBreak ++ result.breaks) = text := by
  cases chomping with
  | strip =>
    obtain ⟨-, before, c, rfl, hc⟩ := hhinted
    rw [hfull before c rfl, hc, if_neg Bool.false_ne_true] at hvalue
    rw [hfull before c rfl, hc, if_neg Bool.false_ne_true] at hends
    obtain ⟨⟨x, hx, hbreak⟩, hbreaks⟩ := hends ⟨c, by simp, hc⟩
    rw [hbreak] at hvalue
    rw [List.append_nil]
    exact (one_break hx hbreaks hc hvalue).2
  | clip =>
    obtain ⟨-, before, d, c, rfl, hd, hc⟩ := hhinted
    have hsplit : before ++ [d, c] = before ++ [d] ++ [c] := by simp
    rw [hfull (before ++ [d]) c hsplit, hc, if_pos rfl] at hvalue
    rw [hfull (before ++ [d]) c hsplit, hc, if_pos rfl] at hends
    obtain ⟨⟨x, hx, hbreak⟩, hbreaks⟩ := hends ⟨d, by simp, hd⟩
    rw [hbreak, hsplit] at hvalue
    obtain ⟨hnone, -⟩ := one_break hx hbreaks hd hvalue
    rw [hnone, List.append_nil, ← hbreak] at hvalue
    rw [hvalue, hsplit]
  | keep =>
    obtain ⟨-, before, c, rfl, hc⟩ := hhinted
    rw [hfull before c rfl, hc, if_pos rfl] at hvalue
    rw [← List.append_assoc, hvalue]

section Closed

variable {front full : List Char} {l : Char}
  (hclosed : full = if isBreak l then front ++ [l] else front ++ [l] ++ ['\n'])
include hclosed

theorem head?_of_closed : full.head? = (front ++ [l]).head? := by
  rw [hclosed]
  split
  · rfl
  · rw [List.head?_append, List.head?_append]
    cases front <;> rfl

theorem isBreak_last_of_closed : ∀ c, full.getLast? = some c → isBreak c = true := by
  intro c hc
  rw [hclosed] at hc
  split at hc
  case isTrue hbreak =>
    rw [List.getLast?_concat] at hc
    exact Option.some.inj hc ▸ hbreak
  case isFalse =>
    rw [List.getLast?_concat] at hc
    exact Option.some.inj hc ▸ rfl

theorem isPrintable_of_closed (hprint : ∀ c ∈ front ++ [l], isPrintable c = true) :
    ∀ c ∈ full, isPrintable c = true := by
  intro c hc
  rw [hclosed] at hc
  split at hc
  · exact hprint c hc
  · rcases List.mem_append.1 hc with hc | hc
    · exact hprint c hc
    · rw [List.mem_singleton.1 hc]
      decide

end Closed

theorem block_literal (hblock : Printer.allowsBlock text = true) : ∃ stop mark', mark'.column = 0 ∧
    Scalar.block true 0
      ⟨Printer.ended ('|' :: blockHints text ++ ['\n'] ++ Printer.blockLines true text), mark⟩ =
      .ok (⟨.scalar text .literal, mark, stop⟩, ⟨[], mark'⟩) := by
  simp only [Printer.allowsBlock, Bool.not_eq_true', Bool.or_eq_false_iff] at hblock
  obtain ⟨⟨hescapes, hempty⟩, -⟩ := hblock
  have hprint := Printer.isPrintable_of_needsEscapes hescapes
  have hne : text ≠ [] := by
    rintro rfl
    exact absurd hempty (by decide)
  obtain ⟨known, last, chomping, hhints, hfirst, hhinted⟩ := blockHints_cases hne
  obtain ⟨full, hended, hfull⟩ : ∃ full, Printer.ended ('|' :: blockHints text ++ ['\n'] ++
      Printer.blockLines true text) = '|' :: blockHints text ++ ['\n'] ++ Printer.blockLines true full ∧
      ∀ before c, text = before ++ [c] → full = if isBreak c then text else text ++ ['\n'] :=
    ended_block hne
  obtain ⟨front, l, hl⟩ : ∃ front l, text = front ++ [l] :=
    ⟨_, _, (List.dropLast_concat_getLast hne).symm⟩
  have hclosed := hfull front l hl
  rw [hl] at hclosed
  have hhead : full.head? = text.head? := hl ▸ head?_of_closed hclosed
  obtain ⟨header, hheader⟩ : ∃ header, blockHeader mark
      ⟨(if known then ['2'] else []) ++ (last ++ '\n' :: Printer.blockLines true full), mark.along 1⟩ =
        .ok (chomping, if known then some 2 else none, ⟨'\n' :: Printer.blockLines true full, header⟩) :=
    blockHeader_hints known hhinted
  have hknown : (if known then 2 else 0) = 2 ∨ (if known then 2 else 0) = 0 ∧
      ∀ c, full.head? = some c → c ≠ ' ' ∧ isBreak c = false := by
    cases known with
    | true => exact .inl rfl
    | false => exact .inr ⟨rfl, fun c hc => hfirst rfl c (hhead ▸ hc)⟩
  have hneFull : full ≠ [] := by
    rintro rfl
    rw [hl] at hhead
    cases front <;> exact nomatch hhead
  obtain ⟨breaks, widest, stop', cursor, hempty, hindent, result, mark', hcolumn, hlines, hvalue, hends⟩ :=
    @blockLines_full mark ⟨header.index + 1, header.line + 1, 0⟩ full (if known then 2 else 0)
      (isPrintable_of_closed hclosed (hl ▸ hprint)) (isBreak_last_of_closed hclosed) hneFull hknown rfl
  refine ⟨result.stop, mark', hcolumn, ?_⟩
  have hline : (Cursor.mk ('\n' :: Printer.blockLines true full) header).skipBlanks.skipComment =
      ⟨'\n' :: Printer.blockLines true full, header⟩ := rfl
  have hadvance : (Cursor.mk ('\n' :: Printer.blockLines true full) header).advanceLine =
      ⟨Printer.blockLines true full, ⟨header.index + 1, header.line + 1, 0⟩⟩ := rfl
  have hstart : Cursor.advance ⟨'|' :: blockHints text ++ ['\n'] ++ Printer.blockLines true full, mark⟩ =
      ⟨(if known then ['2'] else []) ++ (last ++ '\n' :: Printer.blockLines true full), mark.along 1⟩ := by
    rw [hhints]
    simp [advance_cons]
  have hchomped := chomped_text hhinted hfull hvalue hends
  rw [hended, Scalar.block, hstart]
  simp only [hheader]
  cases known <;>
  · simp only [Bool.false_eq_true, if_true, if_false] at hempty hindent
    simp [Bind.bind, Except.bind, hline, hadvance, atLineEnd, peek, isBreak, hempty, hindent, hlines,
      Pure.pure, Except.pure]
    exact hchomped

end Scalar

end DirLock.Yaml
