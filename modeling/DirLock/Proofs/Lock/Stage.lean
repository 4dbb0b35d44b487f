import DirLock.Lock.Claim
import DirLock.Proofs.Lock.Quiet

/-!
# Staging and removing

What the routines ensure that work on a party's own plots: making a staging directory and filling it,
and removing a directory of files entry by entry. All their deeds are quiet. Without faults of their
own they succeed, and what they remove is gone.
-/

namespace DirLock.Site

open Disk (Tree Place Path Name Entry Fault)
open Disk.Tree (filesView noView ChangesOn Fits)

variable {ι : Type} {s : Site ι} {i : ι} {releasing : Prop} {tree : Tree}

/-! ## Removing -/

theorem nodup_names {files : List (Name × List UInt8)} (hsorted : files.Pairwise fun a b => a.1 < b.1) :
    (files.map Prod.fst).Nodup := by
  rw [List.Nodup, List.pairwise_map]
  refine hsorted.imp fun {a b} hlt (heq : a.1 = b.1) => ?_
  rw [heq] at hlt
  exact List.lt_irrefl _ hlt

section Remove

variable {path : Path} {dir : Place} {name : Name} (hw : s.Works i path dir name)
  (hown : s.Own i (dir ++ [name]))
include hw hown

theorem ensures_removeEach {files : List (Name × List UInt8)}
    (hnodup : (files.map Prod.fst).Nodup)
    (hbelow : tree.below (dir ++ [name]) = filesView files)
    (hclear : s.Clear i (some (dir ++ [name])) tree) :
    s.Ensures i releasing (Routine.removeEach (removalSteps path files)) [] tree
      fun deeds result after => s.AllQuiet deeds ∧ s.Clear i none after ∧
        (result = .ok () ∨ ∃ fault, result = .error fault ∧ s.faulty) := by
  induction files using List.reverseRecOn generalizing tree with
  | nil =>
    refine ensures_request fun before hothers reply after hanswers => ?_
    have hbefore := (hothers.plots _ hown).trans hbelow
    rcases hw.removeDirectory hothers.good hbefore hanswers with
      ⟨rfl, hgone, hsound, hchanges⟩ | ⟨fault, rfl, rfl, hfaulty⟩
    · refine ⟨.of_changesOn hothers.good hown hsound hchanges, ?_⟩
      exact ⟨allQuiet_nil.cons (quiet_of_changesOn hown hchanges),
        ((hclear.others hothers).of_changesOn hown hchanges).of_gone fun _ => hgone, .inl rfl⟩
    · exact ⟨.refl hothers.good, allQuiet_nil.look _, fun h => absurd hfaulty h,
        .inr ⟨fault, rfl, hfaulty⟩⟩
  | append_singleton files file ih =>
    obtain ⟨mark, content⟩ := file
    have hsteps : removalSteps path (files ++ [(mark, content)]) =
        .unlink path [mark] :: removalSteps path files := by
      simp [removalSteps]
    rw [List.map_append, List.nodup_append] at hnodup
    have hnew : mark ∉ files.map Prod.fst := fun hmem =>
      hnodup.2.2 mark hmem mark (by simp) rfl
    rw [hsteps]
    refine ensures_request fun before hothers reply after hanswers => ?_
    have hbefore := (hothers.plots _ hown).trans hbelow
    rcases hw.unlink hothers.good hbefore hnew hanswers with
      ⟨rfl, hleft, hsound, hchanges⟩ | ⟨fault, rfl, rfl, hfaulty⟩
    · refine ⟨.of_changesOn hothers.good hown hsound hchanges, ?_⟩
      refine (ih hnodup.1 hleft ((hclear.others hothers).of_changesOn hown hchanges)).mono ?_
      rintro deeds result last ⟨hquiet, hrest⟩
      exact ⟨hquiet.cons (quiet_of_changesOn hown hchanges), hrest⟩
    · exact ⟨.refl hothers.good, allQuiet_nil.look _, fun h => absurd hfaulty h,
        .inr ⟨fault, rfl, hfaulty⟩⟩

theorem ensures_removeTree {files : List (Name × List UInt8)}
    (hsorted : files.Pairwise fun a b => a.1 < b.1)
    (hbelow : tree.below (dir ++ [name]) = filesView files)
    (hclear : s.Clear i (some (dir ++ [name])) tree) :
    s.Ensures i releasing (Routine.removeTree path) [] tree
      fun deeds result after => s.AllQuiet deeds ∧ s.Clear i none after ∧
        (result = .ok () ∨ ∃ fault, result = .error fault ∧ s.faulty) := by
  refine ensures_look fun before hothers reply after hanswers => ?_
  have hbefore := (hothers.plots _ hown).trans hbelow
  obtain ⟨rfl, rfl | ⟨fault, rfl, hfaulty⟩⟩ := hw.removals hothers.good hbefore hsorted hanswers
  · refine ⟨rfl, ?_⟩
    apply (ensures_removeEach hw hown (nodup_names hsorted) hbefore (hclear.others hothers)).mono
    rintro deeds result last ⟨hquiet, hrest⟩
    exact ⟨hquiet.look _, hrest⟩
  · exact ⟨rfl, allQuiet_nil.look _, fun h => absurd hfaulty h, .inr ⟨fault, rfl, hfaulty⟩⟩

end Remove

/-! ## Staging -/

/-- The party has a staging directory at the path, with these files, and nothing else of its own. -/
def Staged (s : Site ι) (i : ι) (files : List (Name × List UInt8)) (tree : Tree) (path : Path) :
    Prop :=
  ∃ suffix, IsSuffix suffix ∧ path = (s.base i).join ((s.lock i).stagingName suffix) ∧
    tree.below (s.scratch i ++ [(s.lock i).nonce.stagingName suffix]) = filesView files ∧
    s.Clear i (some (s.scratch i ++ [(s.lock i).nonce.stagingName suffix])) tree

/-- The files are some of those of a claim of the party, in order. -/
def Partial (s : Site ι) (i : ι) (files : List (Name × List UInt8)) : Prop :=
  ∃ now, files <+: s.claimFiles i now

theorem Partial.sorted {files : List (Name × List UInt8)} (h : s.Partial i files) :
    files.Pairwise fun a b => a.1 < b.1 := by
  obtain ⟨now, hpre⟩ := h
  exact sorted_of_prefix hpre

theorem stagingName_short (i : ι) {suffix : List Char} (hsuffix : IsSuffix suffix) :
    ((s.lock i).nonce.stagingName suffix).length ≤ Path.longestName := by
  rw [Nonce.length_stagingName _ hsuffix]
  decide

/-- The first name that is drawn is free, so a staging directory is made at once. -/
theorem ensures_makeStaging (hclear : s.Clear i none tree) (tries : Nat) :
    s.Ensures i releasing ((s.lock i).makeStaging (s.base i) tries) [] tree
      fun deeds result after => s.AllQuiet deeds ∧
        ((∃ path, result = .ok path ∧ s.Staged i [] after path) ∨
          (∃ fault, result = .error fault ∧ s.Clear i none after ∧ (s.faulty ∨ tries = 0))) := by
  induction tries generalizing tree with
  | zero => exact ⟨allQuiet_nil, .inr ⟨_, rfl, hclear, .inr rfl⟩⟩
  | succ tries ih =>
    refine ensures_look fun before hothers suffix after hanswers => ?_
    obtain ⟨rfl, hsuffix⟩ := answers_randomSuffix hanswers
    refine ⟨rfl, ?_⟩
    have hclear := hclear.others hothers
    refine ensures_request fun before hothers reply after hanswers => ?_
    have hclear := hclear.others hothers
    have hown : s.Own i (s.scratch i ++ [(s.lock i).nonce.stagingName suffix]) := .staging hsuffix
    rcases (s.works_staging i hsuffix).makeDirectory hothers.good hown hanswers with
      ⟨rfl, hmade, hsound, hchanges⟩ | ⟨fault, rfl, rfl, hwhy⟩
    · refine ⟨.of_changesOn hothers.good hown hsound hchanges, ?_⟩
      exact ⟨(allQuiet_nil.cons (quiet_of_changesOn hown hchanges)).look _,
        .inl ⟨_, rfl, suffix, hsuffix, rfl, hmade, (hclear.keeping _).of_changesOn hown hchanges⟩⟩
    · refine ⟨.refl hothers.good, ?_⟩
      have hfaulty : s.faulty := by
        by_contra hfaulty
        rcases hwhy with h | h
        · exact hfaulty h
        · exact h (Tree.get?_of_below (hclear hfaulty _ hown nofun))
      dsimp only
      split_ifs
      · apply (ih hclear).mono
        rintro deeds result last ⟨hquiet, hresult⟩
        refine ⟨(hquiet.look _).look _, hresult.imp_right ?_⟩
        rintro ⟨fault, herror, hclear, -⟩
        exact ⟨fault, herror, hclear, .inl hfaulty⟩
      · exact ⟨(allQuiet_nil.look _).look _, .inr ⟨_, rfl, hclear, .inl hfaulty⟩⟩

theorem Staged.others {files : List (Name × List UInt8)} {after : Tree} {path : Path}
    (h : s.Staged i files tree path) (hothers : s.Others i tree after) :
    s.Staged i files after path := by
  obtain ⟨suffix, hsuffix, hpath, hbelow, hclear⟩ := h
  exact ⟨suffix, hsuffix, hpath, (hothers.plots _ (.staging hsuffix)).trans hbelow,
    hclear.others hothers⟩

theorem Staged.writeFile {files : List (Name × List UInt8)} {before after : Tree} {path : Path}
    {mark : Name} {content : List UInt8} (h : s.Staged i files before path)
    (hgood : s.Good before) (hmark : IsMark mark) (hnew : mark ∉ files.map Prod.fst)
    {reply : Except Fault Unit}
    (hanswers : s.Answers i before (.writeFile (path.join ⟨mark⟩) content) reply after) :
    s.Deed i releasing before after ∧ s.Quiet (before, after) ∧
      ((reply = .ok () ∧ s.Staged i (files ++ [(mark, content)]) after path) ∨
        (∃ fault, reply = .error fault ∧ s.faulty ∧ s.Staged i files after path)) := by
  obtain ⟨suffix, hsuffix, rfl, hbelow, hclear⟩ := h
  have hown : s.Own i (s.scratch i ++ [(s.lock i).nonce.stagingName suffix]) := .staging hsuffix
  rcases (s.works_staging i hsuffix).writeFile hgood (stagingName_short i hsuffix) hbelow hmark hnew
      hanswers with ⟨rfl, hmade, hsound, hchanges⟩ | ⟨fault, rfl, rfl, hfaulty⟩
  · exact ⟨.of_changesOn hgood hown hsound hchanges, quiet_of_changesOn hown hchanges,
      .inl ⟨rfl, suffix, hsuffix, rfl, hmade, hclear.of_changesOn hown hchanges⟩⟩
  · exact ⟨.refl hgood, rfl,
      .inr ⟨fault, rfl, hfaulty, suffix, hsuffix, rfl, hbelow, hclear⟩⟩

theorem ensures_fillStaging {path : Path} (hstaged : s.Staged i [] tree path) :
    s.Ensures i releasing ((s.lock i).fillStaging (s.claimant i) path) [] tree
      fun deeds result after => s.AllQuiet deeds ∧
        ((∃ now, result = .ok () ∧ s.Staged i (s.claimFiles i now) after path) ∨
          (∃ error files, result = .error error ∧ s.faulty ∧ s.Partial i files ∧
            s.Staged i files after path)) := by
  refine ensures_request fun before hothers reply after hanswers => ?_
  obtain ⟨hdeed, hquiet, ⟨rfl, hstaged⟩ | ⟨fault, rfl, hfaulty, hstaged⟩⟩ :=
    (hstaged.others hothers).writeFile hothers.good isMark_heldBytes (by simp) hanswers
  · refine ⟨hdeed, ensures_look fun before hothers now after hanswers => ?_⟩
    obtain rfl := answers_plain (fun _ => rfl) hanswers
    refine ⟨rfl, ensures_request fun before hothers' reply after hanswers => ?_⟩
    have hne : holderBytes ∉ [(heldBytes, (s.lock i).nonce.bytes)].map Prod.fst := by
      rw [List.map_singleton, List.mem_singleton]
      exact heldBytes_ne_holderBytes.symm
    obtain ⟨hdeed', hquiet', ⟨rfl, hstaged⟩ | ⟨fault, rfl, hfaulty, hstaged⟩⟩ :=
      ((hstaged.others hothers).others hothers').writeFile hothers'.good isMark_holderBytes hne
        hanswers
    · exact ⟨hdeed', ((allQuiet_nil.cons hquiet').look _).cons hquiet, .inl ⟨now, rfl, hstaged⟩⟩
    · refine ⟨hdeed', ((allQuiet_nil.cons hquiet').look _).cons hquiet, .inr ⟨_, _, rfl, hfaulty,
        ⟨now, ?_⟩, hstaged⟩⟩
      exact List.prefix_append _ [_]
  · refine ⟨hdeed, allQuiet_nil.cons hquiet, .inr ⟨_, _, rfl, hfaulty, ⟨default, ?_⟩, hstaged⟩⟩
    exact List.nil_prefix

theorem ensures_removeStaged {files : List (Name × List UInt8)} {path : Path}
    (hpartial : s.Partial i files) (hstaged : s.Staged i files tree path) :
    s.Ensures i releasing (Routine.removeTree path) [] tree
      fun deeds result after => s.AllQuiet deeds ∧ s.Clear i none after ∧
        (result = .ok () ∨ ∃ fault, result = .error fault ∧ s.faulty) := by
  obtain ⟨suffix, hsuffix, rfl, hbelow, hclear⟩ := hstaged
  exact ensures_removeTree (s.works_staging i hsuffix) (.staging hsuffix) hpartial.sorted hbelow hclear

theorem partial_claimFiles (i : ι) (now : Time.Instant) : s.Partial i (s.claimFiles i now) :=
  ⟨now, List.prefix_refl _⟩

theorem ensures_absolute :
    s.Ensures i releasing (Lock.absolute ((s.lock i).scratchDir (s.claimant i))) [] tree
      fun deeds result after => s.AllQuiet deeds ∧ result = s.base i ∧
        (s.Clear i none tree → s.Clear i none after) := by
  unfold Lock.absolute
  split_ifs with habsolute
  · exact ⟨allQuiet_nil, by rw [base, Lock.base, if_pos habsolute], id⟩
  · refine ensures_look fun before hothers reply after hanswers => ?_
    obtain ⟨rfl, rfl⟩ := answers_workingDirectory hanswers
    exact ⟨rfl, allQuiet_nil.look _, by rw [base, Lock.base, if_neg habsolute],
      fun hclear => hclear.others hothers⟩

theorem ensures_stage (hclear : s.Clear i none tree) :
    s.Ensures i releasing ((s.lock i).stage (s.claimant i)) [] tree
      fun deeds result after => s.AllQuiet deeds ∧
        ((∃ path now, result = .ok path ∧ s.Staged i (s.claimFiles i now) after path) ∨
          (∃ error, result = .error error ∧ s.faulty ∧ s.Clear i none after)) := by
  apply ensures_absolute.seq
  rintro deeds base after ⟨hbase, rfl, hclear'⟩
  apply (ensures_makeStaging (hclear' hclear) _).seq
  rintro deeds result after ⟨hmake, ⟨path, rfl, hstaged⟩ | ⟨fault, rfl, hclear, hwhy⟩⟩
  · apply (ensures_fillStaging hstaged).seq
    rintro deeds result after ⟨hfill,
      ⟨now, rfl, hstaged⟩ | ⟨error, files, rfl, hfaulty, hpartial, hstaged⟩⟩
    · exact ⟨hbase.append (hmake.append (hfill.append allQuiet_nil)),
        .inl ⟨path, now, rfl, hstaged⟩⟩
    · apply (ensures_removeStaged hpartial hstaged).seq
      rintro deeds result after ⟨hremove, hclear, -⟩
      exact ⟨hbase.append (hmake.append (hfill.append (hremove.append allQuiet_nil))),
        .inr ⟨error, rfl, hfaulty, hclear⟩⟩
  · refine ⟨hbase.append (hmake.append allQuiet_nil), .inr ⟨_, rfl, ?_, hclear⟩⟩
    rcases hwhy with hfaulty | hzero
    · exact hfaulty
    · cases hzero

theorem ensures_discard {files : List (Name × List UInt8)} {path : Path}
    (hpartial : s.Partial i files) (hstaged : s.Staged i files tree path) :
    s.Ensures i releasing (Lock.discard path) [] tree
      fun deeds _ after => s.AllQuiet deeds ∧ s.Clear i none after := by
  apply (ensures_removeStaged hpartial hstaged).seq
  rintro deeds result after ⟨hquiet, hclear, rfl | ⟨fault, rfl, -⟩⟩
  · exact ⟨hquiet.append allQuiet_nil, hclear⟩
  · refine ensures_look fun before hothers reply after hanswers => ?_
    obtain rfl := answers_plain (fun _ => rfl) hanswers
    exact ⟨rfl, hquiet.append (allQuiet_nil.look _), hclear.others hothers⟩

end DirLock.Site
