import DirLock.Proofs.Disk.Folder
import DirLock.Proofs.Lock.Share

/-!
# What a party learns from a reply

For each request that the routines of a lock make, what the reply says about the tree and what the
tree is afterwards. A request on a plot of the party's own is answered as the plot alone requires; one
at the claim's place as the state of the lock requires. Where requests may fail for reasons of their
own, a fault says nothing and changes nothing.
-/

namespace DirLock.Site

open Disk (Tree Place Path Name Entry Fault)
open Disk.Tree (filesView noView ChangesOn Removal Fits filesEntries)

variable {ι : Type} {s : Site ι} {i : ι} {tree after : Tree}

/-! ## Replies -/

/-- How a request to change the tree ends: as the tree requires, or with a fault that leaves the tree
as it is. -/
inductive Changed (s : Site ι) (tree : Tree) (result : Except Fault Tree) :
    Except Fault Unit → Tree → Prop
  | changed {after : Tree} : result = .ok after → Changed s tree result (.ok ()) after
  | failed {fault : Fault} : result = .error fault → Changed s tree result (.error fault) tree
  | refused (fault : Fault) : s.faulty → Changed s tree result (.error fault) tree

/-- How a request to look at the tree ends: as the tree requires, or with a fault. -/
inductive Looked {α : Type} (s : Site ι) (result : Except Fault α) : Except Fault α → Prop
  | seen : Looked s result result
  | refused (fault : Fault) : s.faulty → Looked s result (.error fault)

theorem changed_of_answers {f : Tree → Place → Except Fault Tree} {reply : Except Fault Unit}
    (h : (∃ machine : Machine, machine.tree = tree ∧ machine.directory = s.directory i ∧
        (machine.change (f machine.tree machine.directory)).1 = reply ∧
        (machine.change (f machine.tree machine.directory)).2.tree = after) ∨
      (s.faulty ∧ after = tree ∧ ∃ fault : Fault, some (.error fault) = some reply)) :
    s.Changed tree (f tree (s.directory i)) reply after := by
  rcases h with ⟨machine, rfl, hdir, rfl, rfl⟩ | ⟨hfaulty, rfl, fault, hreply⟩
  · rw [← hdir]
    cases hresult : f machine.tree machine.directory with
    | ok tree => exact .changed rfl
    | error fault => exact .failed rfl
  · obtain rfl := Option.some.inj hreply
    exact .refused fault hfaulty

theorem looked_of_answers {α : Type} {f : Tree → Place → Except Fault α} {reply : Except Fault α}
    (h : (∃ machine : Machine, machine.tree = tree ∧ machine.directory = s.directory i ∧
        f machine.tree machine.directory = reply ∧ machine.tree = after) ∨
      (s.faulty ∧ after = tree ∧ ∃ fault : Fault, some (.error fault) = some reply)) :
    after = tree ∧ s.Looked (f tree (s.directory i)) reply := by
  rcases h with ⟨machine, rfl, hdir, rfl, rfl⟩ | ⟨hfaulty, rfl, fault, hreply⟩
  · rw [← hdir]
    exact ⟨rfl, .seen⟩
  · obtain rfl := Option.some.inj hreply
    exact ⟨rfl, .refused fault hfaulty⟩

theorem Changed.either {result : Except Fault Tree} {reply : Except Fault Unit} {fits : Prop}
    {changed : Tree → Prop} (h : s.Changed tree result reply after)
    (hresult : (∃ after, result = .ok after ∧ changed after) ∨ (∃ fault, result = .error fault ∧ ¬ fits))
    (hfits : ¬ s.faulty → fits) :
    (reply = .ok () ∧ changed after) ∨ (∃ fault, reply = .error fault ∧ after = tree ∧ s.faulty) := by
  cases h with
  | refused fault hfaulty => exact .inr ⟨fault, rfl, rfl, hfaulty⟩
  | failed herror =>
    rcases hresult with ⟨after, hok, -⟩ | ⟨fault, -, hnot⟩
    · rw [hok] at herror
      cases herror
    · exact .inr ⟨_, rfl, rfl, by_contra fun hfaulty => hnot (hfits hfaulty)⟩
  | changed hchanged =>
    rcases hresult with ⟨after, hok, hafter⟩ | ⟨fault, herror, -⟩
    · rw [hok] at hchanged
      obtain rfl := Except.ok.inj hchanged
      exact .inl ⟨rfl, hafter⟩
    · rw [herror] at hchanged
      cases hchanged

theorem answers_makeDirectory {path : Path} {reply : Except Fault Unit}
    (h : s.Answers i tree (.makeDirectory path) reply after) :
    s.Changed tree (tree.makeDirectory (s.directory i) path) reply after :=
  changed_of_answers (f := fun tree here => tree.makeDirectory here path) h

theorem answers_writeFile {path : Path} {content : List UInt8} {reply : Except Fault Unit}
    (h : s.Answers i tree (.writeFile path content) reply after) :
    s.Changed tree (tree.writeFile (s.directory i) path content) reply after :=
  changed_of_answers (f := fun tree here => tree.writeFile here path content) h

theorem answers_rename {source target : Path} {reply : Except Fault Unit}
    (h : s.Answers i tree (.rename source target) reply after) :
    s.Changed tree (tree.rename (s.directory i) source target) reply after :=
  changed_of_answers (f := fun tree here => tree.rename here source target) h

theorem answers_unlinkInside {path : Path} {inside : List Name} {reply : Except Fault Unit}
    (h : s.Answers i tree (.remove (.unlink path inside)) reply after) :
    s.Changed tree (tree.unlinkInside (s.directory i) path inside) reply after :=
  changed_of_answers (f := fun tree here => tree.unlinkInside here path inside) h

theorem answers_removeDirectory {path : Path} {reply : Except Fault Unit}
    (h : s.Answers i tree (.remove (.removeDirectory path [])) reply after) :
    s.Changed tree (tree.removeDirectory (s.directory i) path) reply after :=
  changed_of_answers (f := fun tree here => tree.removeDirectory here path) h

theorem answers_entryKind {path : Path} {reply : Except Fault Disk.EntryKind}
    (h : s.Answers i tree (.entryKind path) reply after) :
    after = tree ∧ s.Looked (tree.entryKind (s.directory i) path) reply :=
  looked_of_answers (f := fun tree here => tree.entryKind here path) h

theorem answers_readFile {path : Path} {reply : Except Fault (List UInt8)}
    (h : s.Answers i tree (.readFile path) reply after) :
    after = tree ∧ s.Looked (tree.readFile (s.directory i) path) reply :=
  looked_of_answers (f := fun tree here => tree.readFile here path) h

theorem answers_removals {path : Path} {reply : Except Fault (List Removal)}
    (h : s.Answers i tree (.removals path) reply after) :
    after = tree ∧ s.Looked (tree.removals (s.directory i) path) reply :=
  looked_of_answers (f := fun tree here => tree.removals here path) h

theorem answers_plain {r : Request} {reply : r.Reply} (hplain : ∀ machine : Machine,
      (Machine.answerPlain s.supply r machine).2.tree = machine.tree)
    (h : s.Answers i tree r reply after) : after = tree := by
  rcases h with ⟨machine, rfl, -, -, rfl⟩ | ⟨-, hafter, -⟩
  · exact hplain machine
  · exact hafter

theorem answers_workingDirectory {reply : Path}
    (h : s.Answers i tree .workingDirectory reply after) :
    after = tree ∧ reply = (s.directory i).path := by
  rcases h with ⟨machine, rfl, hdir, hreply, rfl⟩ | ⟨-, -, fault, hrefused⟩
  · exact ⟨rfl, by rw [← hreply, ← hdir]; rfl⟩
  · cases hrefused

theorem answers_randomSuffix {reply : List Char}
    (h : s.Answers i tree .randomSuffix reply after) : after = tree ∧ IsSuffix reply := by
  rcases h with ⟨machine, rfl, -, rfl, rfl⟩ | ⟨-, -, fault, hrefused⟩
  · exact ⟨rfl, s.suffix_spec _⟩
  · cases hrefused

theorem answers_pause {nanos reply : Nat} (h : s.Answers i tree (.pause nanos) reply after) :
    after = tree ∧ reply = nanos := by
  rcases h with ⟨machine, rfl, -, rfl, rfl⟩ | ⟨-, -, fault, hrefused⟩
  · exact ⟨rfl, rfl⟩
  · cases hrefused

/-! ## On a plot of one's own -/

/-- The name of one of the two files of a claim. -/
def IsMark (name : Name) : Prop := name = heldBytes ∨ name = holderBytes

theorem IsMark.isName {mark : Name} (h : IsMark mark) : Path.IsName mark := by
  rcases h with rfl | rfl
  · exact isName_heldBytes
  · exact isName_holderBytes

theorem isMark_heldBytes : IsMark heldBytes := .inl rfl

theorem isMark_holderBytes : IsMark holderBytes := .inr rfl

theorem sorted_of_prefix {lock : Lock} {claimant : Claimant} {now : Time.Instant}
    {files : List (Name × List UInt8)} (hpre : files <+: lock.claimFiles claimant now) :
    files.Pairwise fun a b => a.1 < b.1 := by
  apply List.Pairwise.sublist hpre.sublist
  simpa [Lock.claimFiles] using heldBytes_lt_holderBytes

section Plot

variable {path : Path} {dir : Place} {name mark : Name} (hw : s.Works i path dir name)

include hw in
theorem Works.mark_fits (hmark : IsMark mark) (hfaulty : ¬ s.faulty) :
    Fits (path.join ⟨mark⟩) mark := by
  rcases hmark with rfl | rfl
  · exact hw.held_fits hfaulty
  · exact hw.holder_fits hfaulty

variable (hgood : s.Good tree)
include hw hgood

theorem Works.mark_names (hshort : name.length ≤ Path.longestName)
    (hget : tree.get? (dir ++ [name]) = some .directory) (hmark : IsMark mark) :
    tree.Names (s.directory i) (path.join ⟨mark⟩) (dir ++ [name]) mark :=
  (hw.names_of_good hgood).join hshort hget hmark.isName

theorem Works.makeDirectory (hown : s.Own i (dir ++ [name])) {reply : Except Fault Unit}
    (h : s.Answers i tree (.makeDirectory path) reply after) :
    (reply = .ok () ∧ after.below (dir ++ [name]) = filesView [] ∧ after.Sound ∧
      ChangesOn (dir ++ [name]) tree after) ∨
    (∃ fault, reply = .error fault ∧ after = tree ∧
      (s.faulty ∨ tree.get? (dir ++ [name]) ≠ none)) := by
  have hnames := hw.names_of_good hgood
  have hdir : tree.get? (dir ++ [name]).dropLast = some .directory :=
    hgood.within i _ _ hown.plot.directory
  cases answers_makeDirectory h with
  | refused fault hfaulty => exact .inr ⟨fault, rfl, rfl, .inl hfaulty⟩
  | failed hresult =>
    refine .inr ⟨_, rfl, rfl, ?_⟩
    by_contra hnot
    push Not at hnot
    rw [hnames.makeDirectory_eq (hw.fits hnot.1), hnot.2] at hresult
    cases hresult
  | changed hresult =>
    refine .inl ⟨rfl, ?_⟩
    by_cases hfit : Fits path name
    · rw [hnames.makeDirectory_eq hfit] at hresult
      cases hget : tree.get? (dir ++ [name]) with
      | some entry => simp [hget] at hresult
      | none =>
        rw [hget] at hresult
        obtain rfl := Except.ok.inj hresult
        exact ⟨Tree.below_insert_directory (by simp) (hgood.sound.below_eq_none hget),
          hgood.sound.insert (by simp) hdir (.inl rfl),
          Tree.changesOn_insert (by simp) (List.prefix_refl _) _⟩
    · rw [hnames.makeDirectory_of_not_fits hfit] at hresult
      cases hresult

variable (hshort : name.length ≤ Path.longestName) {files : List (Name × List UInt8)}
include hshort

theorem Works.writeFile (hbelow : tree.below (dir ++ [name]) = filesView files)
    (hmark : IsMark mark) (hnew : mark ∉ files.map Prod.fst) {content : List UInt8}
    {reply : Except Fault Unit}
    (h : s.Answers i tree (.writeFile (path.join ⟨mark⟩) content) reply after) :
    (reply = .ok () ∧ after.below (dir ++ [name]) = filesView (files ++ [(mark, content)]) ∧
      after.Sound ∧ ChangesOn (dir ++ [name]) tree after) ∨
    (∃ fault, reply = .error fault ∧ after = tree ∧ s.faulty) := by
  have hresult :=
    (hw.names_of_good hgood).writeFile_new hgood.sound hshort hmark.isName hbelow hnew content
  exact (answers_writeFile h).either hresult (hw.mark_fits hmark)

omit hshort in
theorem Works.unlink {content : List UInt8}
    (hbelow : tree.below (dir ++ [name]) = filesView (files ++ [(mark, content)]))
    (hnew : mark ∉ files.map Prod.fst) {reply : Except Fault Unit}
    (h : s.Answers i tree (.remove (.unlink path [mark])) reply after) :
    (reply = .ok () ∧ after.below (dir ++ [name]) = filesView files ∧ after.Sound ∧
      ChangesOn (dir ++ [name]) tree after) ∨
    (∃ fault, reply = .error fault ∧ after = tree ∧ s.faulty) := by
  have hresult := (hw.names_of_good hgood).unlink_last hgood.sound hbelow hnew
  exact (answers_unlinkInside h).either hresult hw.fits

omit hshort in
theorem Works.removeDirectory (hbelow : tree.below (dir ++ [name]) = filesView [])
    {reply : Except Fault Unit}
    (h : s.Answers i tree (.remove (.removeDirectory path [])) reply after) :
    (reply = .ok () ∧ after.below (dir ++ [name]) = noView ∧ after.Sound ∧
      ChangesOn (dir ++ [name]) tree after) ∨
    (∃ fault, reply = .error fault ∧ after = tree ∧ s.faulty) := by
  have hresult := (hw.names_of_good hgood).removeDirectory_empty hgood.sound hbelow
  exact (answers_removeDirectory h).either hresult hw.fits

end Plot

/-- The steps that remove a directory of files: the last file first, the directory last. -/
def removalSteps (path : Path) (files : List (Name × List UInt8)) : List Removal :=
  files.reverse.map (fun file => .unlink path [file.1]) ++ [.removeDirectory path []]

theorem removalsOf_filesEntries (path : Path) (place : Place) (files : List (Name × List UInt8)) :
    Tree.removalsOf path place (filesEntries place files) = removalSteps path files := by
  simp [Tree.removalsOf, filesEntries, removalSteps]

theorem Works.removals {path : Path} {dir : Place} {name : Name} (hw : s.Works i path dir name)
    (hgood : s.Good tree) {files : List (Name × List UInt8)}
    (hbelow : tree.below (dir ++ [name]) = filesView files)
    (hsorted : files.Pairwise fun a b => a.1 < b.1) {reply : Except Fault (List Removal)}
    (h : s.Answers i tree (.removals path) reply after) :
    after = tree ∧ (reply = .ok (removalSteps path files) ∨ ∃ fault, reply = .error fault ∧ s.faulty) := by
  have hget : tree.get? (dir ++ [name]) = some .directory := Tree.get?_of_below hbelow
  have hnames := hw.names_of_good hgood
  obtain ⟨hafter, hlooked⟩ := answers_removals h
  refine ⟨hafter, ?_⟩
  cases hlooked with
  | refused fault hfaulty => exact .inr ⟨fault, rfl, hfaulty⟩
  | seen =>
    by_cases hfit : Fits path name
    · left
      rw [hnames.removals_of_directory hfit hget, Tree.under_eq_filesEntries hgood.sound.toOrdered
        (by simp) hsorted hbelow, removalsOf_filesEntries]
    · refine .inr ⟨_, hnames.removals_of_not_fits hfit, ?_⟩
      by_contra hfaulty
      exact hfit (hw.fits hfaulty)

/-! ## At the claim's place -/

theorem IsOwned.get?_claim {owner : Option ι} (h : s.IsOwned tree owner) :
    tree.get? s.claim = owner.map fun _ => .directory := by
  cases owner with
  | none => exact Tree.get?_of_below h
  | some j =>
    obtain ⟨now, hbelow⟩ := h
    exact Tree.get?_of_below hbelow

theorem IsOwned.get?_held {j : ι} (h : s.IsOwned tree (some j)) :
    tree.get? (s.claim ++ [heldBytes]) = some (.file (s.lock j).nonce.bytes) := by
  obtain ⟨now, hbelow⟩ := h
  rw [Tree.get?_append_of_below hbelow]
  simp [filesView, claimFiles]

theorem entryKind_claim (hgood : s.Good tree) {reply : Except Fault Disk.EntryKind}
    (h : s.Answers i tree (.entryKind (s.lock i).claimDir) reply after) :
    after = tree ∧
      ((∃ kind j, reply = .ok kind ∧ s.IsOwned tree (some j)) ∨
        (∃ fault, reply = .error fault ∧ fault.kind = .notFound ∧ s.IsOwned tree none) ∨
        (∃ fault, reply = .error fault ∧ s.faulty)) := by
  have hw := s.works_claim i
  have hnames := hw.names_of_good hgood
  obtain ⟨hafter, hlooked⟩ := answers_entryKind h
  refine ⟨hafter, ?_⟩
  cases hlooked with
  | refused fault hfaulty => exact .inr (.inr ⟨fault, rfl, hfaulty⟩)
  | seen =>
    by_cases hfit : Fits (s.lock i).claimDir s.name.bytes
    · rw [hnames.entryKind_eq hfit]
      obtain ⟨owner, howned⟩ := hgood.owned
      have hget := howned.get?_claim
      rw [claim] at hget
      cases owner with
      | none =>
        rw [hget]
        exact .inr (.inl ⟨_, rfl, rfl, howned⟩)
      | some j =>
        rw [hget]
        exact .inl ⟨_, j, rfl, howned⟩
    · refine .inr (.inr ⟨_, hnames.entryKind_of_not_fits hfit, ?_⟩)
      by_contra hfaulty
      exact hfit (hw.fits hfaulty)

theorem readFile_held (hgood : s.Good tree) {reply : Except Fault (List UInt8)}
    (h : s.Answers i tree (.readFile (s.lock i).heldFile) reply after) :
    after = tree ∧
      ((∃ j, reply = .ok (s.lock j).nonce.bytes ∧ s.IsOwned tree (some j)) ∨
        (∃ fault, reply = .error fault ∧ (s.faulty ∨ s.IsOwned tree none))) := by
  have hw := s.works_claim i
  have hnames := hw.names_of_good hgood
  obtain ⟨hafter, hlooked⟩ := answers_readFile h
  refine ⟨hafter, ?_⟩
  cases hlooked with
  | refused fault hfaulty => exact .inr ⟨fault, rfl, .inl hfaulty⟩
  | seen =>
    obtain ⟨owner, howned⟩ := hgood.owned
    cases owner with
    | none =>
      obtain ⟨fault, hfault⟩ := hnames.readFile_join_of_none howned.get?_claim isName_heldBytes
      exact .inr ⟨fault, hfault, .inr howned⟩
    | some j =>
      by_cases hshort : s.name.bytes.length ≤ Path.longestName
      · have hheld := hw.mark_names hgood hshort howned.get?_claim isMark_heldBytes
        by_cases hfit : Fits ((s.lock i).claimDir.join ⟨heldBytes⟩) heldBytes
        · exact .inl ⟨j, hheld.readFile_of_file hfit howned.get?_held, howned⟩
        · refine .inr ⟨_, hheld.readFile_of_not_fits hfit, .inl ?_⟩
          by_contra hfaulty
          exact hfit (hw.held_fits hfaulty)
      · obtain ⟨fault, hfault⟩ :=
          hnames.readFile_join_of_long (Nat.not_le.1 hshort) isName_heldBytes
        refine .inr ⟨fault, hfault, .inl ?_⟩
        by_contra hfaulty
        exact hshort (hw.fits hfaulty).short

/-! ## Between a plot and the claim's place -/

theorem Works.rename {source target : Path} {sourceDir targetDir : Place}
    {sourceName targetName : Name} (hs : s.Works i source sourceDir sourceName)
    (ht : s.Works i target targetDir targetName) (hgood : s.Good tree)
    (hsplot : s.ground.Plot (sourceDir ++ [sourceName]))
    (htplot : s.ground.Plot (targetDir ++ [targetName]))
    (hne : sourceDir ++ [sourceName] ≠ targetDir ++ [targetName])
    (hsource : tree.get? (sourceDir ++ [sourceName]) = none ∨
      tree.get? (sourceDir ++ [sourceName]) = some .directory)
    {reply : Except Fault Unit} (h : s.Answers i tree (.rename source target) reply after) :
    (reply = .ok () ∧ tree.get? (sourceDir ++ [sourceName]) = some .directory ∧
      tree.replaceable .directory (targetDir ++ [targetName]) = .ok () ∧
      after = tree.move (sourceDir ++ [sourceName]) (targetDir ++ [targetName])) ∨
    (∃ fault, reply = .error fault ∧ after = tree ∧
      (s.faulty ∨ tree.get? (sourceDir ++ [sourceName]) = none ∨
        tree.replaceable .directory (targetDir ++ [targetName]) = .error fault)) := by
  have hsnames := hs.names_of_good hgood
  have htnames := ht.names_of_good hgood
  have hin : ¬ sourceDir ++ [sourceName] <+: targetDir := by
    have hdir := htplot.directory
    rw [List.dropLast_concat] at hdir
    exact hsplot.not_prefix_of_get? s.sound hdir
  have hout : ¬ targetDir ++ [targetName] <+: sourceDir := by
    have hdir := hsplot.directory
    rw [List.dropLast_concat] at hdir
    exact htplot.not_prefix_of_get? s.sound hdir
  cases answers_rename h with
  | refused fault hfaulty => exact .inr ⟨fault, rfl, rfl, .inl hfaulty⟩
  | failed herror =>
    refine .inr ⟨_, rfl, rfl, ?_⟩
    by_cases hfaulty : s.faulty
    · exact .inl hfaulty
    · rcases hsource with hget | hget
      · exact .inr (.inl hget)
      · rw [hsnames.rename_directory htnames (hs.fits hfaulty) (ht.fits hfaulty) hget hin hout
          hne] at herror
        cases hreplace : tree.replaceable .directory (targetDir ++ [targetName]) with
        | ok _ =>
          rw [hreplace] at herror
          cases herror
        | error fault =>
          rw [hreplace] at herror
          exact .inr (.inr (congrArg _ (Except.error.inj herror)))
  | changed hok =>
    refine .inl ⟨rfl, ?_⟩
    by_cases hfit : Fits source sourceName ∧ Fits target targetName
    · rcases hsource with hget | hget
      · obtain ⟨fault, hfault⟩ := hsnames.rename_of_none htnames hget
        rw [hfault] at hok
        cases hok
      · rw [hsnames.rename_directory htnames hfit.1 hfit.2 hget hin hout hne] at hok
        cases hreplace : tree.replaceable .directory (targetDir ++ [targetName]) with
        | ok _ =>
          rw [hreplace] at hok
          exact ⟨hget, rfl, (Except.ok.inj hok).symm⟩
        | error fault =>
          rw [hreplace] at hok
          cases hok
    · obtain ⟨fault, hfault⟩ := hsnames.rename_of_not_fits htnames hfit
      rw [hfault] at hok
      cases hok

theorem moves_move (hgood : s.Good tree) {source target : Place}
    (hends : source = s.claim ∧ s.Own i target ∨ s.Own i source ∧ target = s.claim) :
    s.Moves i source target tree (tree.move source target) := by
  have hclaim := s.plot_claim i
  obtain ⟨hsplot, htplot, hne⟩ : s.ground.Plot source ∧ s.ground.Plot target ∧ source ≠ target := by
    rcases hends with ⟨rfl, hown⟩ | ⟨hown, rfl⟩
    · exact ⟨hclaim, hown.plot, hown.ne_claim.symm⟩
    · exact ⟨hown.plot, hclaim, hown.ne_claim⟩
  have hordered := hgood.sound.toOrdered
  refine ⟨?_, hends, ?_, ?_, ?_⟩
  · exact hgood.sound.move htplot.ne_nil hsplot.ne_nil (hgood.within i _ _ htplot.directory)
      (hsplot.not_prefix_of_get? s.sound htplot.directory)
  · exact fun q hs ht => Tree.get?_move_of_apart hordered hsplot.ne_nil htplot.ne_nil hs ht
  · exact Tree.below_move_target hordered hsplot.ne_nil htplot.ne_nil
  · exact Tree.below_move_source hordered hsplot.ne_nil htplot.ne_nil
      (htplot.not_prefix_append s.sound hsplot hne.symm)

theorem Works.rename_to_claim {path : Path} {dir : Place} {name : Name}
    (hw : s.Works i path dir name) (hgood : s.Good tree) (hown : s.Own i (dir ++ [name]))
    (hget : tree.get? (dir ++ [name]) = some .directory) {reply : Except Fault Unit}
    (h : s.Answers i tree (.rename path (s.lock i).claimDir) reply after) :
    (reply = .ok () ∧ s.IsOwned tree none ∧ s.Moves i (dir ++ [name]) s.claim tree after) ∨
    (∃ fault, reply = .error fault ∧ after = tree ∧
      (s.faulty ∨ isLostRace fault = true ∧ ∃ j, s.IsOwned tree (some j))) := by
  obtain ⟨owner, howned⟩ := hgood.owned
  have hclaim := howned.get?_claim
  have hrename := hw.rename (s.works_claim i) hgood hown.plot (s.plot_claim i) hown.ne_claim
    (.inr hget) h
  rw [← claim] at hrename
  cases owner with
  | none =>
    have hreplace := Tree.replaceable_of_none hclaim .directory
    rcases hrename with ⟨hok, -, -, rfl⟩ | ⟨fault, herror, hafter, hwhy⟩
    · exact .inl ⟨hok, howned, moves_move hgood (.inr ⟨hown, rfl⟩)⟩
    · refine .inr ⟨fault, herror, hafter, .inl ?_⟩
      rcases hwhy with hfaulty | hnone | hreplaced
      · exact hfaulty
      · rw [hget] at hnone
        cases hnone
      · rw [hreplace] at hreplaced
        cases hreplaced
  | some j =>
    have hbare : ¬ tree.isBare s.claim = true := fun hbare => by
      have hnone := (Tree.isBare_iff _ _).1 hbare heldBytes
      rw [howned.get?_held] at hnone
      cases hnone
    have hreplace := Tree.replaceable_of_not_bare hclaim hbare
    rcases hrename with ⟨-, -, hreplaced, -⟩ | ⟨fault, herror, hafter, hwhy⟩
    · rw [hreplace] at hreplaced
      cases hreplaced
    · refine .inr ⟨fault, herror, hafter, ?_⟩
      rcases hwhy with hfaulty | hnone | hreplaced
      · exact .inl hfaulty
      · rw [hget] at hnone
        cases hnone
      · rw [hreplace] at hreplaced
        obtain rfl := Except.error.inj hreplaced
        exact .inr ⟨rfl, j, howned⟩

theorem Works.rename_from_claim {path : Path} {dir : Place} {name : Name}
    (hw : s.Works i path dir name) (hgood : s.Good tree) (hown : s.Own i (dir ++ [name]))
    {reply : Except Fault Unit}
    (h : s.Answers i tree (.rename (s.lock i).claimDir path) reply after) :
    (reply = .ok () ∧ (∃ j, s.IsOwned tree (some j)) ∧
      s.Moves i s.claim (dir ++ [name]) tree after) ∨
    (∃ fault, reply = .error fault ∧ after = tree ∧
      (s.faulty ∨ s.IsOwned tree none ∨ tree.get? (dir ++ [name]) ≠ none)) := by
  obtain ⟨owner, howned⟩ := hgood.owned
  have hclaim := howned.get?_claim
  have hsource : tree.get? s.claim = none ∨ tree.get? s.claim = some .directory := by
    cases owner with
    | none => exact .inl hclaim
    | some j => exact .inr hclaim
  have hrename := (s.works_claim i).rename hw hgood (s.plot_claim i) hown.plot hown.ne_claim.symm
    hsource h
  rw [← claim] at hrename
  rcases hrename with ⟨hok, hget, -, rfl⟩ | ⟨fault, herror, hafter, hwhy⟩
  · refine .inl ⟨hok, ?_, moves_move hgood (.inl ⟨rfl, hown⟩)⟩
    cases owner with
    | none =>
      rw [hget] at hclaim
      cases hclaim
    | some j => exact ⟨j, howned⟩
  · refine .inr ⟨fault, herror, hafter, hwhy.imp_right ?_⟩
    rintro (hnone | hreplaced)
    · left
      cases owner with
      | none => exact howned
      | some j =>
        rw [hclaim] at hnone
        cases hnone
    · right
      intro hnone
      rw [Tree.replaceable_of_none hnone] at hreplaced
      cases hreplaced

end DirLock.Site
