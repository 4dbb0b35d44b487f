import DirLock.Proofs.Disk.Apart
import DirLock.Proofs.Lock.Alone
import DirLock.Proofs.Lock.Mishap
import DirLock.Proofs.Lock.Requests

/-!
# All or nothing

An attempt to become the holder leaves a complete claim at a place where nothing stood, and has changed
nothing else, or it leaves the tree as it was. That is so whichever of its requests fail, as long as it can
look at the claim's place and remove what it has staged, and wherever the parent's path leads.

A claim is staged under a name that is drawn at random, and the random source gives its word that such a name is
not known to anybody before it is drawn. Only one thing rests on that: while a staging directory is there, the path
of the claim leads where it led without it (`Draft.seekParent_claimDir`). How an attempt ends without that word is
said by `Lock.Attempted`: nothing is lost then but an empty directory.
-/

namespace DirLock

open Disk (Tree Place Path Name Entry Fault)
open Disk.Tree (filesView ChangesOn Names Fits)
open Routine (Yields)

/-- How an attempt ends: all of a claim is there, or nothing has changed. -/
inductive Lock.AllOrNothing (lock : Lock) (claimant : Claimant) (before after : Machine) :
    Except LockError Bool → Prop
  /-- A claim with the handle's nonce stands where the path of the claim leads and nothing stood. Nothing
  else has changed. -/
  | all (parent : Place) (now : Time.Instant) :
    Draft before.tree before.directory lock.claimDir parent lock.name.bytes (lock.claimFiles claimant now)
      after → AllOrNothing lock claimant before after (.ok true)
  | nothing {result : Except LockError Bool} : result ≠ .ok true →
    after.IsAt before.directory before.tree → AllOrNothing lock claimant before after result

/-- How an attempt ends. Where nothing was found at the path of the claim, a claim was staged complete under a name
that was drawn for it, and moved to where the path led then; or nothing has changed. -/
inductive Lock.Attempted (supply : Supply) (lock : Lock) (claimant : Claimant) (before after : Machine) :
    Except LockError Bool → Prop
  | moved {path : Path} {dir : Place} {n : Nat} {now : Time.Instant} {staged : Machine} {fault : Fault} :
    before.tree.entryKind before.directory lock.claimDir = .error fault → fault.kind = .notFound →
    before.drawn ≤ n → n < after.drawn →
    Draft before.tree before.directory path dir (lock.nonce.stagingName (supply.suffix n))
      (lock.claimFiles claimant now) staged →
    staged.tree.rename staged.directory path lock.claimDir = .ok after.tree → after.directory = before.directory →
    Attempted supply lock claimant before after (.ok true)
  | unchanged {result : Except LockError Bool} : result ≠ .ok true →
    after.IsAt before.directory before.tree → before.drawn ≤ after.drawn →
    Attempted supply lock claimant before after result

section Attempted

variable {supply : Supply} {lock : Lock} {claimant : Claimant} {before machine after : Machine}
  {result : Except LockError Bool}

theorem Lock.Attempted.start (supply : Supply) (lock : Lock) (claimant : Claimant) (before : Machine) :
    lock.Attempted supply claimant before before (.ok false) :=
  .unchanged (fun h => by cases h) ⟨rfl, rfl⟩ (Nat.le_refl _)

theorem Lock.Attempted.congr (h : lock.Attempted supply claimant before machine result)
    (hdirectory : after.directory = machine.directory) (htree : after.tree = machine.tree)
    (hdrawn : machine.drawn ≤ after.drawn) : lock.Attempted supply claimant before after result := by
  cases h with
  | moved hfault hkind hle hlt hdraft hrename hat =>
    exact .moved hfault hkind hle (hlt.trans_le hdrawn) hdraft (htree ▸ hrename) (hdirectory.trans hat)
  | unchanged hne hat hle =>
    exact .unchanged hne ⟨hdirectory.trans hat.directory, htree.trans hat.tree⟩ (hle.trans hdrawn)

theorem Lock.Attempted.isAt (h : lock.Attempted supply claimant before machine (.ok false)) :
    machine.IsAt before.directory before.tree := by
  cases h with
  | unchanged _ hat => exact hat

theorem Lock.Attempted.after_lost (h : lock.Attempted supply claimant machine after result)
    (hlost : lock.Attempted supply claimant before machine (.ok false)) :
    lock.Attempted supply claimant before after result := by
  obtain ⟨hdirectory, htree⟩ := hlost.isAt
  have hdrawn : before.drawn ≤ machine.drawn := by
    cases hlost with
    | unchanged _ _ hle => exact hle
  cases h with
  | moved hfault hkind hle hlt hdraft hrename hat =>
    rw [htree, hdirectory] at hfault hdraft
    exact .moved hfault hkind (hdrawn.trans hle) hlt hdraft hrename (hat.trans hdirectory)
  | unchanged hne hat hle =>
    exact .unchanged hne ⟨hat.directory.trans hdirectory, hat.tree.trans htree⟩ (hdrawn.trans hle)

end Attempted

theorem Lock.AllOrNothing.start (lock : Lock) (claimant : Claimant) (before : Machine) :
    lock.AllOrNothing claimant before before (.ok false) :=
  .nothing (fun h => by cases h) ⟨rfl, rfl⟩

/-- Requests may fail, but those that remove something do not, and none that looks for the claim reports
that nothing is there. -/
structure Mishaps.SpareCleanup (mishaps : Mishaps) : Prop where
  removals : ∀ n path, mishaps n (.removals path) = Option.none
  remove : ∀ n step, mishaps n (.remove step) = Option.none
  entryKind : ∀ n path mishap, mishaps n (.entryKind path) = some mishap → mishap.fault.kind ≠ .notFound

theorem Mishaps.spareCleanup_none : Mishaps.none.SpareCleanup :=
  ⟨fun _ _ => rfl, fun _ _ => rfl, fun _ _ _ h => by cases h⟩

/-- Neither the path of the parent nor a link of the tree spells the name. -/
structure Lock.Unspelled (lock : Lock) (tree : Tree) (name : Name) : Prop where
  parent : name ∉ lock.parent.names
  links : tree.Unaware name

/-- What the random source is trusted for, of the names that are drawn from one moment to another: nobody knows a name
before it is drawn, so neither the path of the parent nor a link that is already in the tree spells one. -/
def Lock.Unforeseen (lock : Lock) (supply : Supply) (tree : Tree) (drawn drawn' : Nat) : Prop :=
  ∀ n, drawn ≤ n → n < drawn' → lock.Unspelled tree (lock.nonce.stagingName (supply.suffix n))

/-- Nobody who wrote the path of the parent or made a link has guessed the name of a staging directory. -/
structure Lock.Unguessed (lock : Lock) (supply : Supply) (tree : Tree) : Prop where
  parent : ∀ n, lock.nonce.stagingName (supply.suffix n) ∉ lock.parent.names
  links : ∀ n, tree.Unaware (lock.nonce.stagingName (supply.suffix n))

theorem Lock.Unguessed.unforeseen {lock : Lock} {supply : Supply} {tree : Tree} (h : lock.Unguessed supply tree)
    (drawn drawn' : Nat) : lock.Unforeseen supply tree drawn drawn' :=
  fun n _ _ => ⟨h.parent n, h.links n⟩

theorem Lock.unguessed_empty {lock : Lock} {supply : Supply} (hroot : lock.parent.names = []) :
    lock.Unguessed supply .empty :=
  ⟨fun _ => hroot ▸ List.not_mem_nil, fun _ q target h => by cases q <;> cases h⟩

variable {supply : Supply} {programs : Machine.Programs} {mishaps : Mishaps} {α : Type} {trial : Trial}
  {ground : Tree} {cwd dir : Place} {path : Path} {name : Name} {files : List (Name × List UInt8)}
  {lock : Lock} {claimant : Claimant}

theorem Mishaps.SpareCleanup.calm (h : mishaps.SpareCleanup) (n : Nat) (r : Request) (hr : r.Removes) :
    mishaps n r = Option.none := by
  cases r with
  | removals path => exact h.removals n path
  | remove step => exact h.remove n step
  | _ => exact hr.elim

theorem Disk.Tree.Sound.below_of_isBare {tree : Tree} {place : Place} (h : tree.Sound)
    (hthere : tree.get? place = some .directory) (hbare : tree.isBare place = true) :
    tree.below place = filesView [] := by
  funext rest
  rcases rest with _ | ⟨name, _ | ⟨next, rest⟩⟩
  · rwa [Tree.below, List.append_nil]
  · exact h.get?_of_isBare hbare (List.cons_ne_nil _ _)
  · exact h.get?_of_isBare hbare (List.cons_ne_nil _ _)

namespace Draft

/-! ## Drafts in spite of mishaps -/

theorem yields_writeFile (h : Draft ground cwd path dir name files trial.machine) {file : Name}
    (hfile : Path.IsName file) (hshort : file.length ≤ Path.longestName) (hnew : file ∉ files.map Prod.fst)
    {content : List UInt8} {next : Except Fault Unit → Routine α} {post : α → Trial → Prop}
    (hok : ∀ after, Draft ground cwd path dir name (files ++ [(file, content)]) after.machine →
      Yields (Trial.answer supply programs mishaps) (next (.ok ())) after post)
    (herror : ∀ fault files after, Draft ground cwd path dir name files after.machine →
      Yields (Trial.answer supply programs mishaps) (next (.error fault)) after post) :
    Yields (Trial.answer supply programs mishaps)
      (Routine.request (.writeFile (path.join ⟨file⟩) content) >>= next) trial post := by
  have hwritten := fun content => h.writeFile supply programs hfile hshort hnew content
  refine yields_of_trial (fun reply machine hanswer => ?_) fun mishap reply _ hreply => ?_
  · have hplain := hwritten content
    split at hplain
    · rw [hplain] at hanswer
      obtain ⟨rfl, rfl⟩ := Prod.mk.inj hanswer
      exact herror _ _ _ h
    · obtain ⟨after, hafter, -, hdraft⟩ := hplain
      rw [hafter] at hanswer
      obtain ⟨rfl, rfl⟩ := Prod.mk.inj hanswer
      exact hok _ hdraft
  · obtain rfl := Option.some.inj hreply
    cases mishap with
    | refused fault => exact herror _ _ _ h
    | halfRemoved fault gone => exact herror _ _ _ h
    | halfWritten fault part =>
      have hpart := hwritten part
      have hleaves : (Mishap.halfWritten fault part).leaves trial.machine
          (.writeFile (path.join ⟨file⟩) content) =
          (Machine.answer supply programs (.writeFile (path.join ⟨file⟩) part) trial.machine).2 := rfl
      split at hpart
      · rw [hleaves, hpart]
        exact herror _ _ _ h
      · obtain ⟨after, hafter, -, hdraft⟩ := hpart
        rw [hleaves, hafter]
        exact herror _ _ _ hdraft

theorem yields_fillStaging_trial (h : Draft ground cwd path dir name [] trial.machine) :
    Yields (Trial.answer supply programs mishaps) (lock.fillStaging claimant path) trial
      fun result after =>
        (∃ now, result = .ok () ∧
          Draft ground cwd path dir name (lock.claimFiles claimant now) after.machine) ∨
        (∃ error files, result = .error error ∧ Draft ground cwd path dir name files after.machine) := by
  refine h.yields_writeFile isName_heldBytes (by decide) (by simp) (fun marked hmarked => ?_)
    fun fault files after hdraft => .inr ⟨_, files, rfl, hdraft⟩
  refine yields_of_sure (fun _ => rfl) ?_
  have hne : holderBytes ∉ ([] ++ [(heldBytes, lock.nonce.bytes)]).map Prod.fst := by
    rw [List.nil_append, List.map_singleton, List.mem_singleton]
    exact heldBytes_ne_holderBytes.symm
  let later : Trial := ⟨marked.machine, marked.made + 1⟩
  have hlater : Draft ground cwd path dir name _ later.machine := hmarked
  dsimp only
  exact hlater.yields_writeFile isName_holderBytes (by decide) hne
    (fun complete hcomplete => .inl ⟨marked.machine.clock, rfl, hcomplete⟩)
    fun fault files after hdraft => .inr ⟨_, files, rfl, hdraft⟩

theorem yields_removeTree_trial (hspare : mishaps.SpareCleanup)
    (h : Draft ground cwd path dir name files trial.machine) :
    Yields (Trial.answer supply programs mishaps) (Routine.removeTree path) trial
      fun result after => result = .ok () ∧ after.machine.IsAt cwd ground :=
  (yields_of_calm (uses_removeTree_removes path) hspare.calm).1 h.yields_removeTree

theorem yields_discard_trial (hspare : mishaps.SpareCleanup)
    (h : Draft ground cwd path dir name files trial.machine) :
    Yields (Trial.answer supply programs mishaps) (Lock.discard path) trial
      fun _ after => after.machine.IsAt cwd ground := by
  refine (h.yields_removeTree_trial hspare).bind ?_
  rintro _ after ⟨rfl, hat⟩
  exact hat

theorem yields_makeStaging_trial (hsuffix : ∀ n, IsSuffix (supply.suffix n)) (hground : ground.Sound)
    {base : Path} (hstart : ground.get? (base.start cwd) = some .directory) (tries : Nat)
    (hat : trial.machine.IsAt cwd ground) :
    Yields (Trial.answer supply programs mishaps) (lock.makeStaging base tries) trial
      fun result after =>
        (∃ path dir n, result = .ok path ∧ trial.machine.drawn ≤ n ∧ n < after.machine.drawn ∧
          Draft ground cwd path dir (lock.nonce.stagingName (supply.suffix n)) [] after.machine) ∨
        (∃ fault, result = .error fault ∧ after.machine.IsAt cwd ground) := by
  induction tries generalizing trial with
  | zero => exact .inr ⟨_, rfl, hat⟩
  | succ tries ih =>
    refine yields_of_sure (fun _ => rfl) ?_
    have hdrawn : ({ trial.machine with drawn := trial.machine.drawn + 1 } : Machine).IsAt cwd ground :=
      ⟨hat.directory, hat.tree⟩
    -- The request fails or finds that the name is taken. In either case nothing is changed.
    have herror : ∀ (fault : Fault) (after : Trial), after.machine.IsAt cwd ground →
        trial.machine.drawn < after.machine.drawn →
        Yields (Trial.answer supply programs mishaps)
          (if fault.kind = .alreadyExists then lock.makeStaging base tries
            else return .error (Lock.stagingFault fault
              (base.join (lock.stagingName (supply.suffix trial.machine.drawn))))) after
          fun result after =>
            (∃ path dir n, result = .ok path ∧ trial.machine.drawn ≤ n ∧ n < after.machine.drawn ∧
              Draft ground cwd path dir (lock.nonce.stagingName (supply.suffix n)) [] after.machine) ∨
            (∃ fault, result = .error fault ∧ after.machine.IsAt cwd ground) := by
      intro fault after hat hdrawn
      split_ifs
      · refine (ih hat).mono fun result last => Or.imp_left ?_
        rintro ⟨path, dir, n, hok, hle, hlt, hdraft⟩
        exact ⟨path, dir, n, hok, hdrawn.le.trans hle, hlt, hdraft⟩
      · exact .inr ⟨_, rfl, hat⟩
    refine yields_of_trial (fun reply machine hmake => ?_) fun mishap reply _ hreply => ?_
    · cases hmade : trial.machine.tree.makeDirectory trial.machine.directory
          (base.join (lock.stagingName (supply.suffix trial.machine.drawn))) with
      | ok tree =>
        obtain ⟨rfl, rfl⟩ := Prod.mk.inj (hmake.symm.trans (change_ok hmade))
        rw [Lock.stagingName_eq] at hmade
        obtain ⟨dir, hdraft⟩ := of_makeDirectory hground hstart
          (lock.nonce.isName_stagingName (hsuffix trial.machine.drawn)) hdrawn hmade
        exact .inl ⟨_, dir, _, rfl, Nat.le_refl _, Nat.lt_succ_self _, by rwa [Lock.stagingName_eq]⟩
      | error fault =>
        obtain ⟨rfl, rfl⟩ := Prod.mk.inj (hmake.symm.trans (change_error hmade))
        exact herror fault _ hdrawn (Nat.lt_succ_self _)
    · obtain rfl := Option.some.inj hreply
      refine herror _ _ ?_ ?_
      · cases mishap <;> exact hdrawn
      · cases mishap <;> exact Nat.lt_succ_self _

theorem yields_stage_trial (hspare : mishaps.SpareCleanup) (hsuffix : ∀ n, IsSuffix (supply.suffix n))
    (hground : ground.Sound) (hat : trial.machine.IsAt cwd ground) :
    Yields (Trial.answer supply programs mishaps) (lock.stage claimant) trial
      fun result after =>
        (∃ path dir n now, result = .ok path ∧ trial.machine.drawn ≤ n ∧ n < after.machine.drawn ∧
          Draft ground cwd path dir (lock.nonce.stagingName (supply.suffix n))
            (lock.claimFiles claimant now) after.machine) ∨
        (∃ error, result = .error error ∧ after.machine.IsAt cwd ground) := by
  have habsolute : Yields (Trial.answer supply programs mishaps)
      (Lock.absolute (lock.scratchDir claimant)) trial
      fun base after => base = (lock.scratchDir claimant).absoluteFrom cwd ∧ after.machine.IsAt cwd ground := by
    unfold Lock.absolute Path.absoluteFrom
    split_ifs
    · exact ⟨rfl, hat⟩
    · refine yields_of_sure (fun _ => rfl) ?_
      rw [← hat.directory]
      exact ⟨rfl, rfl, hat.tree⟩
  refine habsolute.drawn.bind ?_
  rintro base begun ⟨⟨rfl, hat⟩, hbegun⟩
  refine (yields_makeStaging_trial hsuffix hground (by rw [Path.start_absoluteFrom]; rfl) _ hat).bind ?_
  rintro result made (⟨path, dir, n, rfl, hle, hlt, hdraft⟩ | ⟨fault, rfl, hat⟩)
  · refine hdraft.yields_fillStaging_trial.drawn.bind ?_
    rintro result after ⟨⟨now, rfl, hdraft⟩ | ⟨error, files, rfl, hdraft⟩, hmade⟩
    · exact .inl ⟨path, dir, n, now, rfl, hbegun.trans hle, hlt.trans_le hmade, hdraft⟩
    · refine (hdraft.yields_removeTree_trial hspare).bind ?_
      rintro _ after ⟨-, hat⟩
      exact .inr ⟨error, rfl, hat⟩
  · exact .inr ⟨_, rfl, hat⟩

end Draft

/-! ## Attempts in spite of mishaps -/

section Target

variable {machine : Machine} {n : Nat} (hground : ground.Sound) (hcwd : ground.get? cwd = some .directory)
  (hsuffix : IsSuffix (supply.suffix n))
  (hunspelled : lock.Unspelled ground (lock.nonce.stagingName (supply.suffix n)))
  (h : Draft ground cwd path dir (lock.nonce.stagingName (supply.suffix n)) files machine)
include hground hcwd hsuffix hunspelled h

/-- A staged claim does not change where the path of the claim leads. -/
theorem Draft.seekParent_claimDir :
    machine.tree.seekParent machine.directory lock.claimDir = ground.seekParent cwd lock.claimDir := by
  have hnames : lock.claimDir.names.dropLast = lock.parent.names := by
    rw [Lock.claimDir_eq, Path.names_join lock.name.isName, List.dropLast_concat]
  rw [h.directory]
  refine h.changes.seekParent_eq (lock.nonce.isName_stagingName hsuffix) hunspelled.links
    (h.plot.not_prefix_of_get? hground hcwd) ?_
  rw [hnames]
  exact hunspelled.parent

variable {fault : Fault} (hfault : ground.entryKind cwd lock.claimDir = .error fault)
  (hkind : fault.kind = .notFound)
include hfault hkind

omit hunspelled in
/-- If nothing was found at the path of the claim, but the directory in which it would be, the staged claim can be
put there. -/
theorem Draft.moveTo_claimDir {parent : Place} {last : Disk.LastName}
    (hseek : ground.seekParent cwd lock.claimDir = .ok (parent, last)) :
    ∃ tree, machine.tree.rename machine.directory path lock.claimDir = .ok tree ∧
      Draft ground cwd lock.claimDir parent lock.name.bytes files { machine with tree := tree } := by
  rw [Lock.claimDir_eq] at hseek
  obtain ⟨-, -, hclaim⟩ := Tree.names_of_seekParent lock.name.isName hseek
  rw [← Lock.claimDir_eq] at hclaim
  obtain ⟨hfits, hfree⟩ := hclaim.entryKind_eq_notFound (Path.bytes_join_ne_nil lock.name.isName lock.parent)
    hfault hkind
  have hdirectory := hclaim.get?_dir hground (Tree.get?_start hcwd _)
  have hne : dir ++ [lock.nonce.stagingName (supply.suffix n)] ≠ parent ++ [lock.name.bytes] := fun heq =>
    lock.name.bytes_ne_stagingName lock.nonce hsuffix (List.cons.inj (List.append_inj' heq rfl).2).1.symm
  exact ⟨_, h.moveTo hclaim hfits hdirectory hfree hne⟩

theorem moveTo_claim {tree : Tree} (hrename : machine.tree.rename machine.directory path lock.claimDir = .ok tree) :
    ∃ parent, Draft ground cwd lock.claimDir parent lock.name.bytes files { machine with tree := tree } := by
  obtain ⟨_, _, parent, last, -, htarget, -⟩ := Tree.rename_eq_ok hrename
  rw [h.seekParent_claimDir hground hcwd hsuffix hunspelled] at htarget
  obtain ⟨moved, hmove, hmoved⟩ := h.moveTo_claimDir hground hcwd hsuffix hfault hkind htarget
  obtain rfl := Except.ok.inj (hrename.symm.trans hmove)
  exact ⟨parent, hmoved⟩

end Target

/-- Wherever the path of the claim led when a staged claim was moved there: nothing is lost but an empty directory. -/
theorem Draft.exists_of_rename {machine : Machine} {suffix : List Char} {tree : Tree}
    (hsuffix : IsSuffix suffix) (h : Draft ground cwd path dir (lock.nonce.stagingName suffix) files machine)
    (hrename : machine.tree.rename machine.directory path lock.claimDir = .ok tree) :
    ∃ place, (ground.get? place = none ∨ ground.below place = filesView []) ∧ ChangesOn place ground tree ∧
      tree.below place = filesView files := by
  obtain ⟨sourceDir, sourceName, targetDir, targetName, hsource, htarget, hmoved⟩ := Tree.rename_eq_ok hrename
  rw [h.names_now.seekParent_eq, h.fits.check] at hsource
  obtain ⟨rfl, hname⟩ := Prod.mk.inj (Except.ok.inj hsource)
  obtain rfl := Disk.LastName.name.inj hname
  rw [Lock.claimDir_eq] at htarget
  obtain ⟨hlast, -, hnames⟩ := Tree.names_of_seekParent lock.name.isName htarget
  obtain rfl := Disk.LastName.name.inj hlast
  have hne : dir ++ [lock.nonce.stagingName suffix] ≠ targetDir ++ [lock.name.bytes] := fun heq =>
    lock.name.bytes_ne_stagingName lock.nonce hsuffix (List.cons.inj (List.append_inj' heq rfl).2).1.symm
  rcases hmoved with ⟨heq, -⟩ | ⟨hin, hout, -, ⟨moved, hget, hmay⟩, rfl⟩
  · exact absurd heq hne
  have hsourceNe : dir ++ [lock.nonce.stagingName suffix] ≠ [] := List.concat_ne_nil _ _
  have htargetNe : targetDir ++ [lock.name.bytes] ≠ [] := List.concat_ne_nil _ _
  -- Neither of the two places is inside the other, so what is at the target was there before the staging.
  have hapart : ∀ rest, ¬ dir ++ [lock.nonce.stagingName suffix] <+: targetDir ++ [lock.name.bytes] ++ rest := by
    intro rest hpre
    rcases List.prefix_or_prefix_of_prefix hpre (List.prefix_append _ rest) with hpre | hpre
    · exact hin (by simpa using Tree.prefix_dropLast hpre hne)
    · exact hout (by simpa using Tree.prefix_dropLast hpre hne.symm)
  have hbefore : machine.tree.below (targetDir ++ [lock.name.bytes]) =
      ground.below (targetDir ++ [lock.name.bytes]) := h.changes.below_eq hapart
  refine ⟨targetDir ++ [lock.name.bytes], ?_, ?_, ?_⟩
  · obtain rfl := Option.some.inj (hget.symm.trans (Tree.get?_of_below h.below))
    rw [← hbefore]
    rcases Tree.replaceable_eq_ok hmay with hfree | ⟨hthere, hbare⟩
    · left
      rwa [← h.changes _ fun hpre => hapart [] (by rwa [List.append_nil])]
    · exact .inr (h.sound.below_of_isBare hthere hbare)
  · intro q hq
    rw [h.sound.toOrdered.get?_move htargetNe hsourceNe, if_neg hq]
    split_ifs with hstaged
    · obtain ⟨rest, rfl⟩ := hstaged
      exact (congrFun (h.ground_sound.below_eq_none h.plot.free) rest).symm
    · exact h.changes q hstaged
  · rw [Tree.below_move_target h.sound.toOrdered hsourceNe htargetNe, h.below]

/-- Who finds the lock taken was told by the tree that something is there, and who finds it free that nothing is, unless
a look for the claim failed as if nothing were there. -/
theorem yields_isLocked_trial :
    Yields (Trial.answer supply programs mishaps) lock.isLocked trial fun result after =>
      after.machine = trial.machine ∧
      (result = .ok true → ∃ kind, trial.machine.tree.entryKind trial.machine.directory lock.claimDir = .ok kind) ∧
      ((∀ n path mishap, mishaps n (.entryKind path) = some mishap → mishap.fault.kind ≠ .notFound) →
        result = .ok false → ∃ fault,
          trial.machine.tree.entryKind trial.machine.directory lock.claimDir = .error fault ∧
            fault.kind = .notFound) := by
  refine yields_of_trial (fun reply machine hanswer => ?_) fun mishap reply hbefell hreply => ?_
  · obtain ⟨rfl, rfl⟩ := Prod.mk.inj hanswer
    split
    · rename_i kind heq
      exact ⟨rfl, fun _ => ⟨kind, heq⟩, fun _ h => by cases h⟩
    · rename_i fault heq
      split_ifs with hkind
      · exact ⟨rfl, fun h => (by cases h), fun _ _ => ⟨fault, heq, hkind⟩⟩
      · exact ⟨rfl, fun h => (by cases h), fun _ h => by cases h⟩
  · obtain rfl := Option.some.inj hreply
    have hleaves : mishap.leaves trial.machine (.entryKind lock.claimDir) = trial.machine := by
      cases mishap <;> rfl
    dsimp only
    rw [hleaves]
    split_ifs with hkind
    · exact ⟨rfl, fun h => (by cases h), fun hspare => absurd hkind (hspare _ _ _ hbefell)⟩
    · exact ⟨rfl, fun h => (by cases h), fun _ h => by cases h⟩

section Attempt

variable (hspare : mishaps.SpareCleanup)
include hspare

theorem yields_giveUp (fault : Fault) (h : Draft ground cwd path dir name files trial.machine) :
    Yields (Trial.answer supply programs mishaps)
      (if isLostRace fault then do
          Routine.note (.lostRace lock.name.text)
          Lock.discard path
          return .ok false
        else do
          Lock.discard path
          return .error (.io .moveStaging lock.claimDir fault) : Routine (Except LockError Bool)) trial
      fun result after => result ≠ .ok true ∧ after.machine.IsAt cwd ground := by
  split_ifs
  · refine yields_of_sure (fun _ => rfl) ?_
    exact Yields.bind (Draft.yields_discard_trial hspare (h.congr rfl rfl)) fun _ _ hat => ⟨nofun, hat⟩
  · exact (h.yields_discard_trial hspare).bind fun _ _ hat => ⟨nofun, hat⟩

theorem yields_putInPlace_trial (h : Draft ground cwd path dir name files trial.machine) :
    Yields (Trial.answer supply programs mishaps) (lock.putInPlace path) trial fun result after =>
      (result = .ok true ∧ after.machine.directory = cwd ∧
        trial.machine.tree.rename trial.machine.directory path lock.claimDir = .ok after.machine.tree) ∨
      (result ≠ .ok true ∧ after.machine.IsAt cwd ground) := by
  refine yields_of_trial (fun reply machine hanswer => ?_) fun mishap reply _ hreply => ?_
  · cases hrename : trial.machine.tree.rename trial.machine.directory path lock.claimDir with
    | error fault =>
      obtain ⟨rfl, rfl⟩ := Prod.mk.inj (hanswer.symm.trans (change_error hrename))
      have hgiven := @yields_giveUp supply programs mishaps ⟨trial.machine, trial.made + 1⟩ _ _ _ _ _ _ lock
        hspare fault h
      exact hgiven.mono fun _ _ => Or.inr
    | ok tree =>
      obtain ⟨rfl, rfl⟩ := Prod.mk.inj (hanswer.symm.trans (change_ok hrename))
      exact yields_of_sure (fun _ => rfl) (.inl ⟨rfl, h.directory, rfl⟩)
  · obtain rfl := Option.some.inj hreply
    have hleaves : mishap.leaves trial.machine (.rename path lock.claimDir) = trial.machine := by
      cases mishap <;> rfl
    have hgiven := @yields_giveUp supply programs mishaps ⟨trial.machine, trial.made + 1⟩ _ _ _ _ _ _ lock
      hspare mishap.fault h
    rw [hleaves]
    exact hgiven.mono fun _ _ => Or.inr

/-- Whichever requests fail, an attempt moves a complete claim to where its path leads, or it has changed nothing. -/
theorem yields_tryClaim_attempted (hsound : trial.machine.tree.Sound) (hsuffix : ∀ n, IsSuffix (supply.suffix n)) :
    Yields (Trial.answer supply programs mishaps) (lock.tryClaim claimant) trial fun result after =>
      lock.Attempted supply claimant trial.machine after.machine result := by
  have hat : trial.machine.IsAt trial.machine.directory trial.machine.tree := ⟨rfl, rfl⟩
  suffices hended : Yields (Trial.answer supply programs mishaps) (lock.tryClaim claimant) trial fun result after =>
      trial.machine.drawn ≤ after.machine.drawn → lock.Attempted supply claimant trial.machine after.machine result from
    hended (Trial.drawn_le_run _ trial)
  refine yields_isLocked_trial.bind ?_
  rintro result ⟨machine, made⟩ ⟨heq, -, hfree⟩
  obtain rfl : machine = trial.machine := heq
  rcases result with error | (_ | _)
  · exact .unchanged nofun hat
  · obtain ⟨fault, hfault, hkind⟩ := hfree hspare.entryKind rfl
    let looked : Trial := ⟨trial.machine, made⟩
    have hat : looked.machine.IsAt trial.machine.directory trial.machine.tree := hat
    refine (Draft.yields_stage_trial hspare hsuffix hsound hat).bind ?_
    rintro result staged (⟨path, dir, n, now, rfl, hle, hlt, hdraft⟩ | ⟨error, rfl, hat⟩)
    · refine (yields_putInPlace_trial hspare hdraft).drawn.mono ?_
      rintro result after ⟨⟨rfl, hdirectory, hrename⟩ | ⟨hne, hat⟩, hstaged⟩ hdrawn
      · exact .moved hfault hkind hle (hlt.trans_le hstaged) hdraft hrename hdirectory
      · exact .unchanged hne hat hdrawn
    · exact .unchanged nofun hat
  · exact yields_of_sure (fun _ => rfl) (.unchanged nofun ⟨rfl, rfl⟩)

end Attempt

section Ends

variable {before after : Machine} {result : Except LockError Bool}
  (h : lock.Attempted supply claimant before after result) (hsound : before.tree.Sound)
  (hcwd : before.tree.get? before.directory = some .directory) (hsuffix : ∀ n, IsSuffix (supply.suffix n))
include h hsound hcwd hsuffix

/-- With names that nobody knew before they were drawn, an attempt is all or nothing. -/
theorem Lock.Attempted.allOrNothing (hunforeseen : lock.Unforeseen supply before.tree before.drawn after.drawn) :
    lock.AllOrNothing claimant before after result := by
  cases h with
  | moved hfault hkind hle hlt hdraft hrename hdirectory =>
    obtain ⟨parent, hclaimed⟩ := moveTo_claim hsound hcwd (hsuffix _) (hunforeseen _ hle hlt) hdraft hfault hkind
      hrename
    exact .all parent _ (hclaimed.congr (hdirectory.trans hdraft.directory.symm) rfl)
  | unchanged hne hat => exact .nothing hne hat

end Ends

theorem yields_tryClaim_trial (hspare : mishaps.SpareCleanup) (hsound : trial.machine.tree.Sound)
    (hcwd : trial.machine.tree.get? trial.machine.directory = some .directory)
    (hsuffix : ∀ n, IsSuffix (supply.suffix n)) (hunguessed : lock.Unguessed supply trial.machine.tree) :
    Yields (Trial.answer supply programs mishaps) (lock.tryClaim claimant) trial fun result after =>
      lock.AllOrNothing claimant trial.machine after.machine result :=
  (yields_tryClaim_attempted hspare hsound hsuffix).mono fun _ _ hended =>
    hended.allOrNothing hsound hcwd hsuffix (hunguessed.unforeseen _ _)

/-- The disk is full when the file about the holder is written. -/
def Site.diskFull : Mishaps
  | _, .writeFile _ content => if content.length = 20 then none else some (.halfWritten (.os 28) [0x7b])
  | _, _ => none

/-- An attempt on a full disk, in a tree with nothing in it. -/
def Site.crampedTrial : Trial := ⟨.ofTree .empty [] ⟨0, 0⟩, 0⟩

/-- How the attempt on the full disk ends. -/
def Site.crampedEnd : Except LockError Bool × Trial :=
  ((pairLock false).tryClaim (pair.claimant false)).run
    (Trial.answer pair.supply noPrograms diskFull) crampedTrial

def Site.roomyEnd : Except LockError Bool × Trial :=
  ((pairLock false).tryClaim (pair.claimant false)).run (Trial.answer pair.supply noPrograms .none) crampedTrial

/-- A handle for a lock in the directory `d`, on a way through a staging directory that is not there yet. -/
def Site.foreseenLock : Lock :=
  { pairLock false with parent := ⟨0x2f :: ((pairLock false).nonce.stagingName (pair.supply.suffix 0) ++
    Text.bytesOf "/../d")⟩ }

/-- An attempt of that handle where an empty directory stands in the place of the claim. -/
def Site.foreseenTrial : Trial :=
  ⟨.ofTree ⟨[([[0x64]], .directory), ([[0x64], [0x61]], .directory)]⟩ [] ⟨0, 0⟩, 0⟩

def Site.foreseenEnd : Except LockError Bool × Trial :=
  (foreseenLock.tryClaim (pair.claimant false)).run (Trial.answer pair.supply noPrograms .none) foreseenTrial

/-- Where the name of the staging directory was known before it was drawn, a claim may replace an empty directory. -/
theorem Site.foreseenEnd_replaces :
    ¬ foreseenLock.Unforeseen pair.supply foreseenTrial.machine.tree foreseenTrial.machine.drawn
        foreseenEnd.2.machine.drawn ∧
      foreseenEnd.1 = .ok true ∧ foreseenTrial.machine.tree.get? [[0x64], [0x61]] = some .directory ∧
      foreseenEnd.2.machine.tree.get? [[0x64], [0x61], heldBytes] = some (.file foreseenLock.nonce.bytes) := by
  have hdrawn : 0 < foreseenEnd.2.machine.drawn := by decide +kernel
  refine ⟨fun h => (h 0 (Nat.le_refl _) hdrawn).parent ?_, by decide +kernel, rfl, by decide +kernel⟩
  decide +kernel

end DirLock
