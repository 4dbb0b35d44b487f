import DirLock.Proofs.Disk.Loss
import DirLock.Proofs.Lock.Vacate
import DirLock.Proofs.Lock.Whole

/-!
# What a release says

The result of a release tells what has become of the tree, whatever stands in the claim and at the place to
which it is moved, and even if moving it or deleting it fails part of the way. The handle did not hold the
lock, or the claim could not be moved aside, and nothing has changed; or the claim was moved aside and is
gone, with some of it left where it was moved to or with nothing left there.
-/

namespace DirLock

open Disk (Tree Place Path Name Entry Fault)
open Disk.Tree (Lost Thins Names Fits)
open Routine (Yields)

variable {supply : Supply} {programs : Machine.Programs} {mishaps : Mishaps} {trial : Trial} {lock : Lock}
  {machine : Machine} {base tree : Tree} {parent cwd : Place}

/-! ## The way to the claim -/

theorem Lock.heldFile_eq (lock : Lock) :
    lock.heldFile = (lock.parent.join ⟨lock.name.bytes⟩).join ⟨heldBytes⟩ := rfl

theorem Lock.IsHeldAt.leadsTo (h : lock.IsHeldAt machine) :
    ∃ parent, machine.tree.LeadsTo machine.directory lock.parent parent := by
  rw [Lock.IsHeldAt, Tree.readFile] at h
  obtain ⟨spot, hseek, -⟩ := Tree.ok_of_bind h
  have hwalk := Tree.walk_of_seek hseek
  have hsteps : lock.heldFile.steps = lock.parent.names ++ [lock.name.bytes, heldBytes] := by
    rw [Path.steps, Lock.heldFile_eq, Path.endsInSlash_join isName_heldBytes,
      if_neg Bool.false_ne_true, Path.names_join isName_heldBytes, Path.names_join lock.name.isName,
      List.append_assoc, List.cons_append, List.nil_append]
  have hstart : lock.heldFile.start machine.directory = lock.parent.start machine.directory := by
    rw [Lock.heldFile_eq, Path.start_join isName_heldBytes, Path.start_join lock.name.isName]
  rw [hsteps, hstart] at hwalk
  obtain ⟨left, parent, hleads⟩ := Tree.leads_of_walk_append (List.cons_ne_nil _ _) hwalk
  exact ⟨parent, hleads.leadsTo⟩

theorem Lock.IsHeldAt.check (h : lock.IsHeldAt machine) : lock.heldFile.check = .ok () := by
  rw [Lock.IsHeldAt, Tree.readFile] at h
  obtain ⟨spot, hseek, -⟩ := Tree.ok_of_bind h
  obtain ⟨_, hcheck, -⟩ := Tree.ok_of_bind hseek
  exact hcheck

theorem Lock.IsHeldAt.short (h : lock.IsHeldAt machine) : lock.name.bytes.length ≤ Path.longestName := by
  obtain ⟨parent, hleads⟩ := h.leadsTo
  by_contra hlong
  obtain ⟨fault, hread⟩ := (names_claimDir hleads).readFile_join_of_long (Nat.not_le.1 hlong) isName_heldBytes
  cases hread.symm.trans h

/-! ## Moving the claim aside -/

/-- What the way to the parent of the lock may rest on while the claim is released: the tree without what
stands at the place to which the claim is moved, unless that is a directory. -/
def Lock.footing (lock : Lock) (parent : Place) (tree : Tree) : Tree :=
  if tree.get? (lock.releasedIn parent) = some .directory then tree
  else tree.prune (lock.releasedIn parent)

/-- The way does not come by the place to which the claim is moved, unless a directory or a link stands
there. -/
theorem Lock.leadsTo_footing (hsound : tree.Sound) (hleads : tree.LeadsTo cwd lock.parent parent)
    (hlink : ∀ target, tree.get? (lock.releasedIn parent) = some (.link target) →
      (tree.prune (lock.releasedIn parent)).LeadsTo cwd lock.parent parent) :
    (lock.footing parent tree).LeadsTo cwd lock.parent parent := by
  unfold Lock.footing
  split_ifs with hdirectory
  · exact hleads
  · by_cases htarget : ∃ target, tree.get? (lock.releasedIn parent) = some (.link target)
    · obtain ⟨target, hget⟩ := htarget
      exact hlink target hget
    · refine hleads.of_carried fun q e hget hfile => ?_
      by_cases hroot : q = []
      · rw [hroot] at hget ⊢
        exact hget
      rw [Tree.get?_prune tree hroot, if_neg]
      · exact hget
      · rw [List.isPrefixOf_iff_prefix]
        intro hpre
        by_cases heq : lock.releasedIn parent = q
        · subst heq
          cases e with
          | file content => exact hfile content rfl
          | directory => exact hdirectory hget
          | link target => exact htarget ⟨target, hget⟩
        · exact hdirectory (hsound.get?_of_prefix hpre heq hget)

/-- Moving the claim aside takes entries off the way, but puts no other ones there. -/
theorem Lock.footing_thins_move (hsound : tree.Sound) {moved : Entry}
    (hclaim : tree.get? (lock.claimIn parent) = some moved)
    (hmay : tree.replaceable moved (lock.releasedIn parent) = .ok ()) :
    (lock.footing parent tree).Thins (tree.move (lock.claimIn parent) (lock.releasedIn parent)) := by
  intro q e hget
  have hne := lock.releasedIn_ne_nil parent
  rw [hsound.toOrdered.get?_move hne (lock.claimIn_ne_nil parent)]
  unfold Lock.footing at hget
  split_ifs at hget with hdirectory
  · -- A directory is replaced by a directory, and only if nothing stands in it.
    have hmoved : moved = .directory ∧ tree.isBare (lock.releasedIn parent) = true := by
      unfold Tree.replaceable at hmay
      rw [hdirectory] at hmay
      cases moved with
      | file content => cases hmay
      | link target => cases hmay
      | directory =>
        dsimp only at hmay
        split_ifs at hmay with hbare
        exact ⟨rfl, hbare⟩
    obtain ⟨rfl, hbare⟩ := hmoved
    split_ifs with hpre hpre'
    · obtain ⟨rest, rfl⟩ := hpre
      by_cases hrest : rest = []
      · subst hrest
        rw [List.append_nil, hdirectory] at hget
        rw [List.append_nil, List.drop_length, List.append_nil, hclaim, hget]
        exact .inl rfl
      · rw [hsound.get?_of_isBare hbare hrest] at hget
        cases hget
    · exact .inr rfl
    · exact .inl hget
  · by_cases hroot : q = []
    · subst hroot
      rw [if_neg (by simpa using hne), if_neg (by simpa using lock.claimIn_ne_nil parent)]
      exact .inl hget
    · rw [Tree.get?_prune tree hroot] at hget
      split_ifs at hget with hpre
      rw [List.isPrefixOf_iff_prefix] at hpre
      rw [if_neg hpre]
      split_ifs
      · exact .inr rfl
      · exact .inl hget

/-! ## Deleting it -/

section Delete

variable (hleads : base.LeadsTo cwd lock.parent parent)
include hleads

theorem lost_change_remove (hsound : machine.tree.Sound) (hthins : base.Thins machine.tree)
    (hcwd : machine.directory = cwd) {step : Tree.Removal} (hroot : step.root = lock.releasedDir) :
    (machine.change (machine.tree.remove machine.directory step)).2.directory = cwd ∧
      Lost (lock.releasedIn parent) machine.tree
        (machine.change (machine.tree.remove machine.directory step)).2.tree := by
  rw [Lock.releasedDir_eq] at hroot
  subst hcwd
  rcases hleads.remove_cases hthins lock.nonce.isName_releasedName hroot with hok | ⟨fault, herror⟩
  · rw [hok]
    exact ⟨rfl, .erase (hsound.remove hok) (List.prefix_append _ _)⟩
  · rw [herror]
    exact ⟨rfl, .refl hsound _⟩

theorem lost_leaves (hsound : machine.tree.Sound) (hthins : base.Thins machine.tree)
    (hcwd : machine.directory = cwd) (mishap : Mishap) :
    (mishap.leaves machine (.removals lock.releasedDir)).directory = cwd ∧
      Lost (lock.releasedIn parent) machine.tree
        (mishap.leaves machine (.removals lock.releasedDir)).tree := by
  cases mishap with
  | refused fault => exact ⟨hcwd, .refl hsound _⟩
  | halfWritten fault content => exact ⟨hcwd, .refl hsound _⟩
  | halfRemoved fault gone =>
    show (gone.foldl (fun machine inside => machine.takeAway lock.releasedDir inside) machine).directory = cwd ∧
      Lost (lock.releasedIn parent) machine.tree
        (gone.foldl (fun machine inside => machine.takeAway lock.releasedDir inside) machine).tree
    induction gone generalizing machine with
    | nil => exact ⟨hcwd, .refl hsound _⟩
    | cons inside gone ih =>
      have hroot : (Tree.Removal.unlink lock.releasedDir inside).root = lock.releasedDir := rfl
      have hroot' : (Tree.Removal.removeDirectory lock.releasedDir inside).root = lock.releasedDir := rfl
      obtain ⟨hcwd', hlost⟩ := lost_change_remove hleads hsound hthins hcwd hroot
      obtain ⟨hcwd'', hlost'⟩ := lost_change_remove hleads hlost.sound (hlost.thins hthins) hcwd' hroot'
      obtain ⟨hend, hlost''⟩ := ih hlost'.sound (hlost'.thins (hlost.thins hthins)) hcwd''
      exact ⟨hend, (hlost.trans hlost').trans hlost''⟩

theorem yields_removeEach_trial (hsound : trial.machine.tree.Sound)
    (hthins : base.Thins trial.machine.tree) (hcwd : trial.machine.directory = cwd)
    {steps : List Tree.Removal} (hsteps : ∀ step ∈ steps, step.root = lock.releasedDir) :
    Yields (Trial.answer supply programs mishaps) (Routine.removeEach steps) trial fun result after =>
      after.machine.directory = cwd ∧
        Lost (lock.releasedIn parent) trial.machine.tree after.machine.tree ∧
        (result = .ok () → ∀ step ∈ steps,
          after.machine.tree.get? (lock.releasedIn parent ++ step.inside) = none) := by
  induction steps generalizing trial with
  | nil => exact ⟨hcwd, .refl hsound _, fun _ step hmem => absurd hmem List.not_mem_nil⟩
  | cons step steps ih =>
    have hroot := hsteps step List.mem_cons_self
    refine yields_of_trial (fun reply machine hplain => ?_) fun mishap reply _ hreply => ?_
    · rw [Machine.answer_remove] at hplain
      rw [Lock.releasedDir_eq] at hroot
      have hcases := hleads.remove_cases hthins lock.nonce.isName_releasedName hroot
      rw [hcwd] at hplain
      rcases hcases with hok | ⟨fault, herror⟩
      · rw [change_ok hok] at hplain
        obtain ⟨rfl, rfl⟩ := Prod.mk.inj hplain
        have hlost : Lost (lock.releasedIn parent) trial.machine.tree
            (trial.machine.tree.erase (lock.releasedIn parent ++ step.inside)) :=
          .erase (hsound.remove hok) (List.prefix_append _ _)
        have hgone : (trial.machine.tree.erase (lock.releasedIn parent ++ step.inside)).get?
            (lock.releasedIn parent ++ step.inside) = none := by
          rw [Tree.get?_erase _ (by simp [Lock.releasedIn]), if_pos rfl]
        let erased : Trial :=
          ⟨{ trial.machine with tree := trial.machine.tree.erase (lock.releasedIn parent ++ step.inside) },
            trial.made + 1⟩
        have hsound : erased.machine.tree.Sound := hlost.sound
        refine (ih hsound (hlost.thins hthins) hcwd
          fun step hmem => hsteps step (List.mem_cons_of_mem _ hmem)).mono ?_
        rintro result after ⟨hcwd, hrest, hall⟩
        refine ⟨hcwd, hlost.trans hrest, fun hok step' hmem => ?_⟩
        rcases List.mem_cons.1 hmem with rfl | hmem
        · exact hrest.get?_eq_none hgone
        · exact hall hok step' hmem
      · rw [change_error herror] at hplain
        obtain ⟨rfl, rfl⟩ := Prod.mk.inj hplain
        exact ⟨hcwd, .refl hsound _, fun h => by cases h⟩
    · obtain rfl := Option.some.inj hreply
      have hleaves : mishap.leaves trial.machine (.remove step) = trial.machine := by cases mishap <;> rfl
      rw [hleaves]
      exact ⟨hcwd, .refl hsound _, fun h => by cases h⟩

theorem yields_deleteReleased_trial (hsound : trial.machine.tree.Sound)
    (hthins : base.Thins trial.machine.tree) (hcwd : trial.machine.directory = cwd) :
    Yields (Trial.answer supply programs mishaps) lock.deleteReleased trial fun result after =>
      after.machine.directory = cwd ∧
        Lost (lock.releasedIn parent) trial.machine.tree after.machine.tree ∧
        (result = .ok () ∧ after.machine.tree = trial.machine.tree.prune (lock.releasedIn parent) ∨
          ∃ fault, result = .error (.io .removeReleased lock.releasedDir fault)) := by
  have htree : Yields (Trial.answer supply programs mishaps) (Routine.removeTree lock.releasedDir) trial
      fun result after => after.machine.directory = cwd ∧
        Lost (lock.releasedIn parent) trial.machine.tree after.machine.tree ∧
        (result = .ok () → after.machine.tree = trial.machine.tree.prune (lock.releasedIn parent)) := by
    refine yields_of_trial (fun reply machine hplain => ?_) fun mishap reply _ hreply => ?_
    · obtain ⟨rfl, rfl⟩ := Prod.mk.inj hplain
      cases hremovals : trial.machine.tree.removals trial.machine.directory lock.releasedDir with
      | error fault => exact ⟨hcwd, .refl hsound _, fun h => by cases h⟩
      | ok steps =>
        have hnames : trial.machine.tree.Names trial.machine.directory lock.releasedDir parent
            lock.nonce.releasedName := by
          subst hcwd
          rcases hleads.thins hthins with hleads | hdead
          · exact names_releasedDir hleads
          · rw [Tree.removals, Lock.releasedDir_eq, hdead.seek_join lock.nonce.isName_releasedName] at hremovals
            obtain ⟨_, hseek, -⟩ := Tree.ok_of_bind hremovals
            obtain ⟨_, -, hseek⟩ := Tree.ok_of_bind hseek
            cases hseek
        obtain ⟨hsteps, hcover⟩ := hnames.removals_eq_ok hsound hremovals
        let listed : Trial := ⟨trial.machine, trial.made + 1⟩
        have hsound' : listed.machine.tree.Sound := hsound
        refine (yields_removeEach_trial hleads hsound' hthins hcwd hsteps).mono ?_
        rintro result after ⟨hcwd, hlost, hall⟩
        refine ⟨hcwd, hlost, fun hok => hlost.eq_prune hsound.toOrdered fun q hpre => ?_⟩
        by_cases hget : trial.machine.tree.get? q = none
        · exact hlost.get?_eq_none hget
        · obtain ⟨step, hmem, rfl⟩ := hcover q hpre hget
          exact hall hok step hmem
    · obtain rfl := Option.some.inj hreply
      obtain ⟨hend, hlost⟩ := lost_leaves hleads hsound hthins hcwd mishap
      exact ⟨hend, hlost, fun h => by cases h⟩
  refine htree.bind ?_
  rintro result after ⟨hcwd, hlost, hall⟩
  rcases result with fault | _
  · exact ⟨hcwd, hlost, .inr ⟨fault, rfl⟩⟩
  · exact ⟨hcwd, hlost, .inl ⟨rfl, hall rfl⟩⟩

end Delete

/-! ## Releasing -/

inductive Lock.Told (lock : Lock) (before after : Machine) : Except LockError Unit → Prop
  /-- The claim does not carry the handle's nonce. Nothing has changed. -/
  | notHeld : ¬ lock.IsHeldAt before → after.tree = before.tree →
    Told lock before after (.error (.notHeld lock.name.text))
  /-- The claim could not be moved aside. Nothing has changed. -/
  | kept (fault : Fault) : lock.IsHeldAt before → after.tree = before.tree →
    Told lock before after (.error (.io .releaseClaim lock.claimDir fault))
  /-- The claim was moved aside, but could not be deleted there. Nothing is found at its path. -/
  | left (parent : Place) (fault : Fault) : lock.IsHeldAt before →
    before.tree.LeadsTo before.directory lock.parent parent → lock.releasedDir.check = .ok () →
    Lost (lock.releasedIn parent) (before.tree.move (lock.claimIn parent) (lock.releasedIn parent)) after.tree →
    after.tree.entryKind after.directory lock.claimDir = .error (.os .notFound) →
    Told lock before after (.error (.io .removeReleased lock.releasedDir fault))
  /-- The claim is gone, and so is what stood at the place to which it was moved. -/
  | gone (parent : Place) : lock.IsHeldAt before →
    before.tree.LeadsTo before.directory lock.parent parent → lock.releasedDir.check = .ok () →
    after.tree = (before.tree.prune (lock.claimIn parent)).prune (lock.releasedIn parent) →
    Told lock before after (.ok ())

theorem Lock.Told.congr {before after last : Machine} {result : Except LockError Unit}
    (h : lock.Told before after result) (hdirectory : last.directory = after.directory)
    (htree : last.tree = after.tree) : lock.Told before last result := by
  cases h with
  | notHeld hnot heq => exact .notHeld hnot (htree.trans heq)
  | kept fault hheld heq => exact .kept fault hheld (htree.trans heq)
  | left parent fault hheld hleads haside hlost hgone =>
    exact .left parent fault hheld hleads haside (htree ▸ hlost) (by rw [htree, hdirectory]; exact hgone)
  | gone parent hheld hleads haside heq => exact .gone parent hheld hleads haside (htree.trans heq)

/-- If a link stands at the place to which the claim is moved, the path of the parent does not lead through
it. -/
def Lock.Bypasses (lock : Lock) (machine : Machine) : Prop :=
  ∀ parent target, machine.tree.LeadsTo machine.directory lock.parent parent →
    machine.tree.get? (lock.releasedIn parent) = some (.link target) →
      (machine.tree.prune (lock.releasedIn parent)).LeadsTo machine.directory lock.parent parent

/-- Nothing is found at the path of a claim that was moved aside, whatever has become of it since. -/
theorem Lock.entryKind_of_lost (hleads : base.LeadsTo cwd lock.parent parent) (hthins : base.Thins tree)
    (hfits : Fits lock.claimDir lock.name.bytes) (hgone : tree.get? (lock.claimIn parent) = none) :
    tree.entryKind cwd lock.claimDir = .error (.os .notFound) := by
  rcases hleads.thins hthins with hleads | hdead
  · rw [Lock.claimIn] at hgone
    rw [(names_claimDir hleads).entryKind_eq hfits, hgone]
  · rw [Tree.entryKind, Lock.claimDir_eq, hdead.seek_join lock.name.isName, ← Lock.claimDir_eq, hfits.check]
    rfl

theorem yields_isHeld_trial (hread : ∀ n path, mishaps n (.readFile path) = none) :
    Yields (Trial.answer supply programs mishaps) lock.isHeld trial fun held after =>
      after.machine = trial.machine ∧ (held = true ↔ lock.IsHeldAt trial.machine) := by
  have huses : lock.isHeld.Uses fun r => ∃ path, r = .readFile path := by
    refine Routine.uses_request_bind ⟨_, rfl⟩ fun reply => ?_
    rcases reply with fault | content <;> trivial
  refine (yields_of_calm huses ?_).1 yields_isHeld
  rintro n r ⟨path, rfl⟩
  exact hread n path

theorem Lock.IsHeldAt.moved_aside {after : Tree} (h : lock.IsHeldAt machine)
    (hrename : machine.tree.rename machine.directory lock.claimDir lock.releasedDir = .ok after) :
    ∃ parent moved, machine.tree.LeadsTo machine.directory lock.parent parent ∧
      Fits lock.claimDir lock.name.bytes ∧ lock.releasedDir.check = .ok () ∧ machine.tree.get? (lock.claimIn parent) = some moved ∧
      machine.tree.replaceable moved (lock.releasedIn parent) = .ok () ∧
      after = machine.tree.move (lock.claimIn parent) (lock.releasedIn parent) := by
  obtain ⟨parent, hleads⟩ := h.leadsTo
  obtain ⟨_, _, _, _, hsource, htarget, hmoved⟩ := Tree.rename_eq_ok hrename
  have hclaim : _ = lock.claimIn parent := (names_claimDir hleads).seekParent_eq_ok hsource
  have haside : _ = lock.releasedIn parent := (names_releasedDir hleads).seekParent_eq_ok htarget
  rw [hclaim, haside] at hmoved
  rcases hmoved with ⟨hsame, -⟩ | ⟨-, -, -, ⟨moved, hget, hmay⟩, rfl⟩
  · exact absurd hsame (lock.claimIn_ne_releasedIn parent lock)
  · exact ⟨parent, moved, hleads, ⟨(Tree.seekParent_eq_ok hsource).1, h.short⟩,
      (Tree.seekParent_eq_ok htarget).1, hget, hmay, rfl⟩

theorem Lock.sound_move (hsound : tree.Sound) {moved : Entry}
    (hget : tree.get? (lock.claimIn parent) = some moved) :
    (tree.move (lock.claimIn parent) (lock.releasedIn parent)).Sound := by
  have hup := hsound.get?_dropLast hget
  rw [Lock.claimIn, List.dropLast_concat] at hup
  refine hsound.move (lock.releasedIn_ne_nil parent) (lock.claimIn_ne_nil parent) ?_ ?_
  · rwa [Lock.releasedIn, List.dropLast_concat]
  · rw [Lock.releasedIn, List.dropLast_concat]
    exact lock.not_claimIn_prefix parent

theorem Lock.get?_claimIn_move (hsound : tree.Sound) :
    (tree.move (lock.claimIn parent) (lock.releasedIn parent)).get? (lock.claimIn parent) = none := by
  rw [hsound.toOrdered.get?_move (lock.releasedIn_ne_nil parent) (lock.claimIn_ne_nil parent),
    if_neg (by simpa using lock.not_aside_prefix_claimIn parent []), if_pos (List.prefix_refl _)]

theorem yields_unlock_trial (hread : ∀ n path, mishaps n (.readFile path) = none)
    (hsound : trial.machine.tree.Sound) (hbypass : lock.Bypasses trial.machine) :
    Yields (Trial.answer supply programs mishaps) lock.unlock trial fun result after =>
      after.machine.directory = trial.machine.directory ∧ lock.Told trial.machine after.machine result := by
  refine (yields_isHeld_trial hread).bind ?_
  rintro held ⟨machine, made⟩ ⟨heq, hiff⟩
  obtain rfl : machine = trial.machine := heq
  cases held with
  | false => exact ⟨rfl, .notHeld (fun h => Bool.noConfusion (hiff.2 h)) rfl⟩
  | true =>
    have hheld := hiff.1 rfl
    refine @yields_of_trial _ _ _ _ ⟨trial.machine, made⟩ _ _ _ (fun reply machine hplain => ?_)
      fun mishap reply _ hreply => ?_
    · cases hrename : trial.machine.tree.rename trial.machine.directory lock.claimDir lock.releasedDir with
      | error fault =>
        obtain ⟨rfl, rfl⟩ := Prod.mk.inj (hplain.symm.trans (change_error hrename))
        exact ⟨rfl, .kept fault hheld rfl⟩
      | ok tree =>
        obtain ⟨rfl, rfl⟩ := Prod.mk.inj (hplain.symm.trans (change_ok hrename))
        obtain ⟨parent, moved, hleads, hfits, haside, hget, hmay, rfl⟩ := hheld.moved_aside hrename
        have hbase := lock.leadsTo_footing hsound hleads (hbypass parent · hleads)
        have hthins := Lock.footing_thins_move hsound hget hmay
        refine yields_of_sure (fun _ => rfl) ?_
        refine Yields.mono (yields_deleteReleased_trial hbase (Lock.sound_move hsound hget) hthins rfl) ?_
        rintro result after ⟨hcwd, hlost, ⟨rfl, htree⟩ | ⟨fault, rfl⟩⟩
        · refine ⟨hcwd, .gone parent hheld hleads haside ?_⟩
          rw [htree, ← prune_move hsound.toOrdered]
          rfl
        · refine ⟨hcwd, .left parent fault hheld hleads haside hlost ?_⟩
          rw [hcwd]
          exact Lock.entryKind_of_lost hbase (hlost.thins hthins) hfits
            (hlost.get?_eq_none (Lock.get?_claimIn_move hsound))
    · obtain rfl := Option.some.inj hreply
      have hleaves : mishap.leaves trial.machine (.rename lock.claimDir lock.releasedDir) = trial.machine := by
        cases mishap <;> rfl
      rw [hleaves]
      exact ⟨rfl, .kept _ hheld rfl⟩

theorem yields_unlock_told (hsound : machine.tree.Sound) (hbypass : lock.Bypasses machine) :
    Yields (Machine.answer supply programs) lock.unlock machine
      fun result after => lock.Told machine after result := by
  have hended := @yields_unlock_trial supply programs .none ⟨machine, 0⟩ lock (fun _ _ => rfl) hsound hbypass
  rw [Yields, ← Trial.run_none lock.unlock ⟨machine, 0⟩]
  exact hended.2

/-! ## What the operations say afterwards -/

variable {after : Machine} {result : Except LockError Unit}

theorem Lock.isHeld_run (lock : Lock) (machine : Machine) :
    (lock.isHeld.run (Machine.answer supply programs) machine).1 = true ↔ lock.IsHeldAt machine :=
  (@yields_isHeld supply programs lock machine).2

theorem Lock.isLocked_run (hgone : machine.tree.entryKind machine.directory lock.claimDir =
    .error (.os .notFound)) : (lock.isLocked.run (Machine.answer supply programs) machine).1 = .ok false := by
  have hended : Yields (Machine.answer supply programs) lock.isLocked machine
      fun result _ => result = .ok false := yields_of_answer (congrArg (·, machine) hgone) rfl
  exact hended

theorem Lock.not_isHeldAt_of_notFound (hgone : machine.tree.entryKind machine.directory lock.claimDir =
    .error (.os .notFound)) : ¬ lock.IsHeldAt machine := by
  intro hheld
  obtain ⟨parent, hleads⟩ := hheld.leadsTo
  have hnames := names_claimDir hleads
  obtain ⟨-, hget⟩ := hnames.entryKind_eq_notFound (Path.bytes_join_ne_nil lock.name.isName lock.parent) hgone rfl
  obtain ⟨fault, hread⟩ := hnames.readFile_join_of_none hget isName_heldBytes
  cases hread.symm.trans hheld

/-- The handle still holds the lock after a release only if the claim could not be moved aside. -/
theorem Lock.Told.stuck_of_isHeldAt {before : Machine} (h : lock.Told before after result)
    (hdirectory : after.directory = before.directory) (hheld : lock.IsHeldAt after) :
    ∃ fault, result = .error (.io .releaseClaim lock.claimDir fault) := by
  cases h with
  | notHeld hnot htree => exact absurd ((Lock.isHeldAt_congr htree hdirectory).1 hheld) hnot
  | kept fault => exact ⟨fault, rfl⟩
  | left parent fault _ _ _ _ hgone => exact absurd hheld (Lock.not_isHeldAt_of_notFound hgone)
  | gone parent _ hleads _ htree =>
    -- What is left of the tree leads where the tree led, and there nothing stands any more.
    obtain ⟨dir, hafter⟩ := hheld.leadsTo
    have hwithin : after.tree.Within before.tree := by
      intro q e hget
      rw [htree, Tree.get?_prune_eq (lock.releasedIn_ne_nil parent),
        Tree.get?_prune_eq (lock.claimIn_ne_nil parent)] at hget
      split_ifs at hget
      exact hget
    rw [hdirectory] at hafter
    obtain rfl := (hafter.mono hwithin).unique hleads
    have hnone : after.tree.get? (lock.claimIn dir) = none := by
      rw [htree, Tree.get?_prune_eq (lock.releasedIn_ne_nil dir), Tree.get?_prune_eq (lock.claimIn_ne_nil dir),
        if_pos (List.prefix_refl _), ite_self]
    obtain ⟨fault, hread⟩ := (names_claimDir hafter).readFile_join_of_none hnone isName_heldBytes
    rw [Lock.IsHeldAt, hdirectory] at hheld
    cases hread.symm.trans hheld

/-- What the result of a release tells about the machine before and after it. -/
structure Lock.ReleaseTells (supply : Supply) (programs : Machine.Programs) (lock : Lock)
    (before after : Machine) (result : Except LockError Unit) : Prop where
  result_cases : result = .ok () ∨ result = .error (.notHeld lock.name.text) ∨ ∃ fault,
    result = .error (.io .releaseClaim lock.claimDir fault) ∨
      result = .error (.io .removeReleased lock.releasedDir fault)
  notHeld_iff : result = .error (.notHeld lock.name.text) ↔ ¬ lock.IsHeldAt before
  notHeld : result = .error (.notHeld lock.name.text) → after.tree = before.tree
  releaseClaim : ∀ path fault, result = .error (.io .releaseClaim path fault) →
    after.tree = before.tree ∧ (lock.isHeld.run (Machine.answer supply programs) after).1 = true
  removeReleased : ∀ path fault, result = .error (.io .removeReleased path fault) →
    after.tree.entryKind after.directory lock.claimDir = .error (.os .notFound) ∧
      (lock.isHeld.run (Machine.answer supply programs) after).1 = false ∧
      (lock.isLocked.run (Machine.answer supply programs) after).1 = .ok false
  ok : result = .ok () → ∃ parent, before.tree.LeadsTo before.directory lock.parent parent ∧
    after.tree = (before.tree.prune (lock.claimIn parent)).prune (lock.releasedIn parent)

theorem Lock.Told.releaseTells {before : Machine} (h : lock.Told before after result)
    (hdirectory : after.directory = before.directory) :
    lock.ReleaseTells supply programs before after result := by
  cases h with
  | notHeld hnot htree =>
    exact ⟨.inr (.inl rfl), iff_of_true rfl hnot, fun _ => htree, nofun, nofun, nofun⟩
  | kept fault hheld htree =>
    refine ⟨.inr (.inr ⟨fault, .inl rfl⟩), iff_of_false nofun (not_not_intro hheld), nofun, ?_, nofun, nofun⟩
    exact fun _ _ _ => ⟨htree, (lock.isHeld_run after).2 ((Lock.isHeldAt_congr htree hdirectory).2 hheld)⟩
  | left parent fault hheld _ _ _ hgone =>
    refine ⟨.inr (.inr ⟨fault, .inr rfl⟩), iff_of_false nofun (not_not_intro hheld), nofun, nofun, ?_, nofun⟩
    have hnot := Lock.not_isHeldAt_of_notFound hgone
    exact fun _ _ _ => ⟨hgone, Bool.eq_false_iff.2 fun h => hnot ((lock.isHeld_run after).1 h),
      Lock.isLocked_run hgone⟩
  | gone parent hheld hleads _ htree =>
    exact ⟨.inl rfl, iff_of_false nofun (not_not_intro hheld), nofun, nofun, nofun,
      fun _ => ⟨parent, hleads, htree⟩⟩

/-! ## Claiming and releasing -/

section Restore

variable {ground : Tree} {claimant : Claimant} {now : Time.Instant}
  (h : Draft ground cwd lock.claimDir parent lock.name.bytes (lock.claimFiles claimant now) machine)
include h

theorem Draft.leadsTo : ground.LeadsTo cwd lock.parent parent := by
  have hnames := h.names
  rw [Lock.claimDir_eq] at hnames
  exact hnames.leadsTo_of_join

/-- The handle finds its nonce in a claim that it has made, unless requests do not take the path of the held
marker. -/
theorem Draft.isHeldAt (hcheck : lock.heldFile.check = .ok ()) : lock.IsHeldAt machine := by
  have hnames := h.names_now.join h.fits.short (Tree.get?_of_below h.below) isName_heldBytes
  refine hnames.readFile_of_file ⟨hcheck, by decide⟩ ?_
  exact (Tree.get?_append_of_below h.below [heldBytes]).trans (by simp [Tree.filesView, Lock.claimFiles])

theorem Draft.rename_aside (hleads : ground.LeadsTo cwd lock.parent parent)
    (hfits : Fits lock.releasedDir lock.nonce.releasedName) :
    machine.tree.rename machine.directory lock.claimDir lock.releasedDir =
      (ground.replaceable .directory (lock.releasedIn parent)).map fun _ =>
        machine.tree.move (lock.claimIn parent) (lock.releasedIn parent) := by
  have hreleased : machine.tree.Names machine.directory lock.releasedDir parent lock.nonce.releasedName := by
    rw [h.directory]
    exact names_releasedDir (hleads.mono h.within)
  rw [h.names_now.rename_directory hreleased h.fits hfits (Tree.get?_of_below h.below)
    (lock.not_claimIn_prefix parent) (lock.not_releasedIn_prefix parent)
    (lock.claimIn_ne_releasedIn parent lock)]
  have hsame : machine.tree.replaceable .directory (lock.releasedIn parent) =
      ground.replaceable .directory (lock.releasedIn parent) :=
    Tree.replaceable_congr
      (h.changes _ fun hpre => lock.not_claimIn_prefix_aside parent [] (by rwa [List.append_nil]))
      (fun name => h.changes _ (lock.not_claimIn_prefix_aside parent [name])) _
  rw [← hsame]
  rfl

theorem Draft.yields_unlock {base : Tree} (hbase : base.Sound) (hwithin : base.Within ground)
    (hparent : base.LeadsTo cwd lock.parent parent) (hplot : base.Plot (lock.releasedIn parent))
    (hheld : lock.heldFile.check = .ok ()) (haside : lock.releasedDir.check = .ok ())
    (hmay : ground.replaceable .directory (lock.releasedIn parent) = .ok ()) :
    Yields (Machine.answer supply programs) lock.unlock machine fun result after =>
      result = .ok () ∧ after.tree = ground.prune (lock.releasedIn parent) := by
  have hne := lock.releasedIn_ne_nil parent
  have hget : machine.tree.get? (lock.claimIn parent) = some .directory := Tree.get?_of_below h.below
  have hfits : Fits lock.releasedDir lock.nonce.releasedName :=
    ⟨haside, by rw [Nonce.length_releasedName]; decide⟩
  have hrename := (h.rename_aside (hparent.mono hwithin) hfits).trans (congrArg (Except.map _) hmay)
  -- What stands in the base is neither in the claim nor where it is moved to.
  have hkept : base.Within ((machine.tree.move (lock.claimIn parent) (lock.releasedIn parent)).hollow
      (lock.releasedIn parent)) := by
    intro q e hq
    have hclaim : ¬ lock.claimIn parent <+: q := h.plot.not_prefix_of_get? h.ground_sound (hwithin q e hq)
    have haway := hplot.not_prefix_of_get? hbase hq
    rw [Tree.get?_hollow hne haway, h.sound.toOrdered.get?_move hne (lock.claimIn_ne_nil parent),
      if_neg haway, if_neg hclaim]
    exact h.within q e (hwithin q e hq)
  refine yields_isHeld.bind ?_
  rintro held after ⟨rfl, hiff⟩
  rw [hiff.2 (h.isHeldAt hheld)]
  refine yields_of_answer (change_ok hrename) ?_
  refine @yields_of_answer _ _ _ _ _ _ _ () _ rfl ?_
  refine (yields_deleteReleased h.sound hget hfits ?_ rfl).mono ?_
  · show Tree.LeadsTo _ after.directory _ _
    rw [h.directory]
    exact hparent.mono hkept
  · rintro result last ⟨rfl, rfl⟩
    refine ⟨rfl, ?_⟩
    show (after.tree.prune (parent ++ [lock.name.bytes])).prune (lock.releasedIn parent) = _
    rw [h.prune_eq]

end Restore

/-- The result of a release tells what has become of the tree, whatever fails while the claim is moved aside
and deleted. A claim that the handle has made is released without a trace, if nothing stands where it is moved
to and requests take the paths. -/
theorem Lock.unlock_tells (lock : Lock) (claimant : Claimant) (hsound : trial.machine.tree.Sound) :
    ((∀ n path, mishaps n (.readFile path) = none) → lock.Bypasses trial.machine → ∀ result after,
      lock.unlock.run (Trial.answer supply programs mishaps) trial = (result, after) →
        lock.ReleaseTells supply programs trial.machine after.machine result) ∧
    (mishaps.SpareCleanup → trial.machine.tree.get? trial.machine.directory = some .directory →
      (∀ n, IsSuffix (supply.suffix n)) → lock.Unguessed supply trial.machine.tree →
      lock.heldFile.check = .ok () → lock.releasedDir.check = .ok () →
      (∀ parent, trial.machine.tree.LeadsTo trial.machine.directory lock.parent parent →
        trial.machine.tree.get? (lock.releasedIn parent) = none) →
      ∀ claimed, (lock.tryClaim claimant).run (Trial.answer supply programs mishaps) trial =
        (.ok true, claimed) → ∃ restored,
          lock.unlock.run (Machine.answer supply programs) claimed.machine = (.ok (), restored) ∧
            restored.tree = trial.machine.tree) := by
  constructor
  · intro hread hbypass result after hrun
    have hended := @yields_unlock_trial supply programs _ _ _ hread hsound hbypass
    rw [Yields, hrun] at hended
    exact hended.2.releaseTells hended.1
  · intro hspare hcwd hsuffix hunguessed hheld haside hfree claimed hrun
    have hended := @yields_tryClaim_trial supply programs _ _ _ claimant hspare hsound hcwd hsuffix hunguessed
    rw [Yields, hrun] at hended
    cases hended with
    | nothing hne => exact absurd rfl hne
    | all parent now hclaimed =>
      have hnone := hfree parent hclaimed.leadsTo
      have hdirectory : trial.machine.tree.get? parent = some .directory := by simpa using hclaimed.plot.directory
      have hplot : trial.machine.tree.Plot (lock.releasedIn parent) :=
        ⟨lock.releasedIn_ne_nil parent, by rwa [Lock.releasedIn, List.dropLast_concat], hnone⟩
      obtain ⟨hok, htree⟩ := @Draft.yields_unlock supply programs _ _ _ _ _ _ _ hclaimed _ hsound (.refl _)
        hclaimed.leadsTo hplot hheld haside (Tree.replaceable_of_none hnone .directory)
      exact ⟨_, Prod.ext hok rfl, htree.trans (hsound.prune_of_none hnone)⟩

namespace Site

/-- The claim of a handle at the root, with a directory and a link in it. -/
def furnishedTrial : Trial where
  machine := .ofTree ⟨[([[0x61]], .directory), ([[0x61], heldBytes], .file (List.replicate 20 0)),
    ([[0x61], [0x78]], .directory), ([[0x61], [0x78], [0x79]], .link (.ofString "/tmp"))]⟩ [] ⟨0, 0⟩
  made := 0

/-- The disk breaks when the claim is deleted, and these entries are gone by then. -/
def brokenDisk (gone : List (List Name)) : Mishaps
  | _, .removals _ => some (.halfRemoved (.os 5) gone)
  | _, _ => none

/-- How the release ends on the broken disk, when the held marker is gone. -/
def brokenEnd : Except LockError Unit × Trial :=
  (pairLock false).unlock.run (Trial.answer pair.supply noPrograms (brokenDisk [[heldBytes]])) furnishedTrial

/-- How an attempt ends in a tree with nothing in it. -/
def plainEnd : Except LockError Bool × Trial :=
  ((pairLock false).tryClaim (pair.claimant false)).run (Trial.answer pair.supply noPrograms .none) crampedTrial

theorem furnishedTrial_leadsTo :
    furnishedTrial.machine.tree.LeadsTo furnishedTrial.machine.directory (pairLock false).parent [] := by
  unfold Tree.LeadsTo
  decide +kernel

theorem brokenEnd_tells :
    brokenEnd.1 = .error (.io .removeReleased (pairLock false).releasedDir (.os 5)) ∧
      ((pairLock false).isLocked.run (Machine.answer pair.supply noPrograms) brokenEnd.2.machine).1 =
        .ok false ∧
      ∃ restored, (pairLock false).unlock.run (Machine.answer pair.supply noPrograms) plainEnd.2.machine =
        (.ok (), restored) ∧ restored.tree = .empty := by
  have hbroken : brokenEnd.1 = .error (.io .removeReleased (pairLock false).releasedDir (.os 5)) := by
    decide +kernel
  have hclaimed : plainEnd.1 = .ok true := by decide +kernel
  have hbypass : (pairLock false).Bypasses furnishedTrial.machine := by
    intro parent target hleads hget
    rw [← furnishedTrial_leadsTo.unique hleads] at hget
    have hfree : furnishedTrial.machine.tree.get? ((pairLock false).releasedIn []) = none := by decide +kernel
    rw [hfree] at hget
    cases hget
  obtain ⟨htells, -⟩ := @Lock.unlock_tells pair.supply noPrograms (brokenDisk [[heldBytes]]) furnishedTrial
    (pairLock false) (pair.claimant false) ⟨⟨by decide, by decide⟩, by decide⟩
  obtain ⟨-, hrestores⟩ := @Lock.unlock_tells pair.supply noPrograms .none crampedTrial (pairLock false)
    (pair.claimant false) .empty
  have htold := htells (fun _ _ => rfl) hbypass brokenEnd.1 brokenEnd.2 (by rw [Prod.mk.eta, brokenEnd])
  have hheld : (pairLock false).heldFile.check = .ok () := by decide +kernel
  have haside : (pairLock false).releasedDir.check = .ok () := by decide +kernel
  have hrestored := hrestores ⟨fun _ _ => rfl, fun _ _ => rfl, fun _ _ _ h => nomatch h⟩ rfl pair.suffix_spec
    (Lock.unguessed_empty rfl) hheld haside
    (fun parent _ => by cases parent <;> rfl) plainEnd.2 (by rw [← hclaimed, Prod.mk.eta, plainEnd])
  exact ⟨hbroken, (htold.removeReleased _ _ hbroken).2.2, hrestored⟩

/-- A handle whose parent directory is named by the link to which its claim is moved. -/
def underfoot : Lock :=
  { pairLock false with parent := ⟨0x2f :: (pairLock false).nonce.releasedName⟩ }

/-- The link to which the claim of that handle is moved leads to the root, where the claim is a link to a
directory that holds one more entry of the name of the lock. -/
def underfootTree : Tree :=
  ⟨[([underfoot.nonce.releasedName], .link (.ofString ".")), ([[0x61]], .link (.ofString "m")),
    ([[0x6d]], .directory), ([[0x6d], [0x61]], .directory),
    ([[0x6d], heldBytes], .file (List.replicate 20 0))]⟩

/-- How the release of that handle ends. -/
def underfootEnd : Except LockError Unit × Machine :=
  underfoot.unlock.run (Machine.answer pair.supply noPrograms) (.ofTree underfootTree [] ⟨0, 0⟩)

/-- A handle whose path of the parent directory is so long that requests take that of its held marker but not
that of its released claim. -/
def farAway : Lock :=
  { pairLock false with parent := ⟨List.replicate 4050 0x2f⟩ }

/-- How an attempt of the handle with the long path ends. -/
def farEnd : Except LockError Bool × Machine :=
  (farAway.tryClaim (pair.claimant false)).run (Machine.answer pair.supply noPrograms) (.ofTree .empty [] ⟨0, 0⟩)

set_option maxRecDepth 20000 in
/-- The result of a release does not tell that the lock is free if the way to the lock leads through the place
to which the claim is moved, nor is a claim that was made always released. -/
theorem not_tells_underfoot :
    (¬ ∀ (lock : Lock) (machine after : Machine) (path : Path) (fault : Fault), machine.tree.Sound →
      lock.unlock.run (Machine.answer pair.supply noPrograms) machine =
        (.error (.io .removeReleased path fault), after) →
      (lock.isLocked.run (Machine.answer pair.supply noPrograms) after).1 = .ok false) ∧
    ¬ ∀ (lock : Lock) (claimant : Claimant) (machine claimed : Machine), machine.tree.Sound →
      machine.tree.get? machine.directory = some .directory → lock.Unguessed pair.supply machine.tree →
      (∀ parent, machine.tree.get? (lock.releasedIn parent) = none) →
      (lock.tryClaim claimant).run (Machine.answer pair.supply noPrograms) machine = (.ok true, claimed) →
      (lock.unlock.run (Machine.answer pair.supply noPrograms) claimed).1.isOk = true := by
  constructor
  · intro hall
    have herror : underfootEnd.1 = .error (.io .removeReleased underfoot.releasedDir (.os 2)) := by
      decide +kernel
    have hlocked : (underfoot.isLocked.run (Machine.answer pair.supply noPrograms) underfootEnd.2).1 =
        .ok true := by decide +kernel
    have hfree := hall underfoot (.ofTree underfootTree [] ⟨0, 0⟩) underfootEnd.2 _ _
      ⟨⟨by decide, by decide⟩, by decide⟩ (by rw [← herror, Prod.mk.eta, underfootEnd])
    cases hlocked.symm.trans hfree
  · intro hall
    obtain ⟨hclaimed, hstuck⟩ : farEnd.1 = .ok true ∧
        (farAway.unlock.run (Machine.answer pair.supply noPrograms) farEnd.2).1.isOk = false := by decide +kernel
    have hdone := hall farAway (pair.claimant false) (.ofTree .empty [] ⟨0, 0⟩) farEnd.2 .empty rfl
      (Lock.unguessed_empty rfl)
      (fun parent => by cases parent <;> rfl) (by rw [← hclaimed, Prod.mk.eta, farEnd])
    exact Bool.false_ne_true (hstuck.symm.trans hdone)

end Site

end DirLock
