import DirLock.Proofs.Lock.Freed
import DirLock.Proofs.Routine.Respect

/-!
# Releasing side by side

One handle releases its lock on two machines. If the claim is the handle's on both or on neither, and may be
moved aside on both or on neither, the releases say the same. Where it is moved aside nothing is left of it,
neither at the claim's place nor where it was moved to.
-/

namespace DirLock

open Disk (Tree Place Path Name Entry Fault)
open Disk.Tree (Names Fits)
open Routine (Agree Yields agree_pure agree_request agree_of_yields)

namespace Lock

/-- The place of the lock's claim in the parent directory. -/
def claimIn (lock : Lock) (parent : Place) : Place := parent ++ [lock.name.bytes]

/-- The place in the parent directory to which the handle moves its claim to delete it. -/
def releasedIn (lock : Lock) (parent : Place) : Place := parent ++ [lock.nonce.releasedName]

variable (lock : Lock) (parent : Place)

theorem not_claimIn_prefix : ¬ lock.claimIn parent <+: parent := fun hpre => by
  have := hpre.length_le
  simp [claimIn] at this

theorem not_releasedIn_prefix : ¬ lock.releasedIn parent <+: parent := fun hpre => by
  have := hpre.length_le
  simp [releasedIn] at this

theorem claimIn_ne_releasedIn (other : Lock) : lock.claimIn parent ≠ other.releasedIn parent := fun heq =>
  lock.name.bytes_ne_releasedName other.nonce (List.cons.inj (List.append_cancel_left heq)).1

theorem releasedIn_ne_nil : lock.releasedIn parent ≠ [] := by
  simp [releasedIn]

theorem claimIn_ne_nil : lock.claimIn parent ≠ [] := by
  simp [claimIn]

theorem not_claimIn_prefix_aside (rest : List Name) :
    ¬ lock.claimIn parent <+: lock.releasedIn parent ++ rest := fun hpre =>
  lock.name.bytes_ne_releasedName lock.nonce (Tree.eq_of_concat_prefix hpre)

theorem not_aside_prefix_claimIn (rest : List Name) :
    ¬ lock.releasedIn parent <+: lock.claimIn parent ++ rest := fun hpre =>
  lock.name.bytes_ne_releasedName lock.nonce (Tree.eq_of_concat_prefix hpre).symm

/-- A release by the handle may be watched on this machine: its parent's path leads to the directory, and
goes on leading there when the claim has been moved aside. -/
structure Releases (lock : Lock) (parent : Place) (machine : Machine) : Prop where
  sound : machine.tree.Sound
  leadsTo : machine.tree.LeadsTo machine.directory lock.parent parent
  claim : lock.IsHeldAt machine → machine.tree.get? (lock.claimIn parent) = some .directory
  aside : lock.IsHeldAt machine →
    machine.tree.replaceable .directory (lock.releasedIn parent) = .ok () →
      ((machine.tree.move (lock.claimIn parent) (lock.releasedIn parent)).hollow
        (lock.releasedIn parent)).LeadsTo machine.directory lock.parent parent

end Lock

variable {supply : Supply} {programs : Machine.Programs} {lock : Lock} {parent : Place}
  {machine machine' : Machine} {tree : Tree}

theorem names_releasedDir {cwd : Place} (h : tree.LeadsTo cwd lock.parent parent) :
    tree.Names cwd lock.releasedDir parent lock.nonce.releasedName := by
  rw [Lock.releasedDir_eq]
  exact h.names_join lock.nonce.isName_releasedName

/-- A path that does not pass through the claim leads on to the parent when the claim is moved aside. -/
theorem within_hollow_move (hsound : tree.Sound)
    (hmay : tree.replaceable .directory (lock.releasedIn parent) = .ok ()) :
    (tree.prune (lock.claimIn parent)).Within
      ((tree.move (lock.claimIn parent) (lock.releasedIn parent)).hollow (lock.releasedIn parent)) := by
  have hne := lock.releasedIn_ne_nil parent
  have hne' := lock.claimIn_ne_nil parent
  intro q entry hget
  rw [Tree.get?_prune_eq hne'] at hget
  split_ifs at hget with hpre
  by_cases haside : lock.releasedIn parent <+: q
  · obtain ⟨rest, rfl⟩ := haside
    rcases Tree.replaceable_eq_ok hmay with hnone | ⟨hdirectory, hbare⟩
    · have hgone := congrFun (hsound.below_eq_none hnone) rest
      rw [Tree.below, hget] at hgone
      cases hgone
    · by_cases hrest : rest = []
      · subst hrest
        rw [List.append_nil, hdirectory] at hget
        rw [List.append_nil, Tree.get?_hollow_self hne, hget]
      · rw [hsound.get?_of_isBare hbare hrest] at hget
        cases hget
  · rw [Tree.get?_hollow hne haside, hsound.toOrdered.get?_move hne hne', if_neg haside, if_neg hpre, hget]

theorem Lock.releases_of_passes (hsound : machine.tree.Sound)
    (hleads : machine.tree.LeadsTo machine.directory lock.parent parent)
    (hclaim : lock.IsHeldAt machine → machine.tree.get? (lock.claimIn parent) = some .directory)
    (hpasses : lock.IsHeldAt machine →
      (machine.tree.prune (lock.claimIn parent)).LeadsTo machine.directory lock.parent parent) :
    lock.Releases parent machine where
  sound := hsound
  leadsTo := hleads
  claim := hclaim
  aside := fun hheld hmay => (hpasses hheld).mono (within_hollow_move hsound hmay)

theorem prune_move (h : tree.Ordered) : (tree.move (lock.claimIn parent) (lock.releasedIn parent)).prune
      (lock.releasedIn parent) = (tree.prune (lock.claimIn parent)).prune (lock.releasedIn parent) := by
  have hne := lock.releasedIn_ne_nil parent
  have hne' := lock.claimIn_ne_nil parent
  refine ((h.move hne).prune _).ext ((h.prune _).prune _) fun q => ?_
  rw [Tree.get?_prune_eq hne, Tree.get?_prune_eq hne, Tree.get?_prune_eq hne', h.get?_move hne hne']
  split_ifs <;> rfl

theorem agree_isLocked (hleads : machine.tree.LeadsTo machine.directory lock.parent parent)
    (hleads' : machine'.tree.LeadsTo machine'.directory lock.parent parent)
    (hdirectory : machine.directory = machine'.directory)
    (hget : machine.tree.get? (lock.claimIn parent) = machine'.tree.get? (lock.claimIn parent)) :
    Agree (Machine.answer supply programs) lock.isLocked machine machine' fun result after after' =>
      after = machine ∧ after' = machine' ∧ (result = .ok false →
        Fits lock.claimDir lock.name.bytes ∧ machine.tree.get? (lock.claimIn parent) = none) := by
  have hnames := names_claimDir hleads
  have hkind := hnames.entryKind_congr (hdirectory ▸ names_claimDir hleads') hget
  have hreply' : Machine.answer supply programs (.entryKind lock.claimDir) machine' =
      (machine.tree.entryKind machine.directory lock.claimDir, machine') := by
    rw [hkind, hdirectory]
    rfl
  refine agree_request rfl hreply' ?_
  cases hentry : machine.tree.entryKind machine.directory lock.claimDir with
  | ok kind => exact agree_pure ⟨rfl, rfl, fun h => by cases h⟩
  | error fault =>
    dsimp only
    split_ifs with hnotFound
    · exact agree_pure ⟨rfl, rfl, fun _ => hnames.entryKind_eq_notFound
        (Path.bytes_join_ne_nil lock.name.isName lock.parent) hentry hnotFound⟩
    · exact agree_pure ⟨rfl, rfl, fun h => by cases h⟩

theorem yields_deleteReleased (hsound : tree.Sound)
    (hclaim : tree.get? (lock.claimIn parent) = some .directory)
    (hfit : Fits lock.releasedDir lock.nonce.releasedName)
    (hway : ((tree.move (lock.claimIn parent) (lock.releasedIn parent)).hollow
      (lock.releasedIn parent)).LeadsTo machine.directory lock.parent parent)
    (hmoved : machine.tree = tree.move (lock.claimIn parent) (lock.releasedIn parent)) :
    Yields (Machine.answer supply programs) lock.deleteReleased machine fun result after =>
      result = .ok () ∧ after =
        { machine with tree := (tree.prune (lock.claimIn parent)).prune (lock.releasedIn parent) } := by
  have hne := lock.releasedIn_ne_nil parent
  have hne' := lock.claimIn_ne_nil parent
  have hparent : tree.get? parent = some .directory := by
    have hup := hsound.get?_dropLast hclaim
    rwa [Lock.claimIn, List.dropLast_concat] at hup
  have hlast : (lock.releasedIn parent).dropLast = parent := by rw [Lock.releasedIn, List.dropLast_concat]
  have hmovedSound : machine.tree.Sound := by
    rw [hmoved]
    exact hsound.move hne hne' (by rw [hlast, hparent]) (by rw [hlast]; exact lock.not_claimIn_prefix parent)
  have htop : machine.tree.get? (parent ++ [lock.nonce.releasedName]) = some .directory := by
    rw [hmoved, hsound.toOrdered.get?_move hne hne', Lock.releasedIn, if_pos (List.prefix_refl _),
      List.drop_length, List.append_nil, hclaim]
  rw [← hmoved] at hway
  refine (yields_removeTree_directory hmovedSound (names_releasedDir hway) hfit htop).bind ?_
  rintro result after ⟨rfl, rfl⟩
  refine ⟨rfl, ?_⟩
  rw [← prune_move hsound.toOrdered, ← hmoved]
  rfl

/-- The machine has this tree now, and works where it worked. Time may have passed, and something may have
been written. -/
structure Machine.Became (before : Machine) (tree : Tree) (after : Machine) : Prop where
  tree : after.tree = tree
  directory : after.directory = before.directory
  drawn : after.drawn = before.drawn

/-- How two releases end that are watched side by side. -/
inductive Lock.Vacated (lock : Lock) (parent : Place) (machine machine' after after' : Machine) : Prop
  /-- The trees are as they were. -/
  | kept : machine.Became machine.tree after → machine'.Became machine'.tree after' →
    Vacated lock parent machine machine' after after'
  /-- The claim is gone from both trees, and was not left aside. -/
  | gone : lock.IsHeldAt machine →
    machine.Became ((machine.tree.prune (lock.claimIn parent)).prune (lock.releasedIn parent)) after →
    machine'.Became ((machine'.tree.prune (lock.claimIn parent)).prune (lock.releasedIn parent)) after' →
    Vacated lock parent machine machine' after after'

theorem Machine.Became.refl (machine : Machine) : machine.Became machine.tree machine := ⟨rfl, rfl, rfl⟩

theorem Machine.Became.write {after : Machine} (h : machine.Became tree after) (output : Output) :
    machine.Became tree (after.write output) := ⟨h.tree, h.directory, h.drawn⟩

theorem Lock.Vacated.write {after after' : Machine} (h : lock.Vacated parent machine machine' after after')
    (output output' : Output) :
    lock.Vacated parent machine machine' (after.write output) (after'.write output') := by
  cases h with
  | kept hkept hkept' => exact .kept (hkept.write output) (hkept'.write output')
  | gone hheld hgone hgone' => exact .gone hheld (hgone.write output) (hgone'.write output')

section Unlock

variable (h : lock.Releases parent machine) (h' : lock.Releases parent machine')
  (hdirectory : machine.directory = machine'.directory)
  (hheld : lock.IsHeldAt machine ↔ lock.IsHeldAt machine')
include h h' hdirectory hheld

theorem agree_isHeld : Agree (Machine.answer supply programs) lock.isHeld machine machine'
    fun held after after' => after = machine ∧ after' = machine' ∧ (held = true ↔ lock.IsHeldAt machine) := by
  refine agree_of_yields yields_isHeld yields_isHeld ?_
  rintro held held' after after' ⟨rfl, hiff⟩ ⟨rfl, hiff'⟩
  exact ⟨Bool.eq_iff_iff.2 (hiff.trans (hheld.trans hiff'.symm)), rfl, rfl, hiff⟩

variable (hreplaceable : machine.tree.replaceable .directory (lock.releasedIn parent) =
  machine'.tree.replaceable .directory (lock.releasedIn parent))
include hreplaceable

theorem agree_unlock : Agree (Machine.answer supply programs) lock.unlock machine machine'
    fun _ => lock.Vacated parent machine machine' := by
  refine (agree_isHeld h h' hdirectory hheld).bind ?_
  rintro held _ _ ⟨rfl, rfl, hiff⟩
  cases held with
  | false => exact agree_pure (.kept (.refl _) (.refl _))
  | true =>
    have hown := hiff.1 rfl
    have hown' := hheld.1 hown
    have hclaim := h.claim hown
    have hclaim' := h'.claim hown'
    have hleadsTo' := h'.leadsTo
    rw [← hdirectory] at hleadsTo'
    rcases (names_claimDir h.leadsTo).rename_congr (names_releasedDir h.leadsTo) (names_claimDir hleadsTo')
        (names_releasedDir hleadsTo') hclaim hclaim' hreplaceable (lock.not_claimIn_prefix parent)
        (lock.not_releasedIn_prefix parent) (lock.claimIn_ne_releasedIn parent lock) with
      ⟨fault, hfault, hfault'⟩ | ⟨hfit, hmay, hmoved, hmoved'⟩
    · rw [hdirectory] at hfault'
      exact agree_request (change_error hfault) (change_error hfault')
        (agree_pure (.kept (.refl _) (.refl _)))
    · rw [hdirectory] at hmoved'
      refine agree_request (change_ok hmoved) (change_ok hmoved') ?_
      refine agree_request rfl rfl ?_
      refine agree_of_yields (yields_deleteReleased h.sound hclaim hfit (h.aside hown hmay) rfl)
        (yields_deleteReleased h'.sound hclaim' hfit (h'.aside hown' (hreplaceable ▸ hmay)) rfl) ?_
      rintro result result' after after' ⟨rfl, rfl⟩ ⟨rfl, rfl⟩
      exact ⟨rfl, .gone hown ⟨rfl, rfl, rfl⟩ ⟨rfl, rfl, rfl⟩⟩

theorem agree_release (spent : Bool) : Agree (Machine.answer supply programs)
    (Guard.mk lock spent).release machine machine' fun _ => lock.Vacated parent machine machine' :=
  (agree_unlock h h' hdirectory hheld hreplaceable).bind fun _ _ _ hvacated => agree_pure hvacated

theorem agree_drop (spent : Bool) : Agree (Machine.answer supply programs) (Guard.mk lock spent).drop
    machine machine' fun _ => lock.Vacated parent machine machine' := by
  rw [Guard.drop]
  split_ifs
  · exact agree_pure (.kept (.refl _) (.refl _))
  · refine (agree_isHeld h h' hdirectory hheld).bind ?_
    rintro held _ _ ⟨rfl, rfl, -⟩
    split_ifs
    · refine (agree_unlock h h' hdirectory hheld hreplaceable).bind ?_
      rintro result after after' hvacated
      rcases result with error | _
      · exact agree_request rfl rfl (agree_pure (hvacated.write _ _))
      · exact agree_pure hvacated
    · exact agree_pure (.kept (.refl _) (.refl _))

end Unlock

end DirLock
