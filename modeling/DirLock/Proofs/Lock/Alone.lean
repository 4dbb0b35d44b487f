import DirLock.Proofs.Lock.Draft
import DirLock.Proofs.Lock.Persist

/-!
# Acquiring alone

How attempts and waits end that nobody interrupts, from whatever tree they start: with a claim of the
handle where nothing stood before, with a tree that is as it was because the lock is taken, or with a
failure. In no case is anything lost that stood in the tree.
-/

namespace DirLock

open Disk (Tree Place Path Name Entry Fault)
open Disk.Tree (filesView noView ChangesOn Within Names Fits Plot LeadsTo)
open Routine (Yields yields_request)

/-- The place of the claim, for a machine that works in some directory. -/
def Lock.claimPlace? (lock : Lock) (machine : Machine) : Option Place :=
  match machine.tree.seekParent machine.directory lock.claimDir with
  | .ok (dir, .name name) => some (dir ++ [name])
  | _ => none

theorem Lock.claimPlace?_congr {lock : Lock} {machine after : Machine} (htree : after.tree = machine.tree)
    (hdirectory : after.directory = machine.directory) :
    lock.claimPlace? after = lock.claimPlace? machine := by
  rw [Lock.claimPlace?, Lock.claimPlace?, htree, hdirectory]

/-- At the claim's place stands a directory, and the held marker in it is the handle's nonce. -/
structure Lock.Carries (lock : Lock) (machine : Machine) (place : Place) : Prop where
  place_eq : lock.claimPlace? machine = some place
  directory : machine.tree.get? place = some .directory
  held : machine.tree.get? (place ++ [heldBytes]) = some (.file lock.nonce.bytes)

/-- How an attempt ends that nobody interrupts. -/
inductive Lock.Tried (lock : Lock) (cwd : Place) (ground : Tree) (machine : Machine) :
    Except LockError Bool → Prop
  | claimed {place : Place} : machine.Keeps cwd ground → lock.Carries machine place →
    Tried lock cwd ground machine (.ok true)
  | taken : machine.IsAt cwd ground → Tried lock cwd ground machine (.ok false)
  | failed (error : LockError) : machine.IsAt cwd ground → Tried lock cwd ground machine (.error error)

variable {supply : Supply} {programs : Machine.Programs} {lock : Lock} {claimant : Claimant}
  {ground : Tree} {cwd parent : Place} {machine : Machine}

theorem Machine.IsAt.congr {after : Machine} (h : machine.IsAt cwd ground)
    (hdirectory : after.directory = machine.directory) (htree : after.tree = machine.tree) :
    after.IsAt cwd ground := ⟨hdirectory.trans h.directory, htree.trans h.tree⟩

theorem carries_of_draft {now : Time.Instant}
    (h : Draft ground cwd lock.claimDir parent lock.name.bytes (lock.claimFiles claimant now) machine) :
    lock.Carries machine (parent ++ [lock.name.bytes]) := by
  refine ⟨?_, Tree.get?_of_below h.below, ?_⟩
  · rw [Lock.claimPlace?, h.names_now.seekParent_eq, h.fits.check]
    rfl
  · exact (Tree.get?_append_of_below h.below [heldBytes]).trans (by simp [filesView, Lock.claimFiles])

section Attempt

variable (hparent : ground.LeadsTo cwd lock.parent parent)
include hparent

theorem names_claimDir : ground.Names cwd lock.claimDir parent lock.name.bytes := by
  rw [Lock.claimDir_eq]
  exact hparent.names_join lock.name.isName

theorem yields_isLocked (hat : machine.IsAt cwd ground) :
    Yields (Machine.answer supply programs) lock.isLocked machine fun result after =>
      after.IsAt cwd ground ∧ (result = .ok false →
        Fits lock.claimDir lock.name.bytes ∧ ground.get? (parent ++ [lock.name.bytes]) = none) := by
  have hnames := names_claimDir hparent
  cases hkind : machine.tree.entryKind machine.directory lock.claimDir with
  | ok kind =>
    refine yields_of_answer (congrArg (·, machine) hkind) ?_
    exact ⟨hat, fun h => by cases h⟩
  | error fault =>
    refine yields_of_answer (congrArg (·, machine) hkind) ?_
    rw [hat.tree, hat.directory] at hkind
    dsimp only
    split_ifs with hnotFound
    · exact ⟨hat, fun _ => hnames.entryKind_eq_notFound
        (Path.bytes_join_ne_nil lock.name.isName lock.parent) hkind hnotFound⟩
    · exact ⟨hat, fun h => by cases h⟩

theorem yields_putInPlace (hdirectory : ground.get? parent = some .directory) {path : Path} {dir : Place}
    {suffix : List Char} {now : Time.Instant} (hsuffix : IsSuffix suffix) (hfit : Fits lock.claimDir lock.name.bytes)
    (hfree : ground.get? (parent ++ [lock.name.bytes]) = none)
    (h : Draft ground cwd path dir (lock.nonce.stagingName suffix) (lock.claimFiles claimant now) machine) :
    Yields (Machine.answer supply programs) (lock.putInPlace path) machine
      fun result after => result = .ok true ∧
        Draft ground cwd lock.claimDir parent lock.name.bytes (lock.claimFiles claimant now) after := by
  have hne : dir ++ [lock.nonce.stagingName suffix] ≠ parent ++ [lock.name.bytes] := fun heq =>
    lock.name.bytes_ne_stagingName lock.nonce hsuffix (List.cons.inj (List.append_inj' heq rfl).2).1.symm
  obtain ⟨hrename, hmoved⟩ := h.moveTo (names_claimDir hparent) hfit hdirectory hfree hne
  refine yields_of_answer (change_ok hrename) ?_
  exact ⟨rfl, hmoved.congr rfl rfl⟩

theorem yields_tryClaim (hground : ground.Sound) (hcwd : ground.get? cwd = some .directory)
    (hsuffix : ∀ n, IsSuffix (supply.suffix n)) (hat : machine.IsAt cwd ground) :
    Yields (Machine.answer supply programs) (lock.tryClaim claimant) machine
      fun result after => lock.Tried cwd ground after result := by
  have hdirectory : ground.get? parent = some .directory :=
    (names_claimDir hparent).get?_dir hground (Tree.get?_start hcwd _)
  refine (yields_isLocked hparent hat).bind ?_
  rintro result after ⟨hat, hfree⟩
  rcases result with error | (_ | _)
  · exact .failed error hat
  · obtain ⟨hfit, hfree⟩ := hfree rfl
    refine (Draft.yields_stage hsuffix hground lock claimant hat).bind ?_
    rintro result after (⟨path, dir, suffix, now, rfl, hs, hdraft⟩ | ⟨error, rfl, hat⟩)
    · refine (yields_putInPlace hparent hdirectory hs hfit hfree hdraft).mono ?_
      rintro result after ⟨rfl, hclaimed⟩
      exact .claimed hclaimed.keeps (carries_of_draft hclaimed)
    · exact .failed error hat
  · exact .taken ⟨hat.directory, hat.tree⟩

end Attempt

/-! ## Attempting again and again -/

section Wait

variable {outcome : Wait.Outcome LockError}

theorem Lock.Tried.isAt (h : lock.Tried cwd ground machine (.ok false)) : machine.IsAt cwd ground := by
  cases h with
  | taken hat => exact hat

theorem Lock.Tried.carries (h : lock.Tried cwd ground machine (.ok true)) :
    ∃ place, lock.Carries machine place := by
  cases h with
  | claimed _ hcarries => exact ⟨_, hcarries⟩

theorem Lock.Tried.keeps (h : lock.Tried cwd ground machine outcome) (hground : ground.Sound) :
    machine.Keeps cwd ground := by
  cases h with
  | claimed h => exact h
  | taken hat => exact hat.keeps hground
  | failed error hat => exact hat.keeps hground

theorem Lock.Tried.congr (h : lock.Tried cwd ground machine outcome) {after : Machine}
    (hdirectory : after.directory = machine.directory) (htree : after.tree = machine.tree) :
    lock.Tried cwd ground after outcome := by
  have hkeeps : machine.Keeps cwd ground → after.Keeps cwd ground := fun hkeeps =>
    ⟨hdirectory.trans hkeeps.directory, htree ▸ hkeeps.sound, htree ▸ hkeeps.within⟩
  cases h with
  | claimed h hcarries =>
    exact .claimed (hkeeps h) ⟨(Lock.claimPlace?_congr htree hdirectory).trans hcarries.place_eq,
      htree ▸ hcarries.directory, htree ▸ hcarries.held⟩
  | taken hat => exact .taken (hat.congr hdirectory htree)
  | failed error hat => exact .failed error (hat.congr hdirectory htree)

theorem persists_tried (hsuffix : ∀ n, IsSuffix (supply.suffix n)) (hground : ground.Sound)
    (hcwd : ground.get? cwd = some .directory) (hparent : ground.LeadsTo cwd lock.parent parent) :
    lock.Persists claimant (Machine.answer supply programs)
      fun outcome machine => lock.Tried cwd ground machine outcome where
  attempt htried := yields_tryClaim hparent hground hcwd hsuffix htried.isAt
  pause _ htried := htried.congr rfl rfl
  note _ htried := htried.congr rfl rfl
  passes nanos _ := Nat.le_refl nanos

end Wait

end DirLock
