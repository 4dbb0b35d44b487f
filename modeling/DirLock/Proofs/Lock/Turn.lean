import DirLock.Proofs.Lock.Task
import DirLock.Proofs.Lock.Told

/-!
# What a handle does in its turn

Whatever a handle is told to do, and whatever befalls its requests, it attempts, it releases, or it only
looks. An attempt or a wait for one leaves a complete claim or has changed nothing; a release tells what has
become of the tree; and looking changes nothing.
-/

namespace DirLock

open Disk (Tree Place Path Name)
open Disk.Tree (filesView)
open Routine (Yields)

/-! ## Reports -/

/-- The outcome of the attempts that the report is about. -/
def Lock.Report.attempt? : Report → Option (Wait.Outcome LockError)
  | claimed result => some result
  | acquired result => some (Site.lastOutcome result)
  | acquiredInTime result => some result
  | guarded result => some (Site.lastOutcome result)
  | guardedInTime result => some (Site.guardOutcome result)
  | _ => none

/-- The result of the release that the report is about. -/
def Lock.Report.release? : Report → Option (Except LockError Unit)
  | unlocked result => some result
  | released _ result => some result
  | _ => none

/-- What a task does, as its report tells it. What becomes of the release by a guard that goes away is not
reported. -/
inductive Lock.Did (lock : Lock) (claimant : Claimant) (before after : Machine) (report : Report) : Prop
  | attempted {outcome : Wait.Outcome LockError} : report.attempt? = some outcome → report.release? = none →
    lock.AllOrNothing claimant before after outcome → Did lock claimant before after report
  | released {result : Except LockError Unit} : report.attempt? = none →
    (report.release? = some result ∨ report.release? = none) → after.directory = before.directory →
    lock.Told before after result → Did lock claimant before after report
  | looked : report.attempt? = none → report.release? = none → after.IsAt before.directory before.tree →
    Did lock claimant before after report

/-- Requests may fail, but an attempt can remove what it has staged, and a release can read the held
marker. -/
def Lock.Task.Bears (mishaps : Mishaps) : Task → Prop
  | .once .isHeld | .once .isLocked | .once .holder => True
  | .once .unlock | .once (.release _) | .once (.drop _) => ∀ n path, mishaps n (.readFile path) = none
  | _ => mishaps.SpareCleanup

variable {supply : Supply} {programs : Machine.Programs} {mishaps : Mishaps} {α : Type} {trial : Trial}
  {lock : Lock} {claimant : Claimant} {before : Machine}

/-! ## Attempting -/

theorem filesView_ne_link (files : List (Name × List UInt8)) (rest : List Name) (target : Path) :
    filesView files rest ≠ some (.link target) := by
  intro h
  rcases rest with _ | ⟨name, _ | ⟨next, rest⟩⟩
  · cases h
  · rw [filesView] at h
    cases hlookup : files.lookup name <;> rw [hlookup] at h <;> cases h
  · cases h

theorem Draft.get?_link {ground : Tree} {cwd dir : Place} {path : Path} {name : Name}
    {files : List (Name × List UInt8)} {machine : Machine} (h : Draft ground cwd path dir name files machine)
    {q : Place} {target : Path} (hget : machine.tree.get? q = some (.link target)) :
    ground.get? q = some (.link target) := by
  rw [← h.changes q, hget]
  rintro ⟨rest, rfl⟩
  rw [Tree.get?_append_of_below h.below] at hget
  exact filesView_ne_link _ _ _ hget

theorem Lock.AllOrNothing.congr {machine after : Machine} {outcome : Wait.Outcome LockError}
    (h : lock.AllOrNothing claimant before machine outcome) (hdirectory : after.directory = machine.directory)
    (htree : after.tree = machine.tree) : lock.AllOrNothing claimant before after outcome := by
  cases h with
  | all parent now hclaimed => exact .all parent now (hclaimed.congr hdirectory htree)
  | nothing hne hat => exact .nothing hne (hat.congr hdirectory htree)

theorem Lock.AllOrNothing.after_lost {machine after : Machine} {outcome : Wait.Outcome LockError}
    (h : lock.AllOrNothing claimant machine after outcome) (hat : machine.IsAt before.directory before.tree) :
    lock.AllOrNothing claimant before after outcome := by
  cases h with
  | all parent now hclaimed =>
    rw [hat.tree, hat.directory] at hclaimed
    exact .all parent now hclaimed
  | nothing hne hat' => exact .nothing hne ⟨hat'.directory.trans hat.directory, hat'.tree.trans hat.tree⟩

theorem Lock.AllOrNothing.isAt {machine : Machine} (h : lock.AllOrNothing claimant before machine (.ok false)) :
    machine.IsAt before.directory before.tree := by
  cases h with
  | nothing _ hat => exact hat

/-- A wait ends as its last attempt does, whatever befalls its requests. -/
theorem persists_allOrNothing (hspare : mishaps.SpareCleanup) (hsound : before.tree.Sound)
    (hcwd : before.tree.get? before.directory = some .directory) (hsuffix : ∀ n, IsSuffix (supply.suffix n))
    (hunguessed : lock.Unguessed supply before.tree) :
    lock.Persists claimant (Trial.answer supply programs mishaps)
      fun outcome trial => lock.AllOrNothing claimant before trial.machine outcome where
  attempt {trial} hlost := by
    have hat := hlost.isAt
    refine (yields_tryClaim_trial hspare (hat.tree ▸ hsound) ?_ hsuffix (hat.tree ▸ hunguessed)).mono
      fun outcome after hended => hended.after_lost hat
    rw [hat.tree, hat.directory]
    exact hcwd
  pause nanos hended := by
    rw [Trial.answer_of_sure fun _ => rfl]
    exact hended.congr rfl rfl
  note event hended := by
    rw [Trial.answer_of_sure fun _ => rfl]
    exact hended.congr rfl rfl
  passes nanos trial := by
    rw [Trial.answer_of_sure fun _ => rfl]
    exact Nat.le_refl nanos

/-! ## Looking -/

def Request.Looks : Request → Prop
  | .entryKind _ => True
  | .readFile _ => True
  | _ => False

theorem yields_looks {routine : Routine α} (huses : routine.Uses Request.Looks) :
    Yields (Trial.answer supply programs mishaps) routine trial
      fun _ after => after.machine = trial.machine := by
  have hstep : ∀ r (after : Trial), r.Looks → after.machine = trial.machine →
      (Trial.answer supply programs mishaps r after).2.machine = trial.machine := by
    intro r after hlooks hsame
    rw [← hsame]
    cases r with
    | entryKind path => exact Trial.machine_answer rfl fun mishap => by cases mishap <;> rfl
    | readFile path => exact Trial.machine_answer rfl fun mishap => by cases mishap <;> rfl
    | _ => exact hlooks.elim
  exact huses.run_induction hstep rfl

theorem uses_isHeld_looks (lock : Lock) : lock.isHeld.Uses Request.Looks := by
  refine Routine.uses_request_bind trivial fun reply => ?_
  rcases reply with fault | content <;> trivial

theorem uses_isLocked_looks (lock : Lock) : lock.isLocked.Uses Request.Looks := by
  refine Routine.uses_request_bind trivial fun reply => ?_
  rcases reply with fault | kind
  · dsimp only
    split_ifs <;> trivial
  · trivial

theorem uses_holder_looks (lock : Lock) : lock.holder?.Uses Request.Looks :=
  Routine.uses_request_bind trivial fun _ => trivial

/-! ## Releasing -/

section Release

variable (hread : ∀ n path, mishaps n (.readFile path) = none) (hsound : trial.machine.tree.Sound)
  (hbypass : lock.Bypasses trial.machine)
include hread hsound hbypass

theorem yields_release_trial (spent : Bool) :
    Yields (Trial.answer supply programs mishaps) (Guard.mk lock spent).release trial fun result after =>
      after.machine.directory = trial.machine.directory ∧ lock.Told trial.machine after.machine result.2 :=
  (yields_unlock_trial hread hsound hbypass).bind fun _ _ htold => htold

theorem yields_drop_trial (spent : Bool) :
    Yields (Trial.answer supply programs mishaps) (Guard.mk lock spent).drop trial fun _ after =>
      after.machine.IsAt trial.machine.directory trial.machine.tree ∨
        after.machine.directory = trial.machine.directory ∧
          ∃ result, lock.Told trial.machine after.machine result := by
  rw [Guard.drop]
  split_ifs
  · exact .inl ⟨rfl, rfl⟩
  · refine (yields_isHeld_trial hread).bind ?_
    rintro held ⟨machine, made⟩ ⟨heq, -⟩
    obtain rfl : machine = trial.machine := heq
    cases held with
    | false => exact .inl ⟨rfl, rfl⟩
    | true =>
      let looked : Trial := ⟨trial.machine, made⟩
      have hsound : looked.machine.tree.Sound := hsound
      refine (yields_unlock_trial hread hsound hbypass).bind ?_
      rintro result after ⟨hdirectory, htold⟩
      cases result with
      | ok _ => exact .inr ⟨hdirectory, .ok (), htold⟩
      | error error =>
        refine yields_of_sure (fun _ => rfl) ?_
        exact .inr ⟨hdirectory, .error error, htold.congr rfl rfl⟩

end Release

/-! ## Any task -/

/-- The handle can do its work in this state of the machine: attempts are made in a directory and do not hit
on names that somebody has guessed, and a release does not pull a link away on which its own way rests. -/
structure Lock.Works (lock : Lock) (supply : Supply) (machine : Machine) : Prop where
  sound : machine.tree.Sound
  directory : machine.tree.get? machine.directory = some .directory
  unguessed : lock.Unguessed supply machine.tree
  bypasses : lock.Bypasses machine

theorem yields_task_trial (hsuffix : ∀ n, IsSuffix (supply.suffix n)) (hdelay : 0 < lock.pauseNanos)
    (hworks : lock.Works supply trial.machine) {task : Lock.Task} (hbears : task.Bears mishaps) :
    Yields (Trial.answer supply programs mishaps) (task.routine lock claimant) trial
      fun report after => lock.Did claimant trial.machine after.machine report := by
  have hpersists : mishaps.SpareCleanup → _ := fun hspare => @persists_allOrNothing supply programs mishaps lock
    claimant _ hspare hworks.sound hworks.directory hsuffix hworks.unguessed
  have hstart : lock.AllOrNothing claimant trial.machine trial.machine (.ok false) :=
    .start _ _ _
  cases task with
  | once operation =>
    cases operation with
    | tryClaim =>
      exact ((hpersists hbears).attempt hstart).bind fun _ _ hended => .attempted rfl rfl hended
    | isHeld =>
      exact (yields_looks (uses_isHeld_looks lock)).bind
        fun _ _ heq => .looked rfl rfl ⟨congrArg _ heq, congrArg _ heq⟩
    | isLocked =>
      exact (yields_looks (uses_isLocked_looks lock)).bind
        fun _ _ heq => .looked rfl rfl ⟨congrArg _ heq, congrArg _ heq⟩
    | holder =>
      exact (yields_looks (uses_holder_looks lock)).bind
        fun _ _ heq => .looked rfl rfl ⟨congrArg _ heq, congrArg _ heq⟩
    | unlock =>
      exact (yields_unlock_trial hbears hworks.sound hworks.bypasses).bind
        fun _ _ hended => .released rfl (.inl rfl) hended.1 hended.2
    | release spent =>
      exact (yields_release_trial hbears hworks.sound hworks.bypasses spent).bind
        fun _ _ hended => .released rfl (.inl rfl) hended.1 hended.2
    | drop spent =>
      refine (yields_drop_trial hbears hworks.sound hworks.bypasses spent).bind fun _ _ hended => ?_
      rcases hended with hat | ⟨hdirectory, result, htold⟩
      · exact .looked rfl rfl hat
      · exact .released rfl (.inr rfl) hdirectory htold
  | acquire tries =>
    exact (yields_acquire (hpersists hbears) hstart tries).bind fun _ _ hended => .attempted rfl rfl hended
  | tryAcquire limit =>
    exact (yields_tryAcquire (hpersists hbears) hdelay hstart).bind fun _ _ hended => .attempted rfl rfl hended
  | hold tries =>
    exact (yields_hold (hpersists hbears) hstart tries).bind
      fun _ _ hended => .attempted rfl rfl hended.1
  | tryHold limit =>
    exact (yields_tryHold (hpersists hbears) hdelay hstart).bind
      fun _ _ hended => .attempted rfl rfl hended.1

end DirLock
