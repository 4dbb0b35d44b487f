import DirLock.Lock.Guard
import DirLock.Proofs.Lock.Alone

/-!
# Releasing alone

How a release ends that nobody interrupts, whatever the tree has become since the lock was acquired. A
claim that does not carry the handle's nonce is left alone, as is one that cannot be moved aside; one that
is moved aside leaves nothing at the claim's place.
-/

namespace DirLock

open Disk (Tree Place Path Name Entry Fault)
open Routine (Yields)

variable {supply : Supply} {programs : Machine.Programs} {lock : Lock} {machine : Machine}

/-! ## Trees that are only in order -/

theorem Machine.change_edit {result : Except Fault Tree}
    (h : ∀ tree, result = .ok tree → machine.tree.Edit tree) :
    machine.tree.Edit (machine.change result).2.tree := by
  cases hresult : result with
  | ok tree => exact h tree hresult
  | error fault => exact .none

theorem Machine.answerPlain_remove (supply : Supply) (step : Tree.Removal) (machine : Machine) :
    Machine.answerPlain supply (.remove step) machine =
      machine.change (machine.tree.remove machine.directory step) := by
  cases step <;> rfl

theorem Machine.answer_remove (supply : Supply) (programs : Machine.Programs) (step : Tree.Removal)
    (machine : Machine) : Machine.answer supply programs (.remove step) machine =
      machine.change (machine.tree.remove machine.directory step) :=
  answerPlain_remove supply step machine

theorem Machine.answerPlain_edit (supply : Supply) (r : Request) (machine : Machine) :
    machine.tree.Edit (Machine.answerPlain supply r machine).2.tree := by
  cases r with
  | makeDirectory path =>
    refine change_edit fun tree hok => ?_
    obtain ⟨dir, name, -, -, -, rfl⟩ := Tree.makeDirectory_eq_ok hok
    exact .put _ (by simp)
  | writeFile path content =>
    refine change_edit fun tree hok => ?_
    obtain ⟨place, hne, rfl⟩ := Tree.writeFile_eq_ok hok
    exact .put _ hne
  | makeLink target path =>
    refine change_edit fun tree hok => ?_
    obtain ⟨place, hne, rfl⟩ := Tree.makeLink_eq_ok hok
    exact .put _ hne
  | rename source target =>
    refine change_edit fun tree hok => ?_
    obtain ⟨_, _, _, _, -, -, ⟨-, rfl⟩ | ⟨-, -, -, -, rfl⟩⟩ := Tree.rename_eq_ok hok
    · exact .none
    · exact .move _ (by simp)
  | remove step =>
    rw [answerPlain_remove]
    refine change_edit fun tree hok => ?_
    obtain ⟨place, -, -, rfl⟩ := Tree.remove_eq_ok hok
    exact .remove place
  | unlink path =>
    refine change_edit fun tree hok => ?_
    obtain ⟨dir, name, -, -, rfl⟩ := Tree.unlink_eq_ok hok
    exact .remove (dir ++ [name])
  | _ => exact .none

/-- Whatever is asked, a program that is run included, the tree stays in order. -/
theorem Machine.ordered_answer (supply : Supply) (programs : Machine.Programs) (r : Request)
    (h : machine.tree.Ordered) : (Machine.answer supply programs r machine).2.tree.Ordered := by
  have hplain : ∀ r (machine : Machine), machine.tree.Ordered →
      (Machine.answerPlain supply r machine).2.tree.Ordered := fun r machine h =>
    h.edit (answerPlain_edit supply r machine)
  cases r with
  | runProgram program arguments =>
    exact Routine.run_induction hplain (programs program arguments) h
  | _ => exact hplain _ _ h

theorem Machine.change_directory (result : Except Fault Tree) :
    (machine.change result).2.directory = machine.directory := by
  cases result <;> rfl

theorem Machine.directory_answer (supply : Supply) (programs : Machine.Programs) (r : Request)
    (machine : Machine) : (Machine.answer supply programs r machine).2.directory = machine.directory := by
  have hplain : ∀ r (machine : Machine),
      (Machine.answerPlain supply r machine).2.directory = machine.directory := by
    intro r machine
    cases r with
    | remove step =>
      rw [answerPlain_remove]
      exact change_directory _
    | makeDirectory => exact change_directory _
    | writeFile => exact change_directory _
    | makeLink => exact change_directory _
    | rename => exact change_directory _
    | unlink => exact change_directory _
    | _ => rfl
  cases r with
  | runProgram program arguments =>
    have hstep : ∀ r (state : Machine), state.directory = machine.directory →
        (Machine.answerPlain supply r state).2.directory = machine.directory :=
      fun r state h => (hplain r state).trans h
    exact Routine.run_induction hstep (programs program arguments) rfl
  | _ => exact hplain _ _

theorem Machine.directory_run {α : Type} (supply : Supply) (programs : Machine.Programs)
    (routine : Routine α) (machine : Machine) :
    (routine.run (Machine.answer supply programs) machine).2.directory = machine.directory := by
  have hstep : ∀ r (state : Machine), state.directory = machine.directory →
      (Machine.answer supply programs r state).2.directory = machine.directory :=
    fun r state h => (directory_answer supply programs r state).trans h
  exact Routine.run_induction hstep routine rfl

/-! ## Removing -/

theorem answer_remove_cases (step : Tree.Removal) :
    (∃ place, Machine.answer supply programs (.remove step) machine =
        (.ok (), { machine with tree := machine.tree.erase place })) ∨
      ∃ fault, Machine.answer supply programs (.remove step) machine = (.error fault, machine) := by
  rw [Machine.answer_remove]
  cases hresult : machine.tree.remove machine.directory step with
  | ok tree =>
    obtain ⟨place, -, -, rfl⟩ := Tree.remove_eq_ok hresult
    exact .inl ⟨place, rfl⟩
  | error fault => exact .inr ⟨fault, rfl⟩

theorem yields_removeEach (steps : List Tree.Removal) :
    Yields (Machine.answer supply programs) (Routine.removeEach steps) machine
      fun _ after => ∀ q, machine.tree.get? q = none → after.tree.get? q = none := by
  induction steps generalizing machine with
  | nil => exact fun _ h => h
  | cons step steps ih =>
    rw [Routine.removeEach]
    rcases answer_remove_cases step with ⟨place, hanswer⟩ | ⟨fault, hanswer⟩
    · refine yields_of_answer hanswer (ih.mono fun _ after hgone q hq => hgone q ?_)
      have hne : q ≠ [] := by
        rintro rfl
        cases hq
      show (machine.tree.erase place).get? q = none
      rw [Tree.get?_erase _ hne]
      split_ifs
      · rfl
      · exact hq
    · exact yields_of_answer hanswer fun _ h => h

theorem yields_removeTree (path : Path) :
    Yields (Machine.answer supply programs) (Routine.removeTree path) machine
      fun _ after => ∀ q, machine.tree.get? q = none → after.tree.get? q = none := by
  cases hremovals : machine.tree.removals machine.directory path with
  | error fault => exact yields_of_answer (congrArg (·, machine) hremovals) fun _ h => h
  | ok steps => exact yields_of_answer (congrArg (·, machine) hremovals) (yields_removeEach steps)

/-! ## Releasing -/

/-- The handle finds its own nonce in the held marker. -/
def Lock.IsHeldAt (lock : Lock) (machine : Machine) : Prop :=
  machine.tree.readFile machine.directory lock.heldFile = .ok lock.nonce.bytes

theorem Lock.isHeldAt_congr {after : Machine} (htree : after.tree = machine.tree)
    (hdirectory : after.directory = machine.directory) :
    lock.IsHeldAt after ↔ lock.IsHeldAt machine := by
  rw [Lock.IsHeldAt, Lock.IsHeldAt, htree, hdirectory]

theorem yields_isHeld :
    Yields (Machine.answer supply programs) lock.isHeld machine
      fun held after => after = machine ∧ (held = true ↔ lock.IsHeldAt machine) := by
  unfold Lock.IsHeldAt
  cases hread : machine.tree.readFile machine.directory lock.heldFile with
  | ok content =>
    refine yields_of_answer (congrArg (·, machine) hread) ?_
    exact ⟨rfl, decide_eq_true_iff.trans ⟨congrArg Except.ok, Except.ok.inj⟩⟩
  | error fault =>
    refine yields_of_answer (congrArg (·, machine) hread) ?_
    exact ⟨rfl, Bool.noConfusion, fun h => by cases h⟩

/-- How a release ends that nobody interrupts. -/
inductive Lock.Frees (lock : Lock) (before after : Machine) : Except LockError Unit → Prop
  /-- The claim does not carry the handle's nonce. It is left alone. -/
  | notHeld : ¬ lock.IsHeldAt before → after.tree = before.tree →
    Frees lock before after (.error (.notHeld lock.name.text))
  /-- The claim cannot be moved aside. It is left as it is. -/
  | stuck {fault : Fault} : lock.IsHeldAt before →
    before.tree.rename before.directory lock.claimDir lock.releasedDir = .error fault →
    after.tree = before.tree → Frees lock before after (.error (.io .releaseClaim lock.claimDir fault))
  /-- The claim is moved aside, so that nothing is left at its place, and is then deleted. -/
  | moved {place : Place} {result : Except LockError Unit} : lock.IsHeldAt before →
    lock.claimPlace? before = some place → (∀ rest, after.tree.get? (place ++ rest) = none) →
    (result = .ok () ∨ ∃ fault, result = .error (.io .removeReleased lock.releasedDir fault)) →
    Frees lock before after result

theorem get?_of_moved (hordered : machine.tree.Ordered) {tree : Tree}
    (hrename : machine.tree.rename machine.directory lock.claimDir lock.releasedDir = .ok tree) :
    ∃ place, lock.claimPlace? machine = some place ∧ ∀ rest, tree.get? (place ++ rest) = none := by
  obtain ⟨dir, name, dir', name', hclaim, hreleased, hmoved⟩ := Tree.rename_eq_ok hrename
  refine ⟨dir ++ [name], by rw [Lock.claimPlace?, hclaim], fun rest => ?_⟩
  have hname : name = lock.name.bytes := by
    rw [Lock.claimDir_eq] at hclaim
    exact Disk.LastName.name.inj (Tree.names_of_seekParent lock.name.isName hclaim).1
  have hname' : name' = lock.nonce.releasedName := by
    rw [Lock.releasedDir_eq] at hreleased
    exact Disk.LastName.name.inj (Tree.names_of_seekParent lock.nonce.isName_releasedName hreleased).1
  have hne : dir ++ [name] ≠ dir' ++ [name'] := by
    intro heq
    rw [hname, hname'] at heq
    exact lock.name.bytes_ne_releasedName lock.nonce (List.cons.inj (List.append_inj' heq rfl).2).1
  rcases hmoved with ⟨heq, -⟩ | ⟨hin, hout, -, -, rfl⟩
  · exact absurd heq hne
  rw [hordered.get?_move (by simp) (by simp), if_neg, if_pos (List.prefix_append _ _)]
  -- The two places do not overlap: their names differ, and nothing is moved into itself.
  intro hpre
  have hup : ∀ {p : Place} {d : Place} {n : Name}, p <+: d ++ [n] → p ≠ d ++ [n] → p <+: d := by
    intro p d n hp hpne
    have := Tree.prefix_dropLast hp hpne
    rwa [List.dropLast_concat] at this
  rcases List.prefix_or_prefix_of_prefix hpre (List.prefix_append (dir ++ [name]) rest) with hp | hp
  · exact hout (hup hp (Ne.symm hne))
  · exact hin (hup hp hne)

theorem yields_unlock (hordered : machine.tree.Ordered) :
    Yields (Machine.answer supply programs) lock.unlock machine
      fun result after => lock.Frees machine after result := by
  refine yields_isHeld.bind ?_
  rintro held after ⟨hafter, hiff⟩
  rw [hafter]
  cases held with
  | false => exact .notHeld (fun h => Bool.noConfusion (hiff.2 h)) rfl
  | true =>
    have hown := hiff.1 rfl
    cases hrename : machine.tree.rename machine.directory lock.claimDir lock.releasedDir with
    | error fault =>
      refine yields_of_answer (change_error hrename) ?_
      exact .stuck hown hrename rfl
    | ok tree =>
      refine yields_of_answer (change_ok hrename) ?_
      obtain ⟨place, hplace, hgone⟩ := get?_of_moved hordered hrename
      let told := ({ machine with tree := tree } : Machine).write
        (.event machine.clock (.released lock.name.text))
      have htold : Machine.answer supply programs (.note (.released lock.name.text))
          { machine with tree := tree } = ((), told) := rfl
      refine yields_of_answer htold ?_
      refine (yields_removeTree lock.releasedDir).bind fun result after hkept => ?_
      have hgone' : ∀ rest, after.tree.get? (place ++ rest) = none := fun rest => hkept _ (hgone rest)
      rcases result with fault | _
      · exact .moved hown hplace hgone' (.inr ⟨fault, rfl⟩)
      · exact .moved hown hplace hgone' (.inl rfl)

/-- A claim that is moved aside is not the handle's any more, unless moving it has made the path of the
claim lead elsewhere. -/
theorem Lock.Frees.stuck_of_isHeldAt {before after : Machine} {result : Except LockError Unit}
    (h : lock.Frees before after result) (hdirectory : after.directory = before.directory)
    (hplace : lock.claimPlace? after = lock.claimPlace? before) (hheld : lock.IsHeldAt after) :
    ∃ fault, result = .error (.io .releaseClaim lock.claimDir fault) := by
  cases h with
  | notHeld hnot htree =>
    exact absurd ((Lock.isHeldAt_congr htree hdirectory).1 hheld) hnot
  | stuck => exact ⟨_, rfl⟩
  | @moved place _ _ hbefore hgone _ =>
    rw [hbefore, Lock.claimPlace?] at hplace
    split at hplace
    · rename_i dir name hseek
      obtain rfl := Option.some.inj hplace
      rw [Lock.claimDir_eq] at hseek
      obtain ⟨hlast, -, hnames⟩ := Tree.names_of_seekParent lock.name.isName hseek
      obtain rfl := Disk.LastName.name.inj hlast
      obtain ⟨fault, hread⟩ := hnames.readFile_join_of_none
        ((congrArg after.tree.get? (List.append_nil _)).symm.trans (hgone [])) isName_heldBytes
      exact absurd (hread.symm.trans hheld) (by simp)
    · cases hplace

theorem Lock.Frees.tree_eq_of_not_isHeldAt {before after : Machine} {result : Except LockError Unit}
    (h : lock.Frees before after result) (hnot : ¬ lock.IsHeldAt before) : after.tree = before.tree := by
  cases h with
  | notHeld _ htree => exact htree
  | stuck hheld => exact absurd hheld hnot
  | moved hheld => exact absurd hheld hnot

theorem Lock.Frees.exitStatus_error {before after : Machine} {error : LockError}
    (h : lock.Frees before after (.error error)) :
    error.exitStatus = ExitStatus.userError ∧ ¬ lock.IsHeldAt before ∨
      error.exitStatus = ExitStatus.ioFailure ∧ lock.IsHeldAt before := by
  cases h with
  | notHeld hnot => exact .inl ⟨rfl, hnot⟩
  | stuck hheld => exact .inr ⟨rfl, hheld⟩
  | moved hheld _ _ hresult =>
    rcases hresult with hok | ⟨fault, herror⟩
    · cases hok
    · obtain rfl := Except.error.inj herror
      exact .inr ⟨rfl, hheld⟩

end DirLock
