import DirLock.Proofs.Lock.Draft

/-!
# Mishaps

A request can fail for a reason that is not in the tree: the disk is full or broken, a right is missing. A
trial is a run in which some requests fail so, whichever and as often as one likes. Most of them do nothing
then; a file may have been given part of its content, and part of a directory may be gone.
-/

namespace DirLock

open Disk (Tree Place Path Name Fault)
open Routine (Yields yields_request yields_view)

/-- How a request fails for a reason of its own. -/
inductive Mishap where
  /-- Nothing is done. -/
  | refused (fault : Fault)
  /-- A file that was to be written has this content when the writing fails. -/
  | halfWritten (fault : Fault) (content : List UInt8)
  /-- Of a directory that was to be removed these entries are gone, one after the other, as far as each of
  them can be removed at all. -/
  | halfRemoved (fault : Fault) (gone : List (List Name))

def Mishap.fault : Mishap → Fault
  | refused fault => fault
  | halfWritten fault _ => fault
  | halfRemoved fault _ => fault

/-- Remove an entry from the inside of a directory, or the directory itself, if that can be done. -/
def Machine.takeAway (machine : Machine) (path : Path) (inside : List Name) : Machine :=
  let machine := (machine.change (machine.tree.unlinkInside machine.directory path inside)).2
  (machine.change (machine.tree.removeInside machine.directory path inside)).2

/-- What the machine is like when the request has failed. -/
def Mishap.leaves (machine : Machine) : Mishap → Request → Machine
  | halfWritten _ content, .writeFile path _ =>
    (machine.change (machine.tree.writeFile machine.directory path content)).2
  | halfRemoved _ gone, .removals path =>
    gone.foldl (fun machine inside => machine.takeAway path inside) machine
  | _, _ => machine

/-- Which requests fail, and how, by the number of requests before. -/
abbrev Mishaps := Nat → Request → Option Mishap

/-- No request fails without a reason in the tree. -/
def Mishaps.none : Mishaps := fun _ _ => Option.none

/-- A machine, and how many requests were made of it. -/
structure Trial where
  machine : Machine
  made : Nat

/-- The answer to a request, which may fail. -/
def Trial.answer (supply : Supply) (programs : Machine.Programs) (mishaps : Mishaps) (r : Request)
    (trial : Trial) : r.Reply × Trial :=
  let refusal := (mishaps trial.made r).bind fun mishap =>
    (r.refusal? mishap.fault).map fun reply => (reply, mishap.leaves trial.machine r)
  let (reply, machine) := refusal.getD (Machine.answer supply programs r trial.machine)
  (reply, ⟨machine, trial.made + 1⟩)

variable {supply : Supply} {programs : Machine.Programs} {mishaps : Mishaps} {α : Type} {trial : Trial}

theorem Machine.drawn_change (machine : Machine) (result : Except Fault Tree) :
    (machine.change result).2.drawn = machine.drawn := by
  cases result <;> rfl

theorem Machine.drawn_le_answer (r : Request) (machine : Machine) :
    machine.drawn ≤ (Machine.answer supply programs r machine).2.drawn := by
  have hplain : ∀ r (machine : Machine), machine.drawn ≤ (Machine.answerPlain supply r machine).2.drawn := by
    intro r machine
    cases r with
    | remove step => cases step <;> exact (Machine.drawn_change machine _).ge
    | makeDirectory => exact (Machine.drawn_change machine _).ge
    | writeFile => exact (Machine.drawn_change machine _).ge
    | makeLink => exact (Machine.drawn_change machine _).ge
    | rename => exact (Machine.drawn_change machine _).ge
    | unlink => exact (Machine.drawn_change machine _).ge
    | randomNonce => exact Nat.le_succ _
    | randomSuffix => exact Nat.le_succ _
    | _ => exact Nat.le_refl _
  cases r with
  | runProgram program arguments =>
    have hstep : ∀ r (state : Machine), machine.drawn ≤ state.drawn →
        machine.drawn ≤ (Machine.answerPlain supply r state).2.drawn :=
      fun r state h => h.trans (hplain r state)
    exact Routine.run_induction hstep (programs program arguments) (Nat.le_refl _)
  | _ => exact hplain _ _

theorem Mishap.drawn_leaves (machine : Machine) (mishap : Mishap) (r : Request) :
    (mishap.leaves machine r).drawn = machine.drawn := by
  have htaken : ∀ (path : Path) (gone : List (List Name)) (machine : Machine),
      (gone.foldl (fun machine inside => machine.takeAway path inside) machine).drawn = machine.drawn := by
    intro path gone
    induction gone with
    | nil => exact fun _ => rfl
    | cons inside gone ih =>
      intro machine
      rw [List.foldl_cons, ih, Machine.takeAway, Machine.drawn_change, Machine.drawn_change]
  rw [Mishap.leaves.eq_def]
  split
  · exact Machine.drawn_change machine _
  · exact htaken _ _ _
  · rfl

theorem Trial.drawn_le_run (routine : Routine α) (trial : Trial) :
    trial.machine.drawn ≤ (routine.run (Trial.answer supply programs mishaps) trial).2.machine.drawn := by
  have hstep : ∀ r (state : Trial), trial.machine.drawn ≤ state.machine.drawn →
      trial.machine.drawn ≤ (Trial.answer supply programs mishaps r state).2.machine.drawn := by
    intro r state h
    have hplain := h.trans (@Machine.drawn_le_answer supply programs r state.machine)
    rw [Trial.answer]
    cases mishaps state.made r with
    | none => exact hplain
    | some mishap =>
      cases hreply : r.refusal? mishap.fault with
      | none =>
        dsimp only [Option.bind_some]
        rw [hreply]
        exact hplain
      | some reply =>
        dsimp only [Option.bind_some]
        rw [hreply]
        exact h.trans (mishap.drawn_leaves state.machine r).ge
  exact Routine.run_induction hstep routine (Nat.le_refl _)

/-- Where no request fails without a reason, a trial is a run on the machine. -/
theorem Trial.run_none (routine : Routine α) (trial : Trial) :
    ((routine.run (Trial.answer supply programs .none) trial).1,
        (routine.run (Trial.answer supply programs .none) trial).2.machine) =
      routine.run (Machine.answer supply programs) trial.machine := by
  induction routine generalizing trial with
  | done value => rfl
  | ask r next ih => exact ih _ _

theorem Routine.Yields.drawn {routine : Routine α} {post : α → Trial → Prop}
    (h : Yields (Trial.answer supply programs mishaps) routine trial post) :
    Yields (Trial.answer supply programs mishaps) routine trial
      fun value after => post value after ∧ trial.machine.drawn ≤ after.machine.drawn :=
  ⟨h, Trial.drawn_le_run routine trial⟩

theorem Trial.machine_answer {r : Request} (hplain : (Machine.answer supply programs r trial.machine).2 = trial.machine)
    (hmishap : ∀ mishap : Mishap, mishap.leaves trial.machine r = trial.machine) :
    (Trial.answer supply programs mishaps r trial).2.machine = trial.machine := by
  rw [Trial.answer]
  cases mishaps trial.made r with
  | none => exact hplain
  | some mishap =>
    cases hreply : r.refusal? mishap.fault with
    | none =>
      dsimp only [Option.bind_some]
      rw [hreply]
      exact hplain
    | some reply =>
      dsimp only [Option.bind_some]
      rw [hreply]
      exact hmishap mishap

theorem yields_of_trial {r : Request} {next : r.Reply → Routine α} {post : α → Trial → Prop}
    (hplain : ∀ reply machine, Machine.answer supply programs r trial.machine = (reply, machine) →
      Yields (Trial.answer supply programs mishaps) (next reply) ⟨machine, trial.made + 1⟩ post)
    (hmishap : ∀ mishap reply, mishaps trial.made r = some mishap → r.refusal? mishap.fault = some reply →
      Yields (Trial.answer supply programs mishaps) (next reply)
        ⟨mishap.leaves trial.machine r, trial.made + 1⟩ post) :
    Yields (Trial.answer supply programs mishaps) (Routine.request r >>= next) trial post := by
  apply yields_request
  have hanswer : Trial.answer supply programs mishaps r trial =
      let refusal := (mishaps trial.made r).bind fun mishap =>
        (r.refusal? mishap.fault).map fun reply => (reply, mishap.leaves trial.machine r)
      let (reply, machine) := refusal.getD (Machine.answer supply programs r trial.machine)
      (reply, ⟨machine, trial.made + 1⟩) := rfl
  rw [hanswer]
  cases hbefell : mishaps trial.made r with
  | none => exact hplain _ _ rfl
  | some mishap =>
    cases hreply : r.refusal? mishap.fault with
    | none =>
      dsimp only [Option.bind_some]
      rw [hreply]
      exact hplain _ _ rfl
    | some reply =>
      dsimp only [Option.bind_some]
      rw [hreply]
      exact hmishap mishap reply hbefell hreply

theorem Trial.answer_of_sure {r : Request} (hsure : ∀ fault, r.refusal? fault = none) (trial : Trial) :
    Trial.answer supply programs mishaps r trial =
      ((Machine.answer supply programs r trial.machine).1,
        ⟨(Machine.answer supply programs r trial.machine).2, trial.made + 1⟩) := by
  have hnone : ((mishaps trial.made r).bind fun mishap =>
      (r.refusal? mishap.fault).map fun reply => (reply, mishap.leaves trial.machine r)) = none := by
    cases mishaps trial.made r with
    | none => rfl
    | some mishap => rw [Option.bind_some, hsure, Option.map_none]
  rw [Trial.answer, hnone]
  rfl

theorem yields_of_sure {r : Request} {next : r.Reply → Routine α} {post : α → Trial → Prop}
    (hsure : ∀ fault, r.refusal? fault = none)
    (h : Yields (Trial.answer supply programs mishaps)
      (next (Machine.answer supply programs r trial.machine).1)
      ⟨(Machine.answer supply programs r trial.machine).2, trial.made + 1⟩ post) :
    Yields (Trial.answer supply programs mishaps) (Routine.request r >>= next) trial post := by
  apply yields_request
  rwa [Trial.answer_of_sure hsure]

theorem yields_of_calm {allowed : Request → Prop} {routine : Routine α} (huses : routine.Uses allowed)
    (hcalm : ∀ n r, allowed r → mishaps n r = none) {post : α → Machine → Prop} :
    Yields (Machine.answer supply programs) routine trial.machine post ↔
      Yields (Trial.answer supply programs mishaps) routine trial
        fun value after => post value after.machine := by
  have hview : ∀ r (trial : Trial), allowed r → Machine.answer supply programs r trial.machine =
      ((Trial.answer supply programs mishaps r trial).1, (Trial.answer supply programs mishaps r trial).2.machine) := by
    intro r trial hallowed
    rw [Trial.answer, hcalm _ _ hallowed]
    rfl
  exact yields_view huses hview

theorem yields_of_none {routine : Routine α} {post : α → Machine → Prop} :
    Yields (Machine.answer supply programs) routine trial.machine post ↔
      Yields (Trial.answer supply programs .none) routine trial
        fun value after => post value after.machine := by
  have huses : routine.Uses fun _ => True := by
    induction routine with
    | done value => trivial
    | ask r next ih => exact ⟨trivial, fun reply => ih reply⟩
  exact yields_of_calm huses fun _ _ _ => rfl

end DirLock
