import DirLock.Lock.Acquire
import DirLock.Lock.Guard
import DirLock.Proofs.Disk.Alike
import DirLock.Proofs.Holder.Same
import DirLock.Proofs.Lock.Freed
import DirLock.Proofs.Routine.Respect
import Mathlib.Tactic.Convert

/-!
# Nothing is decided by what is written about holders

Two machines are alike if their trees differ in nothing but the times of claims in files about holders.
What a routine of a lock asks of them is answered the same, so it says the same on both and leaves them
alike. Only who holds a lock, as text, would tell them apart.
-/

namespace DirLock

open Disk (Tree Place Path Fault)
open Disk.Tree (ChangeAlike)
open Routine (Agree Respects respects_pure respects_request)

/-- The machines work in the same directory, have made as many draws, and their trees differ in the times
of claims only. Their clocks may differ, and what was written. -/
structure Machine.Alike (machine machine' : Machine) : Prop where
  tree : machine.tree.Alike Holder.SameRecord machine'.tree
  ordered : machine.tree.Ordered
  ordered' : machine'.tree.Ordered
  directory : machine.directory = machine'.directory
  drawn : machine.drawn = machine'.drawn

/-- The answer to the request says nothing about what is written in files, nor about the time. -/
def Request.IsBlind : Request → Prop
  | .entryKind _ => True
  | .makeDirectory _ => True
  | .writeFile _ _ => True
  | .rename _ _ => True
  | .removals _ => True
  | .remove _ => True
  | .workingDirectory => True
  | .randomSuffix => True
  | .pause _ => True
  | .note _ => True
  | _ => False

variable {supply : Supply} {programs : Machine.Programs} {machine machine' : Machine}

theorem Machine.Alike.change (h : machine.Alike machine') {result result' : Except Fault Tree}
    (hresult : ChangeAlike Holder.SameRecord result result')
    (hordered : (machine.change result).2.tree.Ordered)
    (hordered' : (machine'.change result').2.tree.Ordered) :
    (machine.change result).1 = (machine'.change result').1 ∧
      (machine.change result).2.Alike (machine'.change result').2 := by
  cases hresult with
  | failed fault => exact ⟨rfl, h⟩
  | changed htree => exact ⟨rfl, htree, hordered, hordered', h.directory, h.drawn⟩

theorem respects_of_isBlind {r : Request} (h : r.IsBlind) :
    Respects (Machine.answer supply programs) Machine.Alike (Routine.request r) := by
  refine respects_request fun machine machine' halike => ?_
  have hordered := Machine.ordered_answer supply programs r halike.ordered
  have hordered' := Machine.ordered_answer supply programs r halike.ordered'
  obtain ⟨htree, -, -, hdirectory, hdrawn⟩ := id halike
  cases r with
  | entryKind path =>
    refine ⟨?_, halike⟩
    show machine.tree.entryKind _ _ = machine'.tree.entryKind _ _
    rw [hdirectory, htree.entryKind_eq]
  | makeDirectory path =>
    refine halike.change ?_ hordered hordered'
    rw [hdirectory]
    exact htree.makeDirectory _ _
  | writeFile path content =>
    refine halike.change ?_ hordered hordered'
    rw [hdirectory]
    exact htree.writeFile _ _ (.inl rfl)
  | rename source target =>
    refine halike.change ?_ hordered hordered'
    rw [hdirectory]
    exact htree.rename halike.ordered halike.ordered' _ _ _
  | removals path =>
    refine ⟨?_, halike⟩
    show machine.tree.removals _ _ = machine'.tree.removals _ _
    rw [hdirectory, htree.removals_eq halike.ordered halike.ordered']
  | remove step =>
    cases step with
    | unlink path inside =>
      refine halike.change ?_ hordered hordered'
      rw [hdirectory]
      exact htree.unlinkInside _ _ _
    | removeDirectory path inside =>
      refine halike.change ?_ hordered hordered'
      rw [hdirectory]
      exact htree.removeInside _ _ _
  | workingDirectory => exact ⟨congrArg Place.path hdirectory, halike⟩
  | randomSuffix =>
    exact ⟨congrArg supply.suffix hdrawn,
      htree, halike.ordered, halike.ordered', hdirectory, congrArg (· + 1) hdrawn⟩
  | pause nanos => exact ⟨rfl, htree, halike.ordered, halike.ordered', hdirectory, hdrawn⟩
  | note event => exact ⟨rfl, htree, halike.ordered, halike.ordered', hdirectory, hdrawn⟩
  | _ => exact h.elim

section Routines

variable (supply programs)

/-- The routine says the same on machines that are alike and leaves them alike. -/
abbrev Routine.IsBlind {α : Type} (routine : Routine α) : Prop :=
  Respects (Machine.answer supply programs) Machine.Alike routine

variable {supply programs}

theorem isBlind_request_bind {α : Type} {r : Request} {next : r.Reply → Routine α} (h : r.IsBlind)
    (hnext : ∀ reply, (next reply).IsBlind supply programs) :
    (Routine.request r >>= next).IsBlind supply programs := (respects_of_isBlind h).bind hnext

variable {lock : Lock} {claimant : Claimant}

/-! ## Directories -/

theorem isBlind_removeTree (path : Path) : (Routine.removeTree path).IsBlind supply programs := by
  have heach : ∀ steps, (Routine.removeEach steps).IsBlind supply programs := by
    intro steps
    induction steps with
    | nil => exact respects_pure _
    | cons step rest ih =>
      refine isBlind_request_bind trivial fun reply => ?_
      rcases reply with fault | _
      · exact respects_pure _
      · exact ih
  refine isBlind_request_bind trivial fun reply => ?_
  rcases reply with fault | steps
  · exact respects_pure _
  · exact heach steps

theorem isBlind_discard (staging : Path) : (Lock.discard staging).IsBlind supply programs := by
  refine (isBlind_removeTree staging).bind fun result => ?_
  rcases result with fault | _
  · exact respects_of_isBlind trivial
  · exact respects_pure _

/-! ## Claiming -/

theorem isBlind_isLocked : lock.isLocked.IsBlind supply programs := by
  refine isBlind_request_bind trivial fun reply => ?_
  rcases reply with fault | _
  · dsimp only
    split_ifs <;> exact respects_pure _
  · exact respects_pure _

theorem isBlind_absolute (dir : Path) : (Lock.absolute dir).IsBlind supply programs := by
  unfold Lock.absolute
  split_ifs
  · exact respects_pure _
  · exact isBlind_request_bind trivial fun _ => respects_pure _

theorem isBlind_makeStaging (base : Path) (tries : Nat) :
    (lock.makeStaging base tries).IsBlind supply programs := by
  induction tries with
  | zero => exact respects_pure _
  | succ tries ih =>
    refine isBlind_request_bind trivial fun suffix =>
      isBlind_request_bind trivial fun reply => ?_
    rcases reply with fault | _
    · dsimp only
      split_ifs
      · exact ih
      · exact respects_pure _
    · exact respects_pure _

theorem isBlind_writeHolder_bind {α : Type} (path : Path) {next : Except Fault Unit → Routine α}
    (hnext : ∀ reply, (next reply).IsBlind supply programs) :
    Routine.IsBlind supply programs (do
      let now ← Routine.request .now
      let reply ← Routine.request
        (.writeFile path (Text.utf8Encode (Holder.ofClaimant claimant now).render))
      next reply) := by
  intro machine machine' halike
  let content (machine : Machine) := Text.utf8Encode (Holder.ofClaimant claimant machine.clock).render
  have hsame : Holder.SameRecord (content machine) (content machine') :=
    ⟨Holder.ofClaimant claimant machine.clock, _, _, rfl, rfl⟩
  have hwrite : ChangeAlike Holder.SameRecord
      (machine.tree.writeFile machine.directory path (content machine))
      (machine'.tree.writeFile machine'.directory path (content machine')) := by
    rw [halike.directory]
    exact halike.tree.writeFile _ _ (.inr hsame)
  obtain ⟨hvalue, hafter⟩ := halike.change hwrite
    (Machine.ordered_answer supply programs (.writeFile path (content machine)) halike.ordered)
    (Machine.ordered_answer supply programs (.writeFile path (content machine')) halike.ordered')
  have hwritten : Agree (Machine.answer supply programs) (do
      let now ← Routine.request .now
      Routine.request (.writeFile path (Text.utf8Encode (Holder.ofClaimant claimant now).render)))
      machine machine' fun _ => Machine.Alike := ⟨hvalue, hafter⟩
  have hall := hwritten.bind fun reply after after' => hnext reply after after'
  rwa [bind_assoc] at hall

theorem isBlind_fillStaging (staging : Path) :
    (lock.fillStaging claimant staging).IsBlind supply programs := by
  refine isBlind_request_bind trivial fun reply => ?_
  rcases reply with fault | _
  · exact respects_pure _
  · let finish (reply : Except Fault Unit) : Routine (Except LockError Unit) :=
      return reply.mapError (.io .writeHolder (staging.join Lock.holderName))
    have hfinish : ∀ reply, (finish reply).IsBlind supply programs := fun reply => respects_pure _
    convert isBlind_writeHolder_bind (staging.join Lock.holderName) hfinish using 6 with now reply
    rcases reply with fault | _ <;> rfl

theorem isBlind_stage : (lock.stage claimant).IsBlind supply programs := by
  refine (isBlind_absolute _).bind fun base => (isBlind_makeStaging base _).bind fun result => ?_
  rcases result with fault | staging
  · exact respects_pure _
  · refine (isBlind_fillStaging staging).bind fun result => ?_
    rcases result with error | _
    · exact (isBlind_removeTree staging).bind fun _ => respects_pure _
    · exact respects_pure _

theorem isBlind_putInPlace (staging : Path) :
    (lock.putInPlace staging).IsBlind supply programs := by
  refine isBlind_request_bind trivial fun reply => ?_
  rcases reply with fault | _
  · dsimp only
    split_ifs
    · exact isBlind_request_bind trivial fun _ =>
        (isBlind_discard staging).bind fun _ => respects_pure _
    · exact (isBlind_discard staging).bind fun _ => respects_pure _
  · exact isBlind_request_bind trivial fun _ => respects_pure _

theorem isBlind_tryClaim : (lock.tryClaim claimant).IsBlind supply programs := by
  refine isBlind_isLocked.bind fun result => ?_
  rcases result with error | (_ | _)
  · exact respects_pure _
  · refine isBlind_stage.bind fun result => ?_
    rcases result with error | staging
    · exact respects_pure _
    · exact isBlind_putInPlace staging
  · exact isBlind_request_bind trivial fun _ => respects_pure _

/-! ## Releasing -/

/-- A held marker that is not the same on both machines is a record of a holder, and so no nonce. -/
theorem isBlind_isHeld : lock.isHeld.IsBlind supply programs := by
  intro machine machine' halike
  have hiff : lock.IsHeldAt machine ↔ lock.IsHeldAt machine' := by
    rw [Lock.IsHeldAt, Lock.IsHeldAt, halike.directory]
    rcases halike.tree.readFile machine'.directory lock.heldFile with
      heq | ⟨_, _, ⟨holder, time, time', rfl, rfl⟩, hread, hread'⟩
    · rw [heq]
    · rw [hread, hread']
      exact iff_of_false (fun h => Holder.render_ne_nonce _ _ (Except.ok.inj h))
        fun h => Holder.render_ne_nonce _ _ (Except.ok.inj h)
  refine Routine.agree_of_yields yields_isHeld yields_isHeld ?_
  rintro held held' after after' ⟨rfl, hheld⟩ ⟨rfl, hheld'⟩
  exact ⟨Bool.eq_iff_iff.2 (hheld.trans (hiff.trans hheld'.symm)), halike⟩

theorem isBlind_unlock : lock.unlock.IsBlind supply programs := by
  refine isBlind_isHeld.bind fun held => ?_
  split_ifs
  · refine isBlind_request_bind trivial fun reply => ?_
    rcases reply with fault | _
    · exact respects_pure _
    · refine isBlind_request_bind trivial fun _ => ?_
      refine (isBlind_removeTree _).bind fun result => ?_
      rcases result with fault | _ <;> exact respects_pure _
  · exact respects_pure _

theorem isBlind_release (guard : Guard) : guard.release.IsBlind supply programs :=
  isBlind_unlock.bind fun _ => respects_pure _

theorem isBlind_drop (guard : Guard) : guard.drop.IsBlind supply programs := by
  unfold Guard.drop
  split_ifs
  · exact respects_pure _
  · refine isBlind_isHeld.bind fun held => ?_
    split_ifs
    · refine isBlind_unlock.bind fun result => ?_
      rcases result with error | _
      · exact respects_of_isBlind trivial
      · exact respects_pure _
    · exact respects_pure _

end Routines

end DirLock
