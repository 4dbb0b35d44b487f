import DirLock.Proofs.Lock.Again
import DirLock.Proofs.Lock.Guarded
import DirLock.Proofs.Lock.Query

/-!
# Guards on watch

A guard is given for an acquisition, but a claim only tells whose it is, and not since when. So a guard that
goes away releases whatever its handle holds then. That is the claim that was acquired with the guard, unless
the handle was told to release the lock past the guard and has acquired it again.

The owner of one handle calls it as often as they like, in any order, and nobody interferes. What carries over
from call to call is that a guard is undisturbed only as long as the claim stands that was acquired with it. As
long as it stands no call can acquire the lock, so a handle that is never told to release the lock past a guard
has one guard at most.
-/

namespace DirLock

open Disk (Tree Place Name)
open Routine (Yields)

/-! ## Calls -/

/-- On whose behalf and when a call is made, and what befalls its requests. -/
structure Lock.Occasion where
  claimant : Claimant
  time : Time.Instant
  mishaps : Mishaps

def Lock.Occasion.begin (occasion : Occasion) (machine : Machine) : Trial :=
  ⟨{ machine with clock := occasion.time }, 0⟩

/-- What a routine gives on the occasion, and the machine that it leaves. -/
def Lock.Occasion.run {α : Type} (supply : Supply) (programs : Machine.Programs) (occasion : Occasion)
    (routine : Routine α) (machine : Machine) : α × Machine :=
  let (value, trial) := routine.run (Trial.answer supply programs occasion.mishaps) (occasion.begin machine)
  (value, trial.machine)

/-- A guard that has not gone away, and what was done with its handle since it was given. -/
structure Lock.LiveGuard where
  guard : Guard
  /-- How many times the handle had acquired the lock with a guard before. -/
  acquisition : Nat
  /-- The tree when the guard was given. -/
  tree : Tree
  /-- Whether the handle was told to release the lock. -/
  unlocked : Bool
  /-- Whether another guard of the handle has gone away. -/
  outlives : Bool

/-- Since the guard was given nothing was called that could release the lock. -/
structure Lock.LiveGuard.Undisturbed (live : LiveGuard) : Prop where
  unlocked : live.unlocked = false
  outlives : live.outlives = false

/-- A machine, and the guards of one handle that have not gone away, oldest first. -/
structure Lock.Watch where
  machine : Machine
  guards : List LiveGuard
  /-- The trees that the acquisitions left for which guards were given, oldest first. -/
  acquired : List Tree
  /-- Whether the handle was ever told to release the lock while a guard was alive. -/
  bypassed : Bool

/-- What the owner of a handle calls. Guards are numbered from the oldest. -/
inductive Lock.Watch.Call where
  /-- Wait for a guard without a deadline, for so many attempts. -/
  | hold (tries : Nat)
  /-- Wait for a guard until a deadline, with the two parties of the wait moving in this order at first. -/
  | tryHold (limit : Time.Span) (picks : List Wait.Pick)
  | unlock
  /-- Tell a guard to release the lock, upon which it goes away. -/
  | release (number : Nat)
  | drop (number : Nat)

/-- Requests may fail, but an attempt can remove what it has staged, and a release can read the held marker. -/
def Lock.Watch.Call.Bears (mishaps : Mishaps) : Call → Prop
  | hold _ | tryHold _ _ => mishaps.SpareCleanup
  | unlock | release _ | drop _ => ∀ n path, mishaps n (.readFile path) = none

namespace Lock.Watch

variable (watch : Watch)

/-- A wait is over and has given these guards. -/
def grant (machine : Machine) (given : List Guard) : Watch :=
  { watch with
    machine
    guards := watch.guards ++ given.map fun guard => ⟨guard, watch.acquired.length, machine.tree, false, false⟩
    acquired := watch.acquired ++ given.map fun _ => machine.tree }

def dismiss (machine : Machine) (number : Nat) : Watch :=
  { watch with
    machine, guards := (watch.guards.eraseIdx number).map fun live => { live with outlives := true } }

/-- The handle was told to release the lock. -/
def bypass (machine : Machine) : Watch :=
  { watch with
    machine
    guards := watch.guards.map fun live => { live with unlocked := true }
    bypassed := watch.bypassed || !watch.guards.isEmpty }

/-- What a call makes of it all. Nothing is done with a guard that is not there. -/
def perform (supply : Supply) (programs : Machine.Programs) (lock : Lock) (occasion : Occasion) : Call → Watch
  | .hold tries =>
    let (result, machine) := occasion.run supply programs (lock.hold occasion.claimant tries) watch.machine
    watch.grant machine (Report.guarded result).guards
  | .tryHold limit picks =>
    let (result, machine) := occasion.run supply programs (lock.tryHoldAlong occasion.claimant limit picks)
      watch.machine
    watch.grant machine (Report.guardedInTime result).guards
  | .unlock => watch.bypass (occasion.run supply programs lock.unlock watch.machine).2
  | .release number =>
    match watch.guards[number]? with
    | none => watch
    | some live =>
      let routine : Routine Unit := do
        let (guard, _) ← live.guard.release
        guard.drop
      watch.dismiss (occasion.run supply programs routine watch.machine).2 number
  | .drop number =>
    match watch.guards[number]? with
    | none => watch
    | some live => watch.dismiss (occasion.run supply programs live.guard.drop watch.machine).2 number

/-- What calls of the handle can lead to, in any number and order. -/
inductive Reached (supply : Supply) (programs : Machine.Programs) (lock : Lock) (base : Machine) : Watch → Prop
  | start : Reached supply programs lock base ⟨base, [], [], false⟩
  | call {watch : Watch} (occasion : Occasion) {call : Call} : Reached supply programs lock base watch →
    call.Bears occasion.mishaps →
    Reached supply programs lock base (watch.perform supply programs lock occasion call)

end Lock.Watch

variable {supply : Supply} {programs : Machine.Programs} {lock : Lock} {claimant : Claimant}
  {base machine before after : Machine} {left : Bool} {watch : Lock.Watch} {occasion : Lock.Occasion}
  {outcome : Wait.Outcome LockError}

/-! ## What every call keeps -/

theorem Lock.Stands.begun (h : lock.Stands base left machine) (occasion : Lock.Occasion) :
    lock.Stands base left (occasion.begin machine).machine := h.congr rfl rfl

/-- What a release may leave, or a guard that goes away. -/
def Lock.Departed (lock : Lock) (before after : Machine) : Prop :=
  after.IsAt before.directory before.tree ∨
    after.directory = before.directory ∧ ∃ result, lock.Told before after result

theorem Lock.Stands.departed (h : lock.Stands base left machine) (hfresh : lock.Fresh supply base)
    (hdeparted : lock.Departed (occasion.begin machine).machine after) : ∃ left, lock.Stands base left after := by
  have hdid : lock.Did occasion.claimant (occasion.begin machine).machine after .dropped := by
    rcases hdeparted with hat | ⟨hdirectory, result, htold⟩
    · exact .looked rfl rfl hat
    · exact .released rfl (.inr rfl) hdirectory htold
  exact ⟨_, ((h.begun occasion).did hfresh hdid).1⟩

theorem Lock.Within.isHeldAt (h : lock.Within base left machine) (hcheck : lock.heldFile.check = .ok ()) :
    lock.IsHeldAt machine := by
  obtain ⟨-, hdraft⟩ := h
  exact hdraft.isHeldAt hcheck

theorem Lock.not_within_base (hsound : base.tree.Sound) : ¬ lock.Within base left base := by
  rintro ⟨hground, hdraft⟩
  cases hdraft.plot.free.symm.trans (hground.within hsound _ _ (Tree.get?_of_below hdraft.below))

/-- Where the handle holds the lock after it may have been released, nothing has changed. -/
theorem Lock.Departed.isAt_of_within (h : lock.Departed before after) (hwithin : lock.Within base left after) :
    after.IsAt before.directory before.tree := by
  rcases h with hat | ⟨hdirectory, result, htold⟩
  · exact hat
  have hmoved : ∀ {result}, lock.Told before after result → lock.IsHeldAt before →
      ∃ fault, result = .error (.io .releaseClaim lock.claimDir fault) := fun htold hheld =>
    htold.stuck_of_isHeldAt hdirectory (hwithin.isHeldAt hheld.check)
  cases htold with
  | notHeld _ htree => exact ⟨hdirectory, htree⟩
  | kept _ _ htree => exact ⟨hdirectory, htree⟩
  | left parent fault hheld hleads haside hlost hgone =>
    obtain ⟨_, heq⟩ := hmoved (.left parent fault hheld hleads haside hlost hgone) hheld
    cases heq
  | gone parent hheld hleads haside htree =>
    obtain ⟨_, heq⟩ := hmoved (.gone parent hheld hleads haside htree) hheld
    cases heq

/-- The guards are for the handle, and an undisturbed one stands for a claim that is still as it was when the guard
was given. There is no disturbed one, and only one at all, if the lock was never released past a guard. A claim that
stands is the one that was made last. -/
structure Lock.Watch.InForce (lock : Lock) (base : Machine) (watch : Watch) : Prop where
  stands : ∃ left, lock.Stands base left watch.machine
  handle : ∀ live ∈ watch.guards, live.guard = Guard.of lock
  numbered : ∀ live ∈ watch.guards, live.acquisition < watch.acquired.length
  latest : ∀ left, lock.Within base left watch.machine → watch.acquired.getLast? = some watch.machine.tree
  undisturbed : ∀ live ∈ watch.guards, live.Undisturbed → watch.machine.tree = live.tree ∧
    live.acquisition + 1 = watch.acquired.length ∧ ∃ left, lock.Within base left watch.machine
  alone : watch.bypassed = false → watch.guards.length ≤ 1 ∧ ∀ live ∈ watch.guards, live.Undisturbed

/-- The guards that a wait gives which ends so. -/
inductive Lock.Gives (lock : Lock) : Wait.Outcome LockError → List Guard → Prop
  | one : Gives lock (.ok true) [Guard.of lock]
  | none {outcome : Wait.Outcome LockError} : outcome ≠ .ok true → Gives lock outcome []

theorem Lock.gives_guarded {result : Option (Except LockError Guard)}
    (h : ∀ guard, result = some (.ok guard) → guard = Guard.of lock) :
    lock.Gives (Site.lastOutcome result) (Report.guarded result).guards := by
  rcases result with _ | (error | guard)
  · exact .none nofun
  · exact .none nofun
  · rw [h guard rfl]
    exact .one

theorem Lock.gives_guardedInTime {result : Except LockError (Option Guard)}
    (h : ∀ guard, result = .ok (some guard) → guard = Guard.of lock) :
    lock.Gives (Site.guardOutcome result) (Report.guardedInTime result).guards := by
  rcases result with error | (_ | guard)
  · exact .none nofun
  · exact .none nofun
  · rw [h guard rfl]
    exact .one

namespace Lock.Watch.InForce

variable (h : watch.InForce lock base)
include h

theorem grant {given : List Guard}
    (hended : lock.AllOrNothing claimant (occasion.begin watch.machine).machine after outcome)
    (hgives : lock.Gives outcome given) : (watch.grant after given).InForce lock base := by
  obtain ⟨left, hstands⟩ := h.stands
  cases hended with
  | nothing hne hat =>
    cases hgives with
    | one => exact absurd rfl hne
    | none _ =>
      rw [Watch.grant, List.map_nil, List.map_nil, List.append_nil, List.append_nil]
      refine ⟨⟨left, hstands.congr hat.directory hat.tree⟩, h.handle, h.numbered, fun left hwithin => ?_,
        fun live hmem hlive => ?_, h.alone⟩
      · rw [hat.tree]
        exact h.latest left (hwithin.congr ⟨hat.directory.symm, hat.tree.symm⟩)
      · obtain ⟨htree, hnumber, left, hwithin⟩ := h.undisturbed live hmem hlive
        exact ⟨hat.tree.trans htree, hnumber, left, hwithin.congr hat⟩
  | all parent now hclaimed =>
    cases hgives with
    | none hne => exact absurd rfl hne
    | one =>
      -- An undisturbed guard stands for a claim, and where that is no other can be put.
      have hnone : ∀ live ∈ watch.guards, ¬ live.Undisturbed := by
        intro live hmem hlive
        obtain ⟨-, -, left, hwithin⟩ := h.undisturbed live hmem hlive
        exact hwithin.not_claimed hclaimed
      have hwithin : lock.Within base left after := hstands.claimed hclaimed
      have hlength : (watch.acquired ++ [after.tree]).length = watch.acquired.length + 1 := List.length_append
      refine ⟨⟨left, .inr hwithin⟩, fun live hmem => ?_, fun live hmem => ?_, fun _ _ => List.getLast?_concat,
        fun live hmem hlive => ?_, fun hbypassed => ?_⟩
      · rcases List.mem_append.1 hmem with hold | hnew
        · exact h.handle live hold
        · rw [List.mem_singleton.1 hnew]
      · refine Nat.lt_of_lt_of_eq ?_ hlength.symm
        rcases List.mem_append.1 hmem with hold | hnew
        · exact Nat.lt_succ_of_lt (h.numbered live hold)
        · rw [List.mem_singleton.1 hnew]
          exact Nat.lt_succ_self _
      · rcases List.mem_append.1 hmem with hold | hnew
        · exact absurd hlive (hnone live hold)
        · rw [List.mem_singleton.1 hnew]
          exact ⟨rfl, hlength.symm, left, hwithin⟩
      · obtain ⟨-, hall⟩ := h.alone hbypassed
        have hempty : watch.guards = [] :=
          List.eq_nil_iff_forall_not_mem.2 fun live hmem => hnone live hmem (hall live hmem)
        rw [Watch.grant, hempty, List.nil_append]
        exact ⟨Nat.le_refl 1, fun live hmem => by rw [List.mem_singleton.1 hmem]; exact ⟨rfl, rfl⟩⟩

theorem latest_of_departed (hdeparted : lock.Departed (occasion.begin watch.machine).machine after)
    (hwithin : lock.Within base left after) : watch.acquired.getLast? = some after.tree := by
  have hat : after.IsAt watch.machine.directory watch.machine.tree := hdeparted.isAt_of_within hwithin
  rw [hat.tree]
  exact h.latest left (hwithin.congr ⟨hat.directory.symm, hat.tree.symm⟩)

theorem dismiss (hfresh : lock.Fresh supply base) {number : Nat} {live : LiveGuard}
    (hnumber : watch.guards[number]? = some live)
    (hdeparted : lock.Departed (occasion.begin watch.machine).machine after) :
    (watch.dismiss after number).InForce lock base := by
  obtain ⟨left, hstands⟩ := h.stands
  have hmem : ∀ live ∈ (watch.dismiss after number).guards,
      ∃ other ∈ watch.guards.eraseIdx number, live = { other with outlives := true } := by
    intro live hmem
    obtain ⟨other, hother, rfl⟩ := List.mem_map.1 hmem
    exact ⟨other, hother, rfl⟩
  refine ⟨hstands.departed hfresh hdeparted, fun live hlive => ?_, fun live hlive => ?_,
    fun _ hwithin => h.latest_of_departed hdeparted hwithin, fun live hlive hundisturbed => ?_, fun hbypassed => ?_⟩
  · obtain ⟨other, hother, rfl⟩ := hmem live hlive
    exact h.handle other (List.mem_of_mem_eraseIdx hother)
  · obtain ⟨other, hother, rfl⟩ := hmem live hlive
    exact h.numbered other (List.mem_of_mem_eraseIdx hother)
  · obtain ⟨other, -, rfl⟩ := hmem live hlive
    cases hundisturbed.outlives
  · -- There was one guard at most, and it has gone away.
    obtain ⟨hlength, -⟩ := h.alone hbypassed
    obtain ⟨hlt, -⟩ := List.getElem?_eq_some_iff.1 hnumber
    have hempty : (watch.dismiss after number).guards = [] := by
      rw [← List.length_eq_zero_iff, Watch.dismiss, List.length_map, List.length_eraseIdx_of_lt hlt]
      omega
    rw [hempty]
    exact ⟨Nat.zero_le 1, fun live hmem => absurd hmem List.not_mem_nil⟩

theorem bypass (hfresh : lock.Fresh supply base)
    (hdeparted : lock.Departed (occasion.begin watch.machine).machine after) :
    (watch.bypass after).InForce lock base := by
  obtain ⟨left, hstands⟩ := h.stands
  refine ⟨hstands.departed hfresh hdeparted, fun live hmem => ?_, fun live hmem => ?_,
    fun _ hwithin => h.latest_of_departed hdeparted hwithin, fun live hmem hundisturbed => ?_, fun hbypassed => ?_⟩
  · obtain ⟨other, hother, rfl⟩ := List.mem_map.1 hmem
    exact h.handle other hother
  · obtain ⟨other, hother, rfl⟩ := List.mem_map.1 hmem
    exact h.numbered other hother
  · obtain ⟨other, -, rfl⟩ := List.mem_map.1 hmem
    cases hundisturbed.unlocked
  · obtain ⟨-, hnone⟩ := Bool.or_eq_false_iff.1 hbypassed
    rw [Bool.not_eq_false', List.isEmpty_iff] at hnone
    rw [Watch.bypass, hnone]
    exact ⟨Nat.zero_le 1, fun live hmem => absurd hmem List.not_mem_nil⟩

theorem perform (hfresh : lock.Fresh supply base) (hsuffix : ∀ n, IsSuffix (supply.suffix n))
    (hdelay : 0 < lock.pauseNanos) {call : Call} (hbears : call.Bears occasion.mishaps) :
    (watch.perform supply programs lock occasion call).InForce lock base := by
  obtain ⟨left, hstands⟩ := h.stands
  have hworks := ((hstands.begun occasion).settled hfresh.sound).works hfresh
  have hstart : lock.AllOrNothing occasion.claimant (occasion.begin watch.machine).machine
      (occasion.begin watch.machine).machine (.ok false) := .start _ _ _
  have hpersists : occasion.mishaps.SpareCleanup → _ := fun hspare =>
    @persists_allOrNothing supply programs _ lock occasion.claimant _ hspare hworks.sound hworks.directory hsuffix
      hworks.unguessed
  have hunlock : (∀ n path, occasion.mishaps n (.readFile path) = none) → _ := fun hread =>
    @yields_unlock_trial supply programs _ (occasion.begin watch.machine) lock hread hworks.sound hworks.bypasses
  cases call with
  | hold tries =>
    have hended := yields_hold (hpersists hbears) hstart tries
    exact h.grant hended.1 (Lock.gives_guarded hended.2)
  | tryHold limit picks =>
    have hended := @yields_tryHoldAlong _ _ _ _ _ _ (hpersists hbears) limit hdelay hstart picks
    exact h.grant hended.1 (Lock.gives_guardedInTime hended.2)
  | unlock =>
    obtain ⟨hdirectory, htold⟩ := hunlock hbears
    exact h.bypass hfresh (.inr ⟨hdirectory, _, htold⟩)
  | release number =>
    rw [Watch.perform]
    split
    · exact h
    · rename_i live hnumber
      have hlive := h.handle live (List.mem_of_getElem? hnumber)
      have hreleased : Yields (Trial.answer supply programs occasion.mishaps) live.guard.release
          (occasion.begin watch.machine) fun value after => value.1.spent = true ∧
            lock.Departed (occasion.begin watch.machine).machine after.machine := by
        rw [hlive]
        exact (hunlock hbears).bind fun result _ hended => ⟨rfl, .inr ⟨hended.1, result, hended.2⟩⟩
      have hgone : Yields (Trial.answer supply programs occasion.mishaps)
          (live.guard.release >>= fun value => value.1.drop) (occasion.begin watch.machine) fun _ after =>
            lock.Departed (occasion.begin watch.machine).machine after.machine := by
        refine hreleased.bind ?_
        rintro ⟨guard, result⟩ after ⟨hspent, hdeparted⟩
        rw [Guard.drop_of_spent hspent]
        exact hdeparted
      exact h.dismiss hfresh hnumber hgone
  | drop number =>
    rw [Watch.perform]
    split
    · exact h
    · rename_i live hnumber
      have hlive := h.handle live (List.mem_of_getElem? hnumber)
      have hdropped := @yields_drop_trial supply programs _ (occasion.begin watch.machine) lock hbears hworks.sound
        hworks.bypasses false
      rw [hlive]
      exact h.dismiss hfresh hnumber hdropped

end Lock.Watch.InForce

theorem Lock.Watch.Reached.inForce (h : Lock.Watch.Reached supply programs lock base watch)
    (hfresh : lock.Fresh supply base) (hsuffix : ∀ n, IsSuffix (supply.suffix n))
    (hdelay : 0 < lock.pauseNanos) : watch.InForce lock base := by
  induction h with
  | start =>
    exact ⟨⟨false, .inl ⟨rfl, .clean, hfresh.notHeld⟩⟩, nofun, nofun,
      fun _ hwithin => absurd hwithin (Lock.not_within_base hfresh.sound), nofun, fun _ => ⟨Nat.zero_le 1, nofun⟩⟩
  | call occasion _ hbears ih => exact ih.perform hfresh hsuffix hdelay hbears

/-! ## What guards guard -/

/-- The lock is still acquired as it was when the guard was given, and the handle finds that it holds it, if
requests take the path of the held marker. -/
structure Lock.LiveGuard.Guards (supply : Supply) (programs : Machine.Programs) (lock : Lock) (live : LiveGuard)
    (machine : Machine) : Prop where
  tree : machine.tree = live.tree
  held : (lock.isHeld.run (Machine.answer supply programs) machine).1 = true ↔ lock.heldFile.check = .ok ()

/-- What the handle acquired then still stands: it was acquired last, and the tree is as that acquisition left it. -/
structure Lock.Watch.Holds (watch : Watch) (number : Nat) : Prop where
  last : watch.acquired.length = number + 1
  tree : watch.acquired[number]? = some watch.machine.tree

/-- What the guards that have not gone away do for the lock. -/
structure Lock.Watch.Guarded (supply : Supply) (programs : Machine.Programs) (lock : Lock) (watch : Watch) :
    Prop where
  /-- A guard guards the lock as long as the handle is not told to release it and no other guard goes away. -/
  undisturbed : ∀ live ∈ watch.guards, live.Undisturbed → live.Guards supply programs lock watch.machine
  /-- A guard that goes away does what a release does if the handle holds the lock, and nothing otherwise. -/
  drop : ∀ live ∈ watch.guards, ∀ last,
    live.guard.drop.run (Machine.answer supply programs) watch.machine = ((), last) →
    ((lock.isHeld.run (Machine.answer supply programs) watch.machine).1 = true →
      last.tree = (lock.unlock.run (Machine.answer supply programs) watch.machine).2.tree) ∧
    ((lock.isHeld.run (Machine.answer supply programs) watch.machine).1 = false →
      last.tree = watch.machine.tree)
  /-- What the handle holds is what it acquired last. A guard was given for that acquisition, or for an earlier one,
  and then the handle was told to release the lock since or another guard has gone away. -/
  latest : (lock.isHeld.run (Machine.answer supply programs) watch.machine).1 = true → ∃ number,
    watch.Holds number ∧ ∀ live ∈ watch.guards,
      live.acquisition = number ∨ live.acquisition < number ∧ ¬ live.Undisturbed
  /-- If the handle was never told to release the lock while a guard was alive, there is one guard at most, and it
  guards the lock. -/
  alone : watch.bypassed = false → ∀ live ∈ watch.guards,
    watch.guards = [live] ∧ live.Guards supply programs lock watch.machine

/-- A guard that was not given for what the handle holds was given for something that it held before. -/
theorem Lock.Watch.InForce.holds (h : watch.InForce lock base) (hheld : lock.IsHeldAt watch.machine) :
    ∃ number, watch.Holds number ∧ ∀ live ∈ watch.guards,
      live.acquisition = number ∨ live.acquisition < number ∧ ¬ live.Undisturbed := by
  obtain ⟨left, hwithout | hwithin⟩ := h.stands
  · exact absurd hheld hwithout.notHeld
  have hlast := h.latest left hwithin
  have hsome : watch.acquired ≠ [] := by
    rintro hnil
    rw [hnil] at hlast
    cases hlast
  obtain ⟨number, hnumber⟩ := Nat.exists_eq_succ_of_ne_zero (mt List.length_eq_zero_iff.1 hsome)
  refine ⟨number, ⟨hnumber, ?_⟩, fun live hmem => ?_⟩
  · rwa [List.getLast?_eq_getElem?, hnumber] at hlast
  have hlt := h.numbered live hmem
  rw [hnumber] at hlt
  rcases Nat.lt_succ_iff_lt_or_eq.1 hlt with hearlier | hsame
  · refine .inr ⟨hearlier, fun hundisturbed => ?_⟩
    obtain ⟨-, hown, -⟩ := h.undisturbed live hmem hundisturbed
    rw [hnumber] at hown
    exact Nat.ne_of_lt hearlier (Nat.succ.inj hown)
  · exact .inl hsame

/-- Whatever the owner of a handle calls, and whatever befalls the requests of the calls. -/
theorem Lock.Watch.Reached.guarded (h : Lock.Watch.Reached supply programs lock base watch)
    (hfresh : lock.Fresh supply base) (hsuffix : ∀ n, IsSuffix (supply.suffix n))
    (hvalid : lock.config.validate = .ok ()) : watch.Guarded supply programs lock := by
  have hforce := h.inForce hfresh hsuffix (Lock.pauseNanos_pos hvalid)
  have hguards : ∀ live ∈ watch.guards, live.Undisturbed → live.Guards supply programs lock watch.machine := by
    intro live hmem hlive
    obtain ⟨htree, -, left, hwithin⟩ := hforce.undisturbed live hmem hlive
    exact ⟨htree, (lock.isHeld_run _).trans ⟨fun hheld => hheld.check, hwithin.isHeldAt⟩⟩
  refine ⟨hguards, fun live hmem last hrun => ?_, fun hheld => ?_, fun hbypassed live hmem => ?_⟩
  · have hdropped := @Guard.yields_drop supply programs watch.machine (Guard.of lock) rfl
    rw [hforce.handle live hmem] at hrun
    rw [Yields, hrun] at hdropped
    refine ⟨fun hheld => hdropped.1 ((lock.isHeld_run _).1 hheld), fun hnot => hdropped.2 fun hheld => ?_⟩
    exact Bool.false_ne_true (hnot.symm.trans ((lock.isHeld_run _).2 hheld))
  · exact hforce.holds ((lock.isHeld_run _).1 hheld)
  · obtain ⟨hlength, hall⟩ := hforce.alone hbypassed
    obtain ⟨other, hone⟩ := List.length_eq_one_iff.1 (Nat.le_antisymm hlength (List.length_pos_of_mem hmem))
    have hsame : live = other := by rwa [hone, List.mem_singleton] at hmem
    exact ⟨hsame ▸ hone, hguards live hmem (hall live hmem)⟩

namespace Site

/-- An occasion on which nothing befalls the requests of the call. -/
def uneventful : Lock.Occasion := ⟨pair.claimant false, ⟨0, 0⟩, .none⟩

/-- What these calls of a handle lead to, one after the other, in a tree with nothing in it. -/
def watchAfter (lock : Lock) (calls : List Lock.Watch.Call) : Lock.Watch :=
  calls.foldl (fun watch => watch.perform pair.supply noPrograms lock uneventful)
    ⟨.ofTree .empty [] ⟨0, 0⟩, [], [], false⟩

theorem watchAfter_reached (lock : Lock) (calls : List Lock.Watch.Call) :
    Lock.Watch.Reached pair.supply noPrograms lock (.ofTree .empty [] ⟨0, 0⟩) (watchAfter lock calls) := by
  have hbears : ∀ call : Lock.Watch.Call, call.Bears uneventful.mishaps := by
    intro call
    cases call with
    | hold tries => exact Mishaps.spareCleanup_none
    | tryHold limit picks => exact Mishaps.spareCleanup_none
    | unlock => exact fun _ _ => rfl
    | release number => exact fun _ _ => rfl
    | drop number => exact fun _ _ => rfl
  exact List.foldlRecOn calls _ .start fun watch h call _ => .call _ h (hbears call)

/-- A handle is given a guard for the second time when the first has gone away. -/
def guardedTwice : Lock.Watch := watchAfter (pairLock false) [.hold 1, .drop 0, .hold 1]

/-- A handle is told to release the lock past its guard and acquires it again, and then the first guard goes
away. -/
def lateDrop : Lock.Watch := watchAfter (pairLock false) [.hold 1, .unlock, .hold 1, .drop 0]

/-- Then the handle acquires the lock once more. -/
def lateHold : Lock.Watch := watchAfter (pairLock false) [.hold 1, .unlock, .hold 1, .drop 0, .hold 1]

theorem guardedTwice_guarded :
    (∃ live, guardedTwice.guards = [live] ∧
      ((pairLock false).isHeld.run (Machine.answer pair.supply noPrograms) guardedTwice.machine).1 = true) ∧
    ∃ live ∈ lateHold.guards, live.acquisition = 1 ∧ lateHold.Holds 2 ∧ ¬ live.Undisturbed := by
  have htwice : guardedTwice.bypassed = false ∧ guardedTwice.guards.length = 1 := by decide +kernel
  have hcheck : (pairLock false).heldFile.check = .ok () := by decide +kernel
  have hvalid : (pairLock false).config.validate = .ok () := by decide
  have hguarded := Lock.Watch.Reached.guarded
    (watchAfter_reached (pairLock false) [.hold 1, .drop 0, .hold 1]) fresh_worn pair.suffix_spec hvalid
  have hlate := Lock.Watch.Reached.guarded
    (watchAfter_reached (pairLock false) [.hold 1, .unlock, .hold 1, .drop 0, .hold 1]) fresh_worn pair.suffix_spec
    hvalid
  constructor
  · obtain ⟨live, hlive⟩ := List.length_eq_one_iff.1 htwice.2
    obtain ⟨hone, hguards⟩ := hguarded.alone htwice.1 live (hlive ▸ List.mem_singleton_self live)
    exact ⟨live, hone, hguards.held.2 hcheck⟩
  · obtain ⟨hheld, hacquired, hnumbers⟩ :
        ((pairLock false).isHeld.run (Machine.answer pair.supply noPrograms) lateHold.machine).1 = true ∧
          lateHold.acquired.length = 3 ∧ lateHold.guards.map (·.acquisition) = [1, 2] := by decide +kernel
    obtain ⟨number, hholds, hcases⟩ := hlate.latest hheld
    obtain rfl : number = 2 := Nat.succ.inj (hholds.last.symm.trans hacquired)
    have hsecond : 1 ∈ lateHold.guards.map (·.acquisition) := hnumbers ▸ List.mem_cons_self
    obtain ⟨live, hmem, hnumber⟩ := List.mem_map.1 hsecond
    refine ⟨live, hmem, hnumber, hholds, ?_⟩
    rcases hcases live hmem with hsame | ⟨-, hdisturbed⟩
    · cases hnumber.symm.trans hsame
    · exact hdisturbed

theorem fresh_beyondReach : beyondReach.Fresh pair.supply (.ofTree .empty [] ⟨0, 0⟩) where
  sound := .empty
  directory := rfl
  unguessed := Lock.unguessed_empty (by decide +kernel)
  aside parent _ := by cases parent <;> rfl
  notHeld := by
    unfold Lock.IsHeldAt
    decide +kernel

/-- A guard does not always guard the lock although the handle was not told to release it since: not if an older
guard goes away, and not if requests do not take the path of the held marker. -/
theorem not_guarded :
    (¬ ∀ (lock : Lock) (base : Machine) (watch : Lock.Watch), lock.Fresh pair.supply base →
      lock.config.validate = .ok () → Lock.Watch.Reached pair.supply noPrograms lock base watch →
      ∀ live ∈ watch.guards, live.unlocked = false →
        (lock.isHeld.run (Machine.answer pair.supply noPrograms) watch.machine).1 = true) ∧
    ¬ ∀ (lock : Lock) (base : Machine) (watch : Lock.Watch), lock.Fresh pair.supply base →
      lock.config.validate = .ok () → Lock.Watch.Reached pair.supply noPrograms lock base watch →
      ∀ live ∈ watch.guards, live.Undisturbed →
        (lock.isHeld.run (Machine.answer pair.supply noPrograms) watch.machine).1 = true := by
  constructor
  · intro hall
    obtain ⟨hguard, hlost⟩ : lateDrop.guards.map (·.unlocked) = [false] ∧
        ((pairLock false).isHeld.run (Machine.answer pair.supply noPrograms) lateDrop.machine).1 = false := by
      decide +kernel
    obtain ⟨live, hone, hunlocked⟩ := List.map_eq_singleton_iff.1 hguard
    have hheld := hall (pairLock false) _ lateDrop fresh_worn (by decide)
      (watchAfter_reached (pairLock false) [.hold 1, .unlock, .hold 1, .drop 0]) live
      (hone ▸ List.mem_singleton_self live) hunlocked
    exact Bool.false_ne_true (hlost.symm.trans hheld)
  · intro hall
    obtain ⟨hguard, hblind⟩ : (watchAfter beyondReach [.hold 1]).guards.map
          (fun live => (live.unlocked, live.outlives)) = [(false, false)] ∧
        (beyondReach.isHeld.run (Machine.answer pair.supply noPrograms)
          (watchAfter beyondReach [.hold 1]).machine).1 = false := by decide +kernel
    obtain ⟨live, hone, hflags⟩ := List.map_eq_singleton_iff.1 hguard
    obtain ⟨hunlocked, houtlives⟩ := Prod.mk.inj hflags
    have hheld := hall beyondReach _ (watchAfter beyondReach [.hold 1]) fresh_beyondReach (by decide)
      (watchAfter_reached beyondReach [.hold 1]) live (hone ▸ List.mem_singleton_self live) ⟨hunlocked, houtlives⟩
    exact Bool.false_ne_true (hblind.symm.trans hheld)

end Site

end DirLock
