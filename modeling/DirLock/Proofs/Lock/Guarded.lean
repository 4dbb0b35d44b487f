import DirLock.Proofs.Lock.Scene

/-!
# Guards act for their own handle, and once

In whatever scene a history has led to: a wait for a guard gives one exactly if the lock was acquired, and
changes nothing otherwise; a guard that is told to release the lock makes one release and is done; and a guard
that goes away releases the lock if its handle still holds it, and changes nothing otherwise. So no guard ever
touches a claim with the nonce of another handle.
-/

namespace DirLock

open Disk (Tree Place Path Name Entry Fault)
open Routine (Yields)

variable {supply : Supply} {programs : Machine.Programs} {lock other : Lock} {claimant : Claimant}
  {machine after : Machine} {tree : Tree} {parent : Place} {locks : List Lock} {scene : Lock.Scene}

/-! ## Claims of others -/

/-- At the place of the lock stands a claim with the nonce of another handle. -/
structure Lock.IsForeign (lock other : Lock) (machine : Machine) (parent : Place) : Prop where
  leadsTo : machine.tree.LeadsTo machine.directory lock.parent parent
  held : machine.tree.get? (lock.claimIn parent ++ [heldBytes]) = some (.file other.nonce.bytes)
  nonce_ne : other.nonce ≠ lock.nonce

theorem Lock.IsForeign.directory (h : lock.IsForeign other machine parent) (hsound : machine.tree.Sound) :
    machine.tree.get? (lock.claimIn parent) = some .directory :=
  hsound.get?_of_append (List.cons_ne_nil _ _) h.held

theorem Lock.IsForeign.notHeld (h : lock.IsForeign other machine parent) (hsound : machine.tree.Sound) :
    ¬ lock.IsHeldAt machine := by
  intro hheld
  have hnames := (names_claimDir h.leadsTo).join hheld.short (h.directory hsound) isName_heldBytes
  have hread := hnames.readFile_of_file ⟨hheld.check, by decide⟩ h.held
  have hbytes : other.nonce.bytes = lock.nonce.bytes := Except.ok.inj (hread.symm.trans hheld)
  exact h.nonce_ne (Nonce.eq_of_bytes hbytes)

theorem Lock.IsForeign.isAt (h : lock.IsForeign other machine parent) (hsound : machine.tree.Sound)
    {outcome : Wait.Outcome LockError} (hended : lock.Attempted supply claimant machine after outcome) :
    after.IsAt machine.directory machine.tree := by
  cases hended with
  | moved hfault hkind =>
    obtain ⟨-, hfree⟩ := (names_claimDir h.leadsTo).entryKind_eq_notFound
      (Path.bytes_join_ne_nil lock.name.isName lock.parent) hfault hkind
    cases hfree.symm.trans (h.directory hsound)
  | unchanged _ hat => exact hat

/-! ## Going away -/

/-- A guard that goes away does what a release does if its handle holds the lock, and nothing otherwise. -/
theorem Guard.yields_drop (guard : Guard) (hspent : guard.spent = false) :
    Yields (Machine.answer supply programs) guard.drop machine fun _ after =>
      (guard.lock.IsHeldAt machine →
        after.tree = (guard.lock.unlock.run (Machine.answer supply programs) machine).2.tree) ∧
      (¬ guard.lock.IsHeldAt machine → after.tree = machine.tree) := by
  rw [Guard.drop, if_neg (by rw [hspent]; exact Bool.false_ne_true)]
  refine yields_isHeld.bind ?_
  rintro held machine ⟨rfl, hiff⟩
  split_ifs with htrue
  · have hunlock : Yields (Machine.answer supply programs) guard.lock.unlock machine fun _ after =>
        after.tree = (guard.lock.unlock.run (Machine.answer supply programs) machine).2.tree := rfl
    refine hunlock.bind fun result after htree => ?_
    rcases result with error | _
    · exact ⟨fun _ => htree, fun hnot => absurd (hiff.1 htrue) hnot⟩
    · exact ⟨fun _ => htree, fun hnot => absurd (hiff.1 htrue) hnot⟩
  · exact ⟨fun hheld => absurd (hiff.2 hheld) htrue, fun _ => rfl⟩

/-! ## What guards do -/

/-- What guards do next on the machine. -/
structure Lock.GuardsBehave (supply : Supply) (programs : Machine.Programs) (locks : List Lock)
    (guards : List Guard) (machine : Machine) : Prop where
  /-- A wait for a guard gives one, for its handle, exactly if the lock is acquired, in whatever order the two
  parties of the wait move. If it gives none the tree is as it was. -/
  tryHold : ∀ lock ∈ locks, ∀ claimant limit picks acquired result after last,
    (lock.tryAcquireAlong claimant limit picks).run (Machine.answer supply programs) machine =
      (acquired, after) →
    (lock.tryHoldAlong claimant limit picks).run (Machine.answer supply programs) machine = (result, last) →
      last = after ∧ (result = .ok (some (Guard.of lock)) ↔ acquired = .ok true) ∧
        ((∀ guard, result ≠ .ok (some guard)) → last.tree = machine.tree)
  /-- A guard that is told to release the lock makes the requests of one release and says what that says.
  It does nothing more, on whatever machine it goes away. -/
  release : ∀ guard ∈ guards,
    guard.release.run (Machine.answer supply programs) machine =
      (({ guard with spent := true }, (guard.lock.unlock.run (Machine.answer supply programs) machine).1),
        (guard.lock.unlock.run (Machine.answer supply programs) machine).2) ∧
    guard.release.trace (Machine.answer supply programs) machine =
      guard.lock.unlock.trace (Machine.answer supply programs) machine ∧
    ∀ later : Machine, ({ guard with spent := true } : Guard).drop.run (Machine.answer supply programs) later =
        ((), later) ∧
      ({ guard with spent := true } : Guard).drop.trace (Machine.answer supply programs) later = []
  /-- A guard that goes away unspent has the effect of a release if its handle holds the lock, and none
  otherwise. -/
  drop : ∀ guard ∈ guards, ∀ last, guard.drop.run (Machine.answer supply programs) machine = ((), last) →
    (guard.lock.IsHeldAt machine →
      last.tree = (guard.lock.unlock.run (Machine.answer supply programs) machine).2.tree) ∧
    (¬ guard.lock.IsHeldAt machine → last.tree = machine.tree)
  /-- No operation on a guard changes anything if the claim is another handle's. -/
  foreign : ∀ lock ∈ locks, ∀ other parent, lock.IsForeign other machine parent →
    (∀ spent, ((Guard.mk lock spent).release.run (Machine.answer supply programs) machine).2.tree =
        machine.tree ∧
      ((Guard.mk lock spent).drop.run (Machine.answer supply programs) machine).2.tree = machine.tree) ∧
    ∀ claimant,
      (∀ tries, ((lock.hold claimant tries).run (Machine.answer supply programs) machine).2.tree =
        machine.tree) ∧
      ∀ limit picks, ((lock.tryHoldAlong claimant limit picks).run
        (Machine.answer supply programs) machine).2.tree = machine.tree

theorem tryHold_behaves (hsound : machine.tree.Sound) (hsuffix : ∀ n, IsSuffix (supply.suffix n))
    (hdelay : 0 < lock.pauseNanos) {limit : Time.Span} {picks : List Wait.Pick} {acquired : Except LockError Bool}
    {result : Except LockError (Option Guard)} {last : Machine}
    (hacquire : (lock.tryAcquireAlong claimant limit picks).run (Machine.answer supply programs) machine =
      (acquired, after))
    (hhold : (lock.tryHoldAlong claimant limit picks).run (Machine.answer supply programs) machine =
      (result, last)) :
    last = after ∧ (result = .ok (some (Guard.of lock)) ↔ acquired = .ok true) ∧
      ((∀ guard, result ≠ .ok (some guard)) → last.tree = machine.tree) := by
  have hpersists := @persists_attempted supply programs lock claimant machine hsound hsuffix
  have hended := @yields_tryAcquireAlong _ _ _ _ _ _ hpersists limit hdelay (.start _ _ _ _) picks
  rw [Yields, hacquire] at hended
  rw [Lock.tryHoldAlong, Routine.bind_eq, Routine.run_bind, hacquire] at hhold
  obtain ⟨rfl, rfl⟩ := Prod.mk.inj hhold
  refine ⟨rfl, ?_, fun hnone => ?_⟩
  · rcases acquired with error | (_ | _)
    · exact iff_of_false (fun h => by cases h) fun h => by cases h
    · exact iff_of_false (fun h => by cases h) fun h => by cases h
    · exact iff_of_true rfl rfl
  · cases hended with
    | moved => exact absurd rfl (hnone (Guard.of lock))
    | unchanged _ hat => exact hat.tree

/-- Whatever the handles and guards of a lock have done, and whatever was removed by hand in between, guards act
for their own handles only, and only once. -/
theorem Lock.Scene.Reached.guards_behave (hsuffix : ∀ n, IsSuffix (supply.suffix n))
    (hsound : machine.tree.Sound) (hvalid : ∀ lock ∈ locks, lock.config.validate = .ok ())
    (h : Lock.Scene.Reached supply programs locks machine scene) (directory : Place) (time : Time.Instant) :
    Lock.GuardsBehave supply programs locks scene.guards (scene.begin directory time) := by
  have horder := h.inOrder hsuffix hvalid hsound
  have hnow := horder.sound
  have hpersists : ∀ (lock : Lock) claimant, lock.Persists claimant (Machine.answer supply programs)
      fun outcome after => lock.Attempted supply claimant (scene.begin directory time) after outcome :=
    fun lock claimant => @persists_attempted _ _ _ _ (scene.begin directory time) hnow hsuffix
  refine ⟨?_, ?_, ?_, ?_⟩
  · intro lock hmem claimant limit picks acquired result after last hacquire hhold
    exact @tryHold_behaves _ _ _ _ (scene.begin directory time) _ hnow hsuffix
      (Lock.pauseNanos_pos (hvalid lock hmem)) _ _ _ _ _ hacquire hhold
  · intro guard _
    refine ⟨guard.release_run _ _, ?_, fun later => ?_⟩
    · rw [Guard.release, Routine.trace_bind]
      exact List.append_nil _
    · rw [Guard.drop_of_spent rfl]
      exact ⟨rfl, rfl⟩
  · intro guard hmem last hrun
    obtain ⟨lock, -, rfl⟩ := horder.guards guard hmem
    have hended := @Guard.yields_drop supply programs (scene.begin directory time) (Guard.of lock) rfl
    rw [Yields, hrun] at hended
    exact hended
  · intro lock hmem other parent hforeign
    have hnot := hforeign.notHeld hnow
    have hfrees := @yields_unlock supply programs lock (scene.begin directory time) hnow.toOrdered
    rw [Yields] at hfrees
    have hunlock := hfrees.tree_eq_of_not_isHeldAt hnot
    refine ⟨fun spent => ⟨?_, ?_⟩, fun claimant => ⟨fun tries => ?_, fun limit picks => ?_⟩⟩
    · rw [Guard.release_run]
      exact hunlock
    · cases spent with
      | true =>
        rw [Guard.drop_of_spent rfl]
        rfl
      | false =>
        exact (@Guard.yields_drop supply programs (scene.begin directory time) (Guard.of lock) rfl).2 hnot
    · have hended := yields_hold (hpersists lock claimant) (.start _ _ _ _) tries
      exact (hforeign.isAt hnow hended.1).tree
    · have hended := @yields_tryHoldAlong _ _ _ _ _ _ (hpersists lock claimant) limit
        (Lock.pauseNanos_pos (hvalid lock hmem)) (.start _ _ _ _) picks
      exact (hforeign.isAt hnow hended.1).tree

namespace Site

/-- A handle is given a guard, in a tree with nothing in it. -/
def guardGiven : Lock.Scene :=
  Lock.Scene.perform pair.supply noPrograms ⟨.ofTree .empty [] ⟨0, 0⟩, []⟩ [] ⟨0, 0⟩
    (.task (pairLock false) (pair.claimant false) (.hold 1))

def guardOutlived : Lock.Scene :=
  guardGiven.perform pair.supply noPrograms [] ⟨0, 0⟩ (.clear (.ofString "/a"))

def takenOver : Lock.Scene :=
  guardOutlived.perform pair.supply noPrograms [] ⟨0, 0⟩
    (.task (pairLock true) (pair.claimant true) (.once .tryClaim))

theorem takenOver_reached : Lock.Scene.Reached pair.supply noPrograms [pairLock false, pairLock true]
    (.ofTree .empty [] ⟨0, 0⟩) takenOver := by
  have hroot : ∀ tree : Tree, tree.get? [] = some .directory := fun tree => if_pos rfl
  have hgiven : Lock.Scene.Reached pair.supply noPrograms [pairLock false, pairLock true]
      (.ofTree .empty [] ⟨0, 0⟩) guardGiven := by
    rw [guardGiven]
    exact .act _ .start (hroot _) (List.mem_cons_self ..)
  have houtlived : Lock.Scene.Reached pair.supply noPrograms [pairLock false, pairLock true]
      (.ofTree .empty [] ⟨0, 0⟩) guardOutlived := by
    rw [guardOutlived]
    exact .act _ hgiven (hroot _) trivial
  rw [takenOver]
  exact .act _ houtlived (hroot _) (List.mem_cons_of_mem _ (List.mem_cons_self ..))

/-- The guard is still there, and leaves the claim of the other handle alone when it goes away. -/
theorem takenOver_guards_behave :
    takenOver.guards = [Guard.of (pairLock false)] ∧ (pairLock true).IsHeldAt (takenOver.begin [] ⟨0, 0⟩) ∧
      ((Guard.mk (pairLock false) false).drop.run (Machine.answer pair.supply noPrograms)
        (takenOver.begin [] ⟨0, 0⟩)).2.tree = (takenOver.begin [] ⟨0, 0⟩).tree := by
  have hvalid : ∀ lock ∈ [pairLock false, pairLock true], lock.config.validate = .ok () := by decide
  have hleads : (takenOver.begin [] ⟨0, 0⟩).tree.LeadsTo (takenOver.begin [] ⟨0, 0⟩).directory
      (pairLock false).parent [] := by
    unfold Tree.LeadsTo
    decide +kernel
  obtain ⟨hguards, hmarked⟩ : takenOver.guards = [Guard.of (pairLock false)] ∧
      (takenOver.begin [] ⟨0, 0⟩).tree.get? ((pairLock false).claimIn [] ++ [heldBytes]) =
        some (.file (pairLock true).nonce.bytes) := by decide +kernel
  have hheld : (pairLock true).IsHeldAt (takenOver.begin [] ⟨0, 0⟩) := by
    unfold Lock.IsHeldAt
    decide +kernel
  have hbehave := @Lock.Scene.Reached.guards_behave _ _ _ _ _ pair.suffix_spec .empty hvalid takenOver_reached
    [] ⟨0, 0⟩
  obtain ⟨hleaves, -⟩ := hbehave.foreign (pairLock false) (List.mem_cons_self ..) (pairLock true) []
    ⟨hleads, hmarked, by decide⟩
  exact ⟨hguards, hheld, (hleaves false).2⟩

end Site

end DirLock
