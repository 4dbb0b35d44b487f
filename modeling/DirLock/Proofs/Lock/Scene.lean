import DirLock.Proofs.Lock.Turn
import DirLock.Session.Outsider

/-!
# Handles, guards and somebody who clears up

Any number of handles and guards are used one after the other, and claims are removed by hand in between.
Whatever is done, every entry goes on standing in a directory, and every guard that has not gone away is for a
handle that acquired its lock and has not been told to release it.
-/

namespace DirLock

open Disk (Tree Place Path Name Entry Fault)
open Routine (Yields)

/-! ## Guards -/

theorem Guard.release_run {σ : Type} (answer : (r : Request) → σ → r.Reply × σ) (guard : Guard) (state : σ) :
    guard.release.run answer state = (({ guard with spent := true }, (guard.lock.unlock.run answer state).1),
      (guard.lock.unlock.run answer state).2) := by
  rw [Guard.release, Routine.bind_eq, Routine.run_bind]
  rfl

theorem Guard.drop_of_spent {guard : Guard} (h : guard.spent = true) : guard.drop = pure () := by
  rw [Guard.drop, if_pos h]

/-! ## Entries stand in directories -/

theorem Disk.Tree.Sound.rename {tree after : Tree} {cwd : Place} {source target : Path} (h : tree.Sound)
    (hcwd : tree.get? cwd = some .directory) (hok : tree.rename cwd source target = .ok after) : after.Sound := by
  obtain ⟨sourceDir, sourceName, targetDir, targetName, -, htarget, hmoved⟩ := Tree.rename_eq_ok hok
  rcases hmoved with ⟨-, rfl⟩ | ⟨hin, -, -, -, rfl⟩
  · exact h
  · obtain ⟨-, -, left, hleads⟩ := Tree.seekParent_eq_ok htarget
    have hdir : tree.get? targetDir = some .directory := hleads.get?_eq h (Tree.get?_start hcwd _)
    exact h.move (List.concat_ne_nil _ _) (List.concat_ne_nil _ _) (by rwa [List.dropLast_concat])
      (by rwa [List.dropLast_concat])

variable {supply : Supply} {programs : Machine.Programs} {lock : Lock} {claimant : Claimant}
  {machine after : Machine} {tree : Tree}

/-- The requests that look, write down what is done, or take entries away. -/
def Request.Shrinks : Request → Prop
  | .entryKind _ => True
  | .readFile _ => True
  | .removals _ => True
  | .remove _ => True
  | .unlink _ => True
  | .note _ => True
  | _ => False

theorem sound_of_shrinks {α : Type} {routine : Routine α} (huses : routine.Uses Request.Shrinks)
    (h : machine.tree.Sound) : (routine.run (Machine.answer supply programs) machine).2.tree.Sound := by
  have hchange : ∀ {state : Machine} {result : Except Fault Tree}, state.tree.Sound →
      (∀ after, result = .ok after → after.Sound) → (state.change result).2.tree.Sound := by
    intro state result hstate hresult
    cases result with
    | error fault => exact hstate
    | ok after => exact hresult after rfl
  have hstep : ∀ r (state : Machine), r.Shrinks → state.tree.Sound →
      (Machine.answer supply programs r state).2.tree.Sound := by
    intro r state hr hstate
    cases r with
    | remove step =>
      rw [Machine.answer_remove]
      exact hchange hstate fun after hok => hstate.remove hok
    | unlink path => exact hchange hstate fun after hok => hstate.unlink hok
    | entryKind path => exact hstate
    | readFile path => exact hstate
    | removals path => exact hstate
    | note event => exact hstate
    | _ => exact hr.elim
  exact huses.run_induction hstep h

theorem Request.Looks.shrinks {r : Request} (h : r.Looks) : r.Shrinks := by
  cases r with
  | entryKind path => trivial
  | readFile path => trivial
  | _ => exact h.elim

theorem Request.Removes.shrinks {r : Request} (h : r.Removes) : r.Shrinks := by
  cases r with
  | removals path => trivial
  | remove step => trivial
  | _ => exact h.elim

/-! ## What is done -/

theorem sound_unlock (h : machine.tree.Sound) (hcwd : machine.tree.get? machine.directory = some .directory) :
    Yields (Machine.answer supply programs) lock.unlock machine fun _ after => after.tree.Sound := by
  refine yields_isHeld.bind ?_
  rintro held after ⟨rfl, -⟩
  cases held with
  | false => exact h
  | true =>
    cases hrename : after.tree.rename after.directory lock.claimDir lock.releasedDir with
    | error fault => exact yields_of_answer (change_error hrename) h
    | ok tree =>
      refine yields_of_answer (change_ok hrename) (@yields_of_answer _ _ _ _ _ _ _ () _ rfl ?_)
      let moved := { after with tree }
      have huses : lock.deleteReleased.Uses Request.Shrinks :=
        ((uses_removeTree_removes _).mono fun _ => Request.Removes.shrinks).bind
          fun result => by rcases result with fault | _ <;> trivial
      let noted := moved.write (.event moved.clock (.released lock.name.text))
      exact @sound_of_shrinks supply programs noted _ _ huses (h.rename hcwd hrename)

theorem sound_release (spent : Bool) (h : machine.tree.Sound)
    (hcwd : machine.tree.get? machine.directory = some .directory) :
    Yields (Machine.answer supply programs) (Guard.mk lock spent).release machine fun _ after => after.tree.Sound :=
  (sound_unlock h hcwd).bind fun _ _ hafter => hafter

theorem sound_drop (spent : Bool) (h : machine.tree.Sound)
    (hcwd : machine.tree.get? machine.directory = some .directory) :
    Yields (Machine.answer supply programs) (Guard.mk lock spent).drop machine fun _ after => after.tree.Sound := by
  rw [Guard.drop]
  split_ifs
  · exact h
  · refine yields_isHeld.bind ?_
    rintro held after ⟨rfl, -⟩
    split_ifs
    · refine (sound_unlock h hcwd).bind fun result last hlast => ?_
      rcases result with error | _ <;> exact hlast
    · exact h

theorem Lock.Attempted.sound {outcome : Wait.Outcome LockError}
    (h : lock.Attempted supply claimant machine after outcome) (hsound : machine.tree.Sound)
    (hcwd : machine.tree.get? machine.directory = some .directory) : after.tree.Sound := by
  cases h with
  | moved _ _ _ _ hdraft hrename =>
    exact hdraft.sound.rename (by rw [hdraft.directory]; exact hdraft.within _ _ hcwd) hrename
  | unchanged _ hat => exact hat.tree ▸ hsound

/-! ## Waiting -/

theorem persists_attempted (hsound : machine.tree.Sound) (hsuffix : ∀ n, IsSuffix (supply.suffix n)) :
    lock.Persists claimant (Machine.answer supply programs)
      fun outcome after => lock.Attempted supply claimant machine after outcome where
  attempt {state} hlost := by
    have hattempted : Yields (Machine.answer supply programs) (lock.tryClaim claimant) state
        fun outcome after => lock.Attempted supply claimant state after outcome := by
      refine (@yields_of_none _ _ _ ⟨state, 0⟩ _ fun outcome after =>
        lock.Attempted supply claimant state after outcome).2 ?_
      exact yields_tryClaim_attempted Mishaps.spareCleanup_none (hlost.isAt.tree ▸ hsound) hsuffix
    exact hattempted.mono fun _ _ hended => hended.after_lost hlost
  pause _ hended := hended.congr rfl rfl (Nat.le_refl _)
  note _ hended := hended.congr rfl rfl (Nat.le_refl _)
  passes nanos _ := Nat.le_refl nanos

theorem persists_plain (hsound : machine.tree.Sound)
    (hcwd : machine.tree.get? machine.directory = some .directory) (hsuffix : ∀ n, IsSuffix (supply.suffix n))
    (hunguessed : lock.Unguessed supply machine.tree) :
    lock.Persists claimant (Machine.answer supply programs)
      fun outcome after => lock.AllOrNothing claimant machine after outcome where
  attempt {state} hlost := by
    have hpersists := @persists_allOrNothing supply programs .none lock claimant machine Mishaps.spareCleanup_none
      hsound hcwd hsuffix hunguessed
    exact (@yields_of_none _ _ _ ⟨state, 0⟩ _ fun outcome after =>
      lock.AllOrNothing claimant machine after outcome).2 (hpersists.attempt hlost)
  pause _ hended := hended.congr rfl rfl
  note _ hended := hended.congr rfl rfl
  passes nanos _ := Nat.le_refl nanos

def Lock.Report.guards : Report → List Guard
  | guarded (some (.ok guard)) => [guard]
  | guardedInTime (.ok (some guard)) => [guard]
  | _ => []

section Task

variable (hsound : machine.tree.Sound) (hcwd : machine.tree.get? machine.directory = some .directory)
include hsound hcwd

omit hcwd in
theorem sound_looks {α : Type} {routine : Routine α} (huses : routine.Uses Request.Looks)
    {f : α → Lock.Report} (hguards : ∀ value, (f value).guards = []) :
    Yields (Machine.answer supply programs) (routine >>= fun value => pure (f value)) machine
      fun report after => after.tree.Sound ∧ ∀ guard ∈ report.guards, guard = Guard.of lock := by
  have hafter : Yields (Machine.answer supply programs) routine machine fun _ after => after.tree.Sound :=
    sound_of_shrinks (huses.mono fun _ => Request.Looks.shrinks) hsound
  refine hafter.bind fun value after h => ⟨h, ?_⟩
  show ∀ guard ∈ (f value).guards, guard = Guard.of lock
  rw [hguards]
  exact fun _ hmem => absurd hmem List.not_mem_nil

theorem sound_task (hsuffix : ∀ n, IsSuffix (supply.suffix n)) (hdelay : 0 < lock.pauseNanos) (task : Lock.Task) :
    Yields (Machine.answer supply programs) (task.routine lock claimant) machine
      fun report after => after.tree.Sound ∧ ∀ guard ∈ report.guards, guard = Guard.of lock := by
  have hpersists := @persists_attempted supply programs lock claimant machine hsound hsuffix
  have hstart : lock.Attempted supply claimant machine machine (.ok false) := .start _ _ _ _
  cases task with
  | once operation =>
    cases operation with
    | tryClaim =>
      exact (hpersists.attempt hstart).bind fun _ _ hended => ⟨hended.sound hsound hcwd, nofun⟩
    | isHeld => exact sound_looks hsound (uses_isHeld_looks lock) fun _ => rfl
    | isLocked => exact sound_looks hsound (uses_isLocked_looks lock) fun _ => rfl
    | holder => exact sound_looks hsound (uses_holder_looks lock) fun _ => rfl
    | unlock => exact (sound_unlock hsound hcwd).bind fun _ _ hafter => ⟨hafter, nofun⟩
    | release spent => exact (sound_release spent hsound hcwd).bind fun _ _ hafter => ⟨hafter, nofun⟩
    | drop spent => exact (sound_drop spent hsound hcwd).bind fun _ _ hafter => ⟨hafter, nofun⟩
  | acquire tries =>
    exact (yields_acquire hpersists hstart tries).bind fun _ _ hended => ⟨hended.sound hsound hcwd, nofun⟩
  | tryAcquire limit =>
    exact (yields_tryAcquire hpersists hdelay hstart).bind fun _ _ hended => ⟨hended.sound hsound hcwd, nofun⟩
  | hold tries =>
    refine (yields_hold hpersists hstart tries).bind fun result _ hended => ⟨hended.1.sound hsound hcwd, ?_⟩
    rcases result with _ | (error | guard)
    · exact nofun
    · exact nofun
    · intro other hmem
      rw [List.mem_singleton.1 hmem]
      exact hended.2 guard rfl
  | tryHold limit =>
    refine (yields_tryHold hpersists hdelay hstart).bind fun result _ hended => ⟨hended.1.sound hsound hcwd, ?_⟩
    rcases result with error | (_ | guard)
    · exact nofun
    · exact nofun
    · intro other hmem
      rw [List.mem_singleton.1 hmem]
      exact hended.2 guard rfl

end Task

theorem sound_clear (h : machine.tree.Sound) (path : Path) :
    ((Outsider.remove path).routine.run (Machine.answer supply programs) machine).2.tree.Sound := by
  refine sound_of_shrinks (Routine.uses_request_bind trivial fun reply => ?_) h
  rcases reply with fault | (_ | _ | _)
  · trivial
  · exact Routine.uses_request.2 trivial
  · exact (uses_removeTree_removes path).mono fun _ => Request.Removes.shrinks
  · exact Routine.uses_request.2 trivial

/-! ## Histories -/

/-- A machine, and the guards that were given and have not gone away, oldest first. -/
structure Lock.Scene where
  machine : Machine
  guards : List Guard

/-- What can be done: a handle is told to do something, a guard is told to release the lock and goes away, a
guard goes away, or somebody removes something by hand. Guards are numbered from the oldest. -/
inductive Lock.Act where
  | task (lock : Lock) (claimant : Claimant) (task : Task)
  | release (number : Nat)
  | drop (number : Nat)
  | clear (path : Path)

def Lock.Act.IsBy (locks : List Lock) : Act → Prop
  | task lock _ _ => lock ∈ locks
  | _ => True

namespace Lock.Scene

/-- The machine when the next act begins, in this directory and at this time. -/
def begin (scene : Scene) (directory : Place) (time : Time.Instant) : Machine :=
  { scene.machine with directory, clock := time }

/-- The scene when the act is over. A guard that has released the lock goes away at once. -/
def perform (supply : Supply) (programs : Machine.Programs) (scene : Scene) (directory : Place)
    (time : Time.Instant) : Act → Scene
  | .task lock claimant task =>
    let (report, machine) := (task.routine lock claimant).run (Machine.answer supply programs)
      (scene.begin directory time)
    ⟨machine, scene.guards ++ report.guards⟩
  | .release number =>
    match scene.guards[number]? with
    | none => ⟨scene.begin directory time, scene.guards⟩
    | some guard =>
      let released := guard.release.run (Machine.answer supply programs) (scene.begin directory time)
      ⟨(released.1.1.drop.run (Machine.answer supply programs) released.2).2, scene.guards.eraseIdx number⟩
  | .drop number =>
    match scene.guards[number]? with
    | none => ⟨scene.begin directory time, scene.guards⟩
    | some guard => ⟨(guard.drop.run (Machine.answer supply programs) (scene.begin directory time)).2,
        scene.guards.eraseIdx number⟩
  | .clear path => ⟨((Outsider.remove path).routine.run (Machine.answer supply programs)
      (scene.begin directory time)).2, scene.guards⟩

/-- The scenes to which the acts of these handles and of their guards can lead, in any order, each begun in a
directory that is there. -/
inductive Reached (supply : Supply) (programs : Machine.Programs) (locks : List Lock) (machine : Machine) :
    Scene → Prop
  | start : Reached supply programs locks machine ⟨machine, []⟩
  | act {scene : Scene} {directory : Place} (time : Time.Instant) {act : Act} :
    Reached supply programs locks machine scene →
    scene.machine.tree.get? directory = some .directory → act.IsBy locks →
    Reached supply programs locks machine (scene.perform supply programs directory time act)

/-- What every act keeps: entries stand in directories, and each guard is for one of the handles and has not been told
to release the lock. -/
structure InOrder (locks : List Lock) (scene : Scene) : Prop where
  sound : scene.machine.tree.Sound
  guards : ∀ guard ∈ scene.guards, ∃ lock ∈ locks, guard = Guard.of lock

end Lock.Scene

section History

variable {locks : List Lock} {scene : Lock.Scene} (hsuffix : ∀ n, IsSuffix (supply.suffix n))
  (hvalid : ∀ lock ∈ locks, lock.config.validate = .ok ())
include hsuffix hvalid

theorem Lock.Scene.InOrder.perform (h : scene.InOrder locks) {directory : Place} (time : Time.Instant)
    (hcwd : scene.machine.tree.get? directory = some .directory) {act : Lock.Act} (hby : act.IsBy locks) :
    (scene.perform supply programs directory time act).InOrder locks := by
  have hrest : ∀ number, ∀ guard ∈ scene.guards.eraseIdx number, ∃ lock ∈ locks, guard = Guard.of lock :=
    fun number guard hmem => h.guards guard (List.mem_of_mem_eraseIdx hmem)
  cases act with
  | task lock claimant task =>
    obtain ⟨hsound, hguards⟩ := @sound_task supply programs lock claimant (scene.begin directory time)
      h.sound hcwd hsuffix (Lock.pauseNanos_pos (hvalid lock hby)) task
    refine ⟨hsound, fun guard hmem => ?_⟩
    rcases List.mem_append.1 hmem with hold | hnew
    · exact h.guards guard hold
    · exact ⟨lock, hby, hguards guard hnew⟩
  | release number =>
    rw [Lock.Scene.perform]
    split
    · exact ⟨h.sound, h.guards⟩
    · rename_i guard hguard
      have hreleased := @sound_unlock supply programs guard.lock (scene.begin directory time) h.sound hcwd
      rw [Guard.release_run]
      dsimp only
      rw [Guard.drop_of_spent rfl]
      exact ⟨hreleased, hrest number⟩
  | drop number =>
    rw [Lock.Scene.perform]
    split
    · exact ⟨h.sound, h.guards⟩
    · rename_i guard hguard
      exact ⟨@sound_drop supply programs guard.lock (scene.begin directory time) guard.spent h.sound hcwd,
        hrest number⟩
  | clear path => exact ⟨@sound_clear supply programs (scene.begin directory time) h.sound path, h.guards⟩

theorem Lock.Scene.Reached.inOrder (hsound : machine.tree.Sound)
    (h : Lock.Scene.Reached supply programs locks machine scene) : scene.InOrder locks := by
  induction h with
  | start => exact ⟨hsound, fun guard hmem => absurd hmem List.not_mem_nil⟩
  | act time _ hcwd hby ih => exact ih.perform hsuffix hvalid time hcwd hby

end History

end DirLock
