import DirLock.Proofs.Disk.Blot
import DirLock.Proofs.Lock.Task
import DirLock.Proofs.Lock.Vacate

/-!
# Ownership does not depend on the file about the holder

A claim stands in two trees that differ in nothing but the file about its holder. Whatever the handles for
the lock are told to do, one thing after the other, they report the same in both trees. As long as the claim
stands the trees stay as they are; once it is released they are the same, but for the times at which later
claims were made.
-/

namespace DirLock

open Disk (Tree Place Path Name Entry Fault)
open Disk.Tree (SameBut)
open Routine (Agree Respects agree_pure agree_request respects_request)

/-! ## One job after the other -/

/-- What a handle is told to do: by whom, and in which directory. -/
structure Lock.Job where
  lock : Lock
  claimant : Claimant
  directory : Place
  task : Lock.Task

namespace Lock.Job

def start (job : Job) (time : Time.Instant) (machine : Machine) : Machine :=
  { machine with directory := job.directory, clock := time }

/-- Do the job, beginning at this time. -/
def run (supply : Supply) (programs : Machine.Programs) (job : Job) (time : Time.Instant)
    (machine : Machine) : Report × Machine :=
  (job.task.routine job.lock job.claimant).run (Machine.answer supply programs) (job.start time machine)

/-- Do the jobs one after the other, each beginning at its time. -/
def runAll (supply : Supply) (programs : Machine.Programs) :
    List (Job × Time.Instant) → Machine → List Report × Machine
  | [], machine => ([], machine)
  | (job, time) :: rest, machine =>
    let (report, machine) := job.run supply programs time machine
    let (reports, machine) := runAll supply programs rest machine
    (report :: reports, machine)

end Lock.Job

/-- The claim of the lock stands in both trees, which have the same entries but for the file about its
holder. Each tree has any file there or nothing, and no link leads to it. -/
structure SameClaim (parent : Place) (name : LockName) (tree tree' : Tree) : Prop where
  sound : tree.Sound
  sound' : tree'.Sound
  directory : tree.get? (parent ++ [name.bytes]) = some .directory
  same : SameBut (parent ++ [name.bytes] ++ [holderBytes]) tree tree'
  unlinked : tree.Unlinked (parent ++ [name.bytes] ++ [holderBytes])

/-- The job is one for the lock of this name in this directory: the path of the parent leads there. The
handle that owns the claim gets there without passing through the claim. -/
structure Lock.Job.IsFor (job : Lock.Job) (parent : Place) (name : LockName) (machine : Machine) : Prop where
  name_eq : job.lock.name = name
  leadsTo : machine.tree.LeadsTo job.directory job.lock.parent parent
  passes : machine.tree.readFile job.directory job.lock.heldFile = .ok job.lock.nonce.bytes →
    (machine.tree.prune (parent ++ [name.bytes])).LeadsTo job.directory job.lock.parent parent
  task_ne : job.task ≠ .once .holder

/-- The machines have these trees, work in this directory and have made as many draws. -/
structure Machine.Abreast (tree tree' : Tree) (cwd : Place) (machine machine' : Machine) : Prop where
  tree : machine.tree = tree
  tree' : machine'.tree = tree'
  directory : machine.directory = cwd
  directory' : machine'.directory = cwd
  drawn : machine.drawn = machine'.drawn

variable {supply : Supply} {programs : Machine.Programs} {lock : Lock} {claimant : Claimant}
  {parent cwd : Place} {tree tree' : Tree} {machine machine' : Machine}

/-! ## While the claim stands -/

section Standing

variable (h : SameClaim parent lock.name tree tree') (hleads : tree.LeadsTo cwd lock.parent parent)
include h

theorem SameClaim.directory' : tree'.get? (parent ++ [lock.name.bytes]) = some .directory := by
  rw [← h.same.get?_eq _ (by simp), h.directory]

theorem SameClaim.get?_eq_of_not_prefix {q : Place} (hq : ¬ parent ++ [lock.name.bytes] <+: q) :
    tree.get? q = tree'.get? q := by
  refine h.same.get?_eq q ?_
  rintro rfl
  exact hq (List.prefix_append _ _)

theorem SameClaim.prune_eq :
    tree.prune (parent ++ [lock.name.bytes]) = tree'.prune (parent ++ [lock.name.bytes]) := by
  refine (h.sound.toOrdered.prune _).ext (h.sound'.toOrdered.prune _) fun q => ?_
  by_cases hq : q = []
  · simp [hq]
  · rw [Tree.get?_prune _ hq, Tree.get?_prune _ hq]
    split_ifs with hpre
    · rfl
    · rw [List.isPrefixOf_iff_prefix] at hpre
      exact h.get?_eq_of_not_prefix hpre

include hleads

theorem agree_isLocked_standing (habreast : Machine.Abreast tree tree' cwd machine machine') :
    Agree (Machine.answer supply programs) lock.isLocked machine machine'
      fun result after after' => result ≠ .ok false ∧ Machine.Abreast tree tree' cwd after after' := by
  have hleads' := h.same.leadsTo hleads
  obtain ⟨rfl, rfl, rfl, hdirectory', hdrawn⟩ := habreast
  rw [← hdirectory'] at hleads'
  refine (agree_isLocked hleads hleads' hdirectory'.symm (h.directory.trans h.directory'.symm)).mono ?_
  rintro result after after' ⟨rfl, rfl, hfree⟩
  refine ⟨fun hresult => ?_, rfl, rfl, rfl, hdirectory', hdrawn⟩
  cases h.directory.symm.trans (hfree hresult).2

theorem respects_tryClaim_standing : Respects (Machine.answer supply programs)
    (Machine.Abreast tree tree' cwd) (lock.tryClaim claimant) := by
  intro machine machine' habreast
  refine (agree_isLocked_standing h hleads habreast).bind ?_
  rintro (error | _ | _) after after' ⟨hne, habreast⟩
  · exact agree_pure habreast
  · exact absurd rfl hne
  · exact agree_request rfl rfl (agree_pure ⟨habreast.tree, habreast.tree', habreast.directory,
      habreast.directory', habreast.drawn⟩)

theorem respects_wait_standing {task : Lock.Task} (hwait : ∀ operation, task ≠ .once operation) :
    Respects (Machine.answer supply programs) (Machine.Abreast tree tree' cwd)
      (task.routine lock claimant) := by
  have hpause : ∀ nanos, Respects (Machine.answer supply programs) (Machine.Abreast tree tree' cwd)
      (Routine.request (.pause nanos)) := fun nanos =>
    respects_request fun _ _ h => ⟨rfl, h.tree, h.tree', h.directory, h.directory', h.drawn⟩
  have hnote : ∀ event, Respects (Machine.answer supply programs) (Machine.Abreast tree tree' cwd)
      (Routine.note event) := fun event =>
    respects_request fun _ _ h => ⟨rfl, h.tree, h.tree', h.directory, h.directory', h.drawn⟩
  exact respects_task (respects_tryClaim_standing h hleads) hpause hnote
    fun operation heq => absurd heq (hwait operation)

end Standing

/-! ## Releasing -/

/-- The claim is gone from both machines, and nothing is left in which they differ. -/
def Machine.Freed (claim : Place) (machine machine' : Machine) : Prop :=
  machine.Alike machine' ∧ machine.tree.get? claim = none

section Release

variable (h : SameClaim parent lock.name tree tree') (habreast : Machine.Abreast tree tree' cwd machine machine')
include h habreast

theorem replaceable_standing : machine.tree.replaceable .directory (lock.releasedIn parent) =
    machine'.tree.replaceable .directory (lock.releasedIn parent) := by
  rw [habreast.tree, habreast.tree']
  have hapart : ∀ rest, ¬ parent ++ [lock.name.bytes] <+: lock.releasedIn parent ++ rest := by
    rintro rest ⟨more, heq⟩
    rw [Lock.releasedIn, List.append_assoc, List.append_assoc] at heq
    exact lock.name.bytes_ne_releasedName lock.nonce (List.cons.inj (List.append_cancel_left heq)).1
  refine Tree.replaceable_congr ?_ (fun name => ?_) _
  · have hsame := h.get?_eq_of_not_prefix (hapart [])
    rwa [List.append_nil] at hsame
  · exact h.get?_eq_of_not_prefix (hapart [name])

theorem freed_or_abreast {after after' : Machine} (hvacated : lock.Vacated parent machine machine' after after') :
    Machine.Abreast tree tree' cwd after after' ∨
      Machine.Freed (parent ++ [lock.name.bytes]) after after' := by
  cases hvacated with
  | kept hkept hkept' =>
    exact .inl ⟨hkept.tree.trans habreast.tree, hkept'.tree.trans habreast.tree',
      hkept.directory.trans habreast.directory, hkept'.directory.trans habreast.directory',
      hkept.drawn.trans (habreast.drawn.trans hkept'.drawn.symm)⟩
  | gone hheld hgone hgone' =>
    have heq : after.tree = after'.tree := by
      rw [hgone.tree, hgone'.tree, habreast.tree, habreast.tree', Lock.claimIn, h.prune_eq]
    have hordered : after.tree.Ordered := by
      rw [hgone.tree, habreast.tree]
      exact (h.sound.toOrdered.prune _).prune _
    refine .inr ⟨⟨.of_eq fun q => by rw [heq], hordered, heq ▸ hordered, ?_, ?_⟩, ?_⟩
    · rw [hgone.directory, hgone'.directory, habreast.directory, habreast.directory']
    · rw [hgone.drawn, hgone'.drawn, habreast.drawn]
    · rw [hgone.tree, Tree.get?_prune _ (by simp), Tree.get?_prune _ (by simp)]
      simp [Lock.claimIn]

variable (hleads : tree.LeadsTo cwd lock.parent parent)
include hleads

theorem isHeldAt_iff_standing : lock.IsHeldAt machine ↔ lock.IsHeldAt machine' := by
  have hmarks : parent ++ [lock.name.bytes] ++ [heldBytes] ≠ parent ++ [lock.name.bytes] ++ [holderBytes] :=
    fun heq => absurd (List.append_cancel_left heq) (by decide)
  rw [Lock.IsHeldAt, Lock.IsHeldAt, habreast.tree, habreast.tree', habreast.directory,
    habreast.directory']
  exact h.same.readFile_join h.unlinked (names_claimDir hleads) h.directory isName_heldBytes hmarks _

variable (hpasses : tree.readFile cwd lock.heldFile = .ok lock.nonce.bytes →
    (tree.prune (lock.claimIn parent)).LeadsTo cwd lock.parent parent)
include hpasses

theorem releases_standing : lock.Releases parent machine := by
  obtain ⟨rfl, rfl, rfl, -, -⟩ := habreast
  exact Lock.releases_of_passes h.sound hleads (fun _ => h.directory) hpasses

theorem releases_standing' : lock.Releases parent machine' := by
  have hiff := isHeldAt_iff_standing h habreast hleads
  obtain ⟨rfl, rfl, rfl, hcwd, -⟩ := habreast
  refine Lock.releases_of_passes h.sound' ?_ (fun _ => h.directory') fun hheld => ?_
  · rw [hcwd]
    exact h.same.leadsTo hleads
  · rw [hcwd, Lock.claimIn, ← h.prune_eq]
    exact hpasses (hiff.2 hheld)

theorem agree_task_standing {task : Lock.Task} (htask : task ≠ .once .holder) :
    Agree (Machine.answer supply programs) (task.routine lock claimant) machine machine'
      fun _ after after' => Machine.Abreast tree tree' cwd after after' ∨
        Machine.Freed (parent ++ [lock.name.bytes]) after after' := by
  have hreleases := releases_standing h habreast hleads hpasses
  have hreleases' := releases_standing' h habreast hleads hpasses
  have hdirectory : machine.directory = machine'.directory :=
    habreast.directory.trans habreast.directory'.symm
  have hheld := isHeldAt_iff_standing h habreast hleads
  have hmay := replaceable_standing h habreast
  have hvacated := fun after after' => @freed_or_abreast _ _ _ _ _ _ _ h habreast after after'
  have hwait : ∀ {task : Lock.Task}, (∀ operation, task ≠ .once operation) →
      Agree (Machine.answer supply programs) (task.routine lock claimant) machine machine'
        fun _ after after' => Machine.Abreast tree tree' cwd after after' ∨
          Machine.Freed (parent ++ [lock.name.bytes]) after after' := fun hwaits =>
    (respects_wait_standing h hleads hwaits _ _ habreast).mono fun _ _ _ => .inl
  cases task with
  | once operation =>
    cases operation with
    | holder => exact absurd rfl htask
    | tryClaim =>
      exact (respects_tryClaim_standing h hleads _ _ habreast).bind fun _ _ _ hafter =>
        agree_pure (.inl hafter)
    | isLocked =>
      exact (agree_isLocked_standing h hleads habreast).bind fun _ _ _ hafter =>
        agree_pure (.inl hafter.2)
    | isHeld =>
      refine (agree_isHeld hreleases hreleases' hdirectory hheld).bind ?_
      rintro held _ _ ⟨rfl, rfl, -⟩
      exact agree_pure (.inl habreast)
    | unlock =>
      exact (agree_unlock hreleases hreleases' hdirectory hheld hmay).bind fun _ _ _ hafter =>
        agree_pure (hvacated _ _ hafter)
    | release spent =>
      exact (agree_release hreleases hreleases' hdirectory hheld hmay spent).bind fun _ _ _ hafter =>
        agree_pure (hvacated _ _ hafter)
    | drop spent =>
      exact (agree_drop hreleases hreleases' hdirectory hheld hmay spent).bind fun _ _ _ hafter =>
        agree_pure (hvacated _ _ hafter)
  | acquire tries => exact hwait (by simp)
  | tryAcquire limit => exact hwait (by simp)
  | hold tries => exact hwait (by simp)
  | tryHold limit => exact hwait (by simp)

end Release

/-! ## Runs -/

theorem Machine.Alike.start (halike : machine.Alike machine') (job : Lock.Job) (time time' : Time.Instant) :
    (job.start time machine).Alike (job.start time' machine') :=
  ⟨halike.tree, halike.ordered, halike.ordered', rfl, halike.drawn⟩

namespace Lock.Job

/-- A job to be done on two machines, with the times at which it begins on each. -/
abbrev Twice := Job × Time.Instant × Time.Instant

/-- The jobs as the first machine does them. -/
def first (jobs : List Twice) : List (Job × Time.Instant) := jobs.map fun job => (job.1, job.2.1)

/-- The jobs as the second machine does them. -/
def second (jobs : List Twice) : List (Job × Time.Instant) := jobs.map fun job => (job.1, job.2.2)

variable {jobs : List Twice} {name : LockName}

theorem runAll_alike (halike : machine.Alike machine') (htask : ∀ job ∈ jobs, job.1.task ≠ .once .holder) :
    (runAll supply programs (first jobs) machine).1 = (runAll supply programs (second jobs) machine').1 ∧
      (runAll supply programs (first jobs) machine).2.Alike
        (runAll supply programs (second jobs) machine').2 := by
  induction jobs generalizing machine machine' with
  | nil => exact ⟨rfl, halike⟩
  | cons job rest ih =>
    obtain ⟨job, time, time'⟩ := job
    obtain ⟨hreport, hafter⟩ := @isBlind_task job.lock job.claimant supply programs _
      (htask _ List.mem_cons_self) _ _ (halike.start job time time')
    obtain ⟨hreports, hend⟩ := ih hafter fun job hmem => htask job (List.mem_cons_of_mem _ hmem)
    exact ⟨congrArg₂ List.cons hreport hreports, hend⟩

/-- What has become of the claim when two machines have done the jobs. -/
inductive Since (supply : Supply) (programs : Machine.Programs) (claim : Place) (jobs : List Twice)
    (machine machine' : Machine) : Prop
  /-- It still stands, and neither tree has changed. -/
  | standing : (runAll supply programs (first jobs) machine).2.tree = machine.tree →
    (runAll supply programs (second jobs) machine').2.tree = machine'.tree →
    Since supply programs claim jobs machine machine'
  /-- Up to some job neither tree changed. That job released it, and the trees have been the same since, but
  for the times of later claims. -/
  | released (before : List Twice) (job : Twice) (later : List Twice) : jobs = before ++ job :: later →
    (runAll supply programs (first before) machine).2.tree = machine.tree →
    (runAll supply programs (second before) machine').2.tree = machine'.tree →
    (runAll supply programs (first (before ++ [job])) machine).2.tree.get? claim = none →
    (runAll supply programs (second (before ++ [job])) machine').2.tree.get? claim = none →
    (runAll supply programs (first jobs) machine).2.tree.Alike Holder.SameRecord
      (runAll supply programs (second jobs) machine').2.tree →
    Since supply programs claim jobs machine machine'

theorem Since.cons {claim : Place} {job : Twice} {after after' : Machine}
    (hafter : after = (job.1.run supply programs job.2.1 machine).2)
    (hafter' : after' = (job.1.run supply programs job.2.2 machine').2)
    (htree : after.tree = machine.tree) (htree' : after'.tree = machine'.tree)
    (h : Since supply programs claim jobs after after') :
    Since supply programs claim (job :: jobs) machine machine' := by
  subst hafter hafter'
  cases h with
  | standing hend hend' => exact .standing (hend.trans htree) (hend'.trans htree')
  | released before at_ later heq hbefore hbefore' hgone hgone' halike =>
    exact .released (job :: before) at_ later (by rw [heq, List.cons_append]) (hbefore.trans htree)
      (hbefore'.trans htree') hgone hgone' halike

/-- A claim stands in two trees that differ in the file about its holder, and in nothing else. Then jobs for
the lock report the same on both machines. As long as the claim stands no tree changes; when it has been
released the trees are the same, but for the times of later claims. -/
theorem runAll_unread (h : SameClaim parent name machine.tree machine'.tree)
    (hdrawn : machine.drawn = machine'.drawn)
    (hjobs : ∀ job ∈ jobs, job.1.IsFor parent name machine) :
    (runAll supply programs (first jobs) machine).1 = (runAll supply programs (second jobs) machine').1 ∧
      Since supply programs (parent ++ [name.bytes]) jobs machine machine' := by
  induction jobs generalizing machine machine' with
  | nil => exact ⟨rfl, .standing rfl rfl⟩
  | cons job rest ih =>
    obtain ⟨hname, hleads, hpasses, htask⟩ := hjobs _ List.mem_cons_self
    subst hname
    have habreast : Machine.Abreast machine.tree machine'.tree job.1.directory
        (job.1.start job.2.1 machine) (job.1.start job.2.2 machine') := ⟨rfl, rfl, rfl, rfl, hdrawn⟩
    obtain ⟨hreport, hafter⟩ := @agree_task_standing supply programs _ job.1.claimant _ _ _ _ _ _ h habreast
      hleads hpasses _ htask
    rcases hafter with habreast | ⟨halike, hgone⟩
    · obtain ⟨hreports, hsince⟩ := @ih (job.1.run supply programs job.2.1 machine).2
        (job.1.run supply programs job.2.2 machine').2
        (by rw [run, run, habreast.tree, habreast.tree']; exact h) habreast.drawn fun other hmem => by
          obtain ⟨hname, hleads, hpasses, htask⟩ := hjobs other (List.mem_cons_of_mem _ hmem)
          rw [← habreast.tree] at hleads hpasses
          exact ⟨hname, hleads, hpasses, htask⟩
      exact ⟨congrArg₂ List.cons hreport hreports, hsince.cons rfl rfl habreast.tree habreast.tree'⟩
    · obtain ⟨hreports, hend⟩ := @runAll_alike supply programs _ _ rest halike
        fun other hmem => (hjobs other (List.mem_cons_of_mem _ hmem)).task_ne
      refine ⟨congrArg₂ List.cons hreport hreports, .released [] job rest rfl rfl rfl hgone ?_ hend.tree⟩
      exact (halike.tree _).none_iff.1 hgone

end Lock.Job

/-! ## A claim with a word in it -/

namespace Site

/-- The claim of a handle at the root, with this file about its holder. -/
def toldTree (content : Option (List UInt8)) : Tree where
  entries := ([[0x61]], .directory) :: ([[0x61], heldBytes], .file (List.replicate 20 0)) ::
    (content.map fun content => ([[0x61], holderBytes], Entry.file content)).toList

def toldMachine (content : Option (List UInt8)) : Machine := .ofTree (toldTree content) [] ⟨0, 0⟩

theorem sameClaim_told : SameClaim [] ⟨"a", by decide⟩ (toldMachine (some [1])).tree (toldMachine none).tree where
  sound := ⟨⟨by decide, by decide⟩, by decide⟩
  sound' := ⟨⟨by decide, by decide⟩, by decide⟩
  directory := by decide
  same := by
    refine ⟨fun q hq => ?_, .inr ⟨[1], by decide⟩, .inl (by decide)⟩
    simp only [Tree.get?, Tree.lookup, toldMachine, Machine.ofTree, toldTree, Option.map_some,
      Option.map_none, Option.toList]
    split_ifs with _ _ _ hat
    · rfl
    · rfl
    · rfl
    · exact absurd hat.symm hq
    · rfl
  unlinked := Tree.Ordered.unlinked ⟨by decide, by decide⟩ (by decide) _

/-- The other party looks, the holder releases, the other party claims the lock. -/
def handedOver : List Lock.Job.Twice :=
  [(⟨pairLock true, pair.claimant true, [], .once .isLocked⟩, ⟨0, 0⟩, ⟨0, 0⟩),
    (⟨pairLock false, pair.claimant false, [], .once .unlock⟩, ⟨1, 0⟩, ⟨5, 0⟩),
    (⟨pairLock true, pair.claimant true, [], .tryAcquire ⟨1, 0⟩⟩, ⟨2, 0⟩, ⟨6, 0⟩)]

theorem handedOver_unread :
    (Lock.Job.runAll pair.supply noPrograms (Lock.Job.first handedOver)
        (toldMachine (some [1]))).1 =
      (Lock.Job.runAll pair.supply noPrograms (Lock.Job.second handedOver)
        (toldMachine none)).1 ∧
      Lock.Job.Since pair.supply noPrograms [[0x61]] handedOver
        (toldMachine (some [1])) (toldMachine none) := by
  refine Lock.Job.runAll_unread sameClaim_told rfl fun job hmem => ?_
  have hleads : ∀ lock ∈ [pairLock true, pairLock false],
      (toldMachine (some [1])).tree.LeadsTo [] lock.parent [] ∧
        ((toldMachine (some [1])).tree.prune [[0x61]]).LeadsTo [] lock.parent [] := by
    unfold Tree.LeadsTo
    decide +kernel
  simp only [handedOver, List.mem_cons, List.not_mem_nil, or_false] at hmem
  rcases hmem with rfl | rfl | rfl
  · exact ⟨rfl, (hleads _ (by simp)).1, fun _ => (hleads _ (by simp)).2, by simp⟩
  · exact ⟨rfl, (hleads _ (by simp)).1, fun _ => (hleads _ (by simp)).2, by simp⟩
  · exact ⟨rfl, (hleads _ (by simp)).1, fun _ => (hleads _ (by simp)).2, by simp⟩

/-- A handle that gets to the directory of the lock through the claim itself. -/
def detour : Lock := { pairLock false with parent := .ofString "/a/.." }

/-- The handle that gets there through the claim releases it. -/
def lostWay : List Lock.Job.Twice :=
  [(⟨detour, pair.claimant false, [], .once .unlock⟩, ⟨0, 0⟩, ⟨0, 0⟩)]

/-- What is written about the holder does make a difference if the owner gets to the lock through its claim:
what was moved aside is left there with all it holds. -/
theorem not_unread_of_detour :
    ¬ ∀ (supply : Supply) (programs : Machine.Programs) (parent : Place) (name : LockName)
      (jobs : List Lock.Job.Twice) (machine machine' : Machine),
      SameClaim parent name machine.tree machine'.tree → machine.drawn = machine'.drawn →
      (∀ job ∈ jobs, job.1.lock.name = name ∧
        machine.tree.LeadsTo job.1.directory job.1.lock.parent parent ∧ job.1.task ≠ .once .holder) →
      (Lock.Job.runAll supply programs (Lock.Job.first jobs) machine).1 =
        (Lock.Job.runAll supply programs (Lock.Job.second jobs) machine').1 ∧
      Lock.Job.Since supply programs (parent ++ [name.bytes]) jobs machine machine' := by
  intro hall
  have hjobs : ∀ job ∈ lostWay, job.1.lock.name = ⟨"a", by decide⟩ ∧
      (toldMachine (some [1])).tree.LeadsTo job.1.directory job.1.lock.parent [] ∧
        job.1.task ≠ .once .holder := by
    intro job hmem
    obtain rfl := List.mem_singleton.1 hmem
    refine ⟨rfl, ?_, by simp⟩
    unfold Tree.LeadsTo
    decide +kernel
  obtain ⟨-, hsince⟩ := hall pair.supply noPrograms [] _ lostWay _ _
    sameClaim_told rfl hjobs
  have hleft : (Lock.Job.runAll pair.supply noPrograms (Lock.Job.first lostWay)
      (toldMachine (some [1]))).2.tree.get? [detour.nonce.releasedName, holderBytes] = some (.file [1]) := by
    decide +kernel
  have hnone : (Lock.Job.runAll pair.supply noPrograms (Lock.Job.second lostWay)
      (toldMachine none)).2.tree.get? [detour.nonce.releasedName, holderBytes] = none := by
    decide +kernel
  cases hsince with
  | standing hend =>
    rw [hend] at hleft
    exact absurd hleft (by decide)
  | released _ _ _ _ _ _ _ _ halike =>
    have hgone := (halike [detour.nonce.releasedName, holderBytes]).none_iff.2 hnone
    rw [hleft] at hgone
    cases hgone

end Site

end DirLock
