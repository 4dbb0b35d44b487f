import DirLock.Proofs.CommandLine.Entrance
import DirLock.Proofs.Holder.Same
import DirLock.Proofs.Lock.Harmless

/-!
# Telling the status

The status of a lock is told from one look at the path of the claim. Where the directory of the lock is found, the
look is taken through a handle, and whoever opens a handle makes directories. But none is made along a way that is
there. Where the directory of the lock is not found, no look is taken, and the lock is told to be free. So nothing is
ever changed, and a lock that is told to be held is held.

The directory may also not be found because requests cannot follow its path, or because the look for it failed. That
is no error: it is taken for a directory that is not there. Where requests can follow the path and no look fails, a
lock that is told to be free is free.
-/

namespace DirLock

open Disk (Tree Place Path Name EntryKind Fault)
open Routine (Yields)

/-- Nothing stands in the way of a new directory along a path only if the path leads nowhere. -/
theorem Disk.Tree.makeDirectory_of_candidates {tree after : Tree} {cwd place : Place} {path other : Path}
    (hleads : tree.LeadsTo cwd path place) (hother : other ∈ Routine.candidates path) :
    tree.makeDirectory cwd other ≠ .ok after := by
  intro hmade
  obtain ⟨⟨rest, hrest⟩, hstart⟩ := Path.mem_candidates hother
  obtain ⟨dir, name, hseek, -, hfree, -⟩ := makeDirectory_eq_ok hmade
  obtain ⟨-, hlast, left, hfront⟩ := seekParent_eq_ok hseek
  obtain ⟨hnames, hdot, hup⟩ := lastName_eq_name hlast.symm
  have hplainNames : other.plainNames = other.names.dropLast.filter (· ≠ Path.dot) ++ [name] := by
    rw [Path.plainNames, hnames, List.filter_append, List.filter_cons_of_pos (by simpa using hdot), ← hnames]
    rfl
  obtain ⟨_, hway⟩ := hleads.leads
  have hplain := hway.plain
  rw [← Path.plainNames, ← hrest, hplainNames, List.append_assoc, List.singleton_append] at hplain
  rw [Path.start, hstart, ← Path.start] at hfront
  obtain ⟨fewer, mid, hmid, hon⟩ := hplain.split
  obtain ⟨-, rfl⟩ := hmid.unique hfront.plain
  exact hon.get?_ne_none hdot hup hfree

namespace CommandLine

def LockChoice.claimPath (choice : LockChoice) : Path := (Path.ofString choice.dir).join (.ofString choice.name)

end CommandLine

/-- The looks that are taken do not fail, or at least not as if nothing were there. -/
structure Mishaps.SpareLooks (mishaps : Mishaps) : Prop where
  isDirectory : ∀ n path, mishaps n (.isDirectory path) = Option.none
  entryKind : ∀ n path mishap, mishaps n (.entryKind path) = some mishap → mishap.fault.kind ≠ .notFound

theorem Mishaps.spareLooks_none : Mishaps.none.SpareLooks := ⟨fun _ _ => rfl, fun _ _ _ h => by cases h⟩

namespace CommandLine

/-- What is told of the status of a lock. Nothing is changed, and a name that no lock has is an error of the user's. A
lock that is told to be held has an entry at the path of its claim; one that is told to be free has none, if the looks
can be trusted. -/
structure LockChoice.Tells (choice : LockChoice) (mishaps : Mishaps) (before after : Machine)
    (result : Except LockError Nat) : Prop where
  isAt : after.IsAt before.directory before.tree
  misnamed : LockName.ofString? choice.name = none → ∃ error, result = .error error ∧
    error.exitStatus = ExitStatus.userError
  told : ∀ status, result = .ok status →
    status = ExitStatus.notAcquired ∧ before.tree.HasEntry before.directory choice.claimPath ∨
      status = ExitStatus.success ∧ (mishaps.SpareLooks →
        before.tree.Follows before.directory (.ofString choice.dir) →
        ¬ before.tree.HasEntry before.directory choice.claimPath)

variable {supply : Supply} {programs : Machine.Programs} {mishaps : Mishaps} {choice : LockChoice} {trial : Trial}
  {path : Path} {place : Place}

/-! ## A directory that is found -/

theorem yields_loadConfig_trial :
    Yields (Trial.answer supply programs mishaps) (loadConfig choice) trial fun result after =>
      after.machine = trial.machine ∧ ∀ error, result = .error error → error.exitStatus = ExitStatus.userError := by
  unfold loadConfig
  cases choice.config with
  | none => exact ⟨rfl, fun _ h => by cases h⟩
  | some text =>
    refine yields_of_trial (fun reply machine hanswer => ?_) fun mishap reply _ _ => ?_
    · obtain ⟨rfl, rfl⟩ := Prod.mk.inj hanswer
      exact ⟨rfl, fun _ => exitStatus_of_ofContent⟩
    · refine ⟨?_, fun _ => exitStatus_of_ofContent⟩
      cases mishap <;> rfl

theorem yields_makeDirectories_of_leadsTo (hleads : trial.machine.tree.LeadsTo trial.machine.directory path place) :
    Yields (Trial.answer supply programs mishaps) (Routine.makeDirectories path) trial
      fun _ after => after.machine = trial.machine := by
  have hstep : ∀ r (state : Trial), r.Makes (Routine.candidates path) → state.machine = trial.machine →
      (Trial.answer supply programs mishaps r state).2.machine = trial.machine := by
    intro r state hr hsame
    rw [← hsame] at hleads ⊢
    cases r with
    | isDirectory other => exact Trial.machine_answer rfl fun mishap => by cases mishap <;> rfl
    | makeDirectory other =>
      refine Trial.machine_answer ?_ fun mishap => by cases mishap <;> rfl
      cases hmade : state.machine.tree.makeDirectory state.machine.directory other with
      | ok tree => exact absurd hmade (Tree.makeDirectory_of_candidates hleads hr)
      | error fault => exact congrArg Prod.snd (change_error hmade)
    | _ => exact hr.elim
  exact (uses_makeDirectories_makes path).run_induction hstep rfl

theorem yields_openLock_of_leadsTo
    (hleads : trial.machine.tree.LeadsTo trial.machine.directory (.ofString choice.dir) place) :
    Yields (Trial.answer supply programs mishaps) (openLock choice) trial fun result after =>
      after.machine.IsAt trial.machine.directory trial.machine.tree ∧
      (LockName.ofString? choice.name = none → ∃ error, result = .error error ∧
        error.exitStatus = ExitStatus.userError) ∧
      ∀ lock, result = .ok lock → lock.parent = .ofString choice.dir ∧ lock.name.text = choice.name := by
  have hself : trial.machine.IsAt trial.machine.directory trial.machine.tree := ⟨rfl, rfl⟩
  have hfails : ∀ {error : LockError} (lock : Lock), (.error error : Except LockError Lock) = .ok lock →
      lock.parent = .ofString choice.dir ∧ lock.name.text = choice.name := fun lock hok => by cases hok
  refine yields_loadConfig_trial.bind ?_
  rintro (error | config) ⟨machine, made⟩ ⟨heq, hstatus⟩
  all_goals obtain rfl : machine = trial.machine := heq
  · exact ⟨hself, fun _ => ⟨error, rfl, hstatus error rfl⟩, hfails⟩
  dsimp only
  rw [Lock.openIn]
  cases hname : LockName.ofString? choice.name with
  | none =>
    rw [validateName, hname]
    exact ⟨hself, fun _ => ⟨_, rfl, rfl⟩, hfails⟩
  | some name =>
    have hvalidated : validateName choice.name = .ok name := by rw [validateName, hname]
    rw [hvalidated]
    dsimp only
    cases hvalid : config.validate with
    | error error => exact ⟨hself, (fun h => by cases h), hfails⟩
    | ok _ =>
      let drawn : Machine := { trial.machine with drawn := trial.machine.drawn + 1 }
      have hdraw : Machine.answer supply programs .randomNonce trial.machine =
        (supply.nonce trial.machine.drawn, drawn) := rfl
      refine yields_of_sure (fun _ => rfl) ?_
      dsimp only
      rw [hdraw]
      cases hnonce : supply.nonce trial.machine.drawn with
      | error reason => exact ⟨⟨rfl, rfl⟩, (fun h => by cases h), hfails⟩
      | ok nonce =>
        let opened : Trial := ⟨drawn, made + 1⟩
        have hthere : opened.machine.tree.LeadsTo opened.machine.directory (.ofString choice.dir) place := hleads
        refine (yields_makeDirectories_of_leadsTo hthere).bind ?_
        rintro (fault | _) ⟨machine, made⟩ heq
        all_goals obtain rfl : machine = drawn := heq
        · exact ⟨⟨rfl, rfl⟩, (fun h => by cases h), hfails⟩
        · refine yields_of_sure (fun _ => rfl) ?_
          refine ⟨⟨rfl, rfl⟩, (fun h => by cases h), fun lock hok => ?_⟩
          obtain rfl := Except.ok.inj hok
          exact ⟨rfl, text_of_validateName hvalidated⟩

/-! ## What is told -/

theorem yields_tellOpened (hleads : trial.machine.tree.LeadsTo trial.machine.directory (.ofString choice.dir) place) :
    Yields (Trial.answer supply programs mishaps) (tellOpened choice) trial
      fun result after => choice.Tells mishaps trial.machine after.machine result := by
  refine (yields_openLock_of_leadsTo hleads).bind ?_
  rintro (error | lock) opened ⟨hat, hmisnamed, hopens⟩
  · refine ⟨hat, fun hnone => ?_, fun _ hok => by cases hok⟩
    obtain ⟨_, ⟨rfl⟩, hstatus⟩ := hmisnamed hnone
    exact ⟨error, rfl, hstatus⟩
  have hnamed : ∀ {result : Except LockError Nat}, LockName.ofString? choice.name = none →
      ∃ error, result = .error error ∧ error.exitStatus = ExitStatus.userError := fun hnone => by
    obtain ⟨_, hok, -⟩ := hmisnamed hnone
    cases hok
  obtain ⟨hparent, hname⟩ := hopens lock rfl
  have hpath : lock.claimDir = choice.claimPath := by
    rw [Lock.claimDir, LockName.toPath, hparent, hname, LockChoice.claimPath]
  refine yields_isLocked_trial.bind ?_
  rintro result ⟨machine, made⟩ ⟨heq, htaken, hfree⟩
  obtain rfl : machine = opened.machine := heq
  rw [hat.tree, hat.directory] at htaken hfree
  rcases result with error | (_ | _)
  · exact ⟨hat, hnamed, fun _ hok => by cases hok⟩
  · refine yields_of_sure (fun _ => rfl) ?_
    refine ⟨hat.congr rfl rfl, hnamed, ?_⟩
    rintro _ ⟨rfl⟩
    refine .inr ⟨rfl, fun hspare _ => ?_⟩
    obtain ⟨fault, hfault, hkind⟩ := hfree hspare.entryKind rfl
    rw [← hparent] at hleads
    rw [← hpath]
    rw [Lock.claimDir_eq] at hfault ⊢
    exact Tree.not_hasEntry_of_notFound lock.name.isName hleads hfault hkind
  · obtain ⟨kind, hkind⟩ := htaken rfl
    have hentry := (Tree.finds_of_ok hkind).hasEntry
    rw [hpath] at hentry
    refine (yields_looks (uses_holder_looks lock)).bind ?_
    rintro holder ⟨machine, made⟩ heq
    obtain rfl : machine = opened.machine := heq
    have htells : ∀ {after : Machine}, after.IsAt trial.machine.directory trial.machine.tree →
        choice.Tells mishaps trial.machine after (.ok ExitStatus.notAcquired) := by
      refine fun hat => ⟨hat, hnamed, ?_⟩
      rintro _ ⟨rfl⟩
      exact .inl ⟨rfl, hentry⟩
    cases holder with
    | none =>
      refine yields_of_sure (fun _ => rfl) ?_
      exact htells (hat.congr rfl rfl)
    | some holder =>
      refine yields_of_sure (fun _ => rfl) (yields_of_sure (fun _ => rfl) ?_)
      exact htells (hat.congr rfl rfl)

theorem tells_free {machine : Machine} (hsame : machine = trial.machine)
    (hfree : mishaps.SpareLooks → trial.machine.tree.isDirectory trial.machine.directory (.ofString choice.dir) = false) :
    Yields (Trial.answer supply programs mishaps)
      (match validateName choice.name with
        | .error error => return .error error
        | .ok name => do
          Routine.request (.print s!"{name.text}: free\n")
          return .ok ExitStatus.success : Routine (Except LockError Nat)) ⟨machine, trial.made + 1⟩
      fun result after => choice.Tells mishaps trial.machine after.machine result := by
  subst hsame
  cases hname : LockName.ofString? choice.name with
  | none =>
    rw [validateName, hname]
    exact ⟨⟨rfl, rfl⟩, fun _ => ⟨_, rfl, rfl⟩, fun _ hok => by cases hok⟩
  | some name =>
    have hvalidated : validateName choice.name = .ok name := by rw [validateName, hname]
    rw [hvalidated]
    refine yields_of_sure (fun _ => rfl) ?_
    refine ⟨⟨rfl, rfl⟩, fun hnone => ?_, ?_⟩
    · cases hname.symm.trans hnone
    rintro _ ⟨rfl⟩
    refine .inr ⟨rfl, fun hspare hfollows hentry => ?_⟩
    rw [LockChoice.claimPath, ← text_of_validateName hvalidated] at hentry
    exact Bool.false_ne_true ((hfree hspare).symm.trans (hentry.isDirectory name.isName hfollows))

theorem yields_tellStatus :
    Yields (Trial.answer supply programs mishaps) (tellStatus choice) trial
      fun result after => choice.Tells mishaps trial.machine after.machine result := by
  refine yields_of_trial (fun reply machine hanswer => ?_) fun mishap reply hbefell hreply => ?_
  · obtain ⟨rfl, rfl⟩ := Prod.mk.inj hanswer
    cases hdir : trial.machine.tree.isDirectory trial.machine.directory (.ofString choice.dir) with
    | true =>
      obtain ⟨place, hleads⟩ := Tree.leadsTo_of_isDirectory hdir
      let looked : Trial := ⟨trial.machine, trial.made + 1⟩
      have hleads : looked.machine.tree.LeadsTo looked.machine.directory (.ofString choice.dir) place := hleads
      exact yields_tellOpened hleads
    | false => exact tells_free rfl fun _ => hdir
  · obtain rfl := Option.some.inj hreply
    refine tells_free (by cases mishap <;> rfl) fun hspare => ?_
    cases hbefell.symm.trans (hspare.isDirectory _ _)

/-- Telling the status changes nothing, on whatever tree, however it ends and whichever requests fail. A name that no
lock has is an error with status 1. A lock of which 4 is told has an entry at the path of its claim. Where no look fails
and requests can follow the path of the directory, 4 is told if an entry is there and 0 if none is. -/
theorem tellStatus_truthful {result : Except LockError Nat} {after : Trial}
    (hrun : (tellStatus choice).run (Trial.answer supply programs mishaps) trial = (result, after)) :
    after.machine.tree = trial.machine.tree ∧
      (LockName.ofString? choice.name = none → ∃ error, result = .error error ∧ error.exitStatus = 1) ∧
      ∀ status, result = .ok status → (status = 4 ∨ status = 0) ∧
        (status = 4 → trial.machine.tree.HasEntry trial.machine.directory choice.claimPath) ∧
        (mishaps.SpareLooks → trial.machine.tree.Follows trial.machine.directory (.ofString choice.dir) →
          (status = 4 ↔ trial.machine.tree.HasEntry trial.machine.directory choice.claimPath) ∧
          (status = 0 ↔ ¬ trial.machine.tree.HasEntry trial.machine.directory choice.claimPath)) := by
  have htells := @yields_tellStatus supply programs mishaps choice trial
  rw [Yields, hrun] at htells
  refine ⟨htells.isAt.tree, htells.misnamed, fun status hok => ?_⟩
  rcases htells.told status hok with ⟨rfl, hentry⟩ | ⟨rfl, hnone⟩
  · exact ⟨.inl rfl, fun _ => hentry,
      fun _ _ => ⟨iff_of_true rfl hentry, iff_of_false (by decide) (not_not_intro hentry)⟩⟩
  · exact ⟨.inr rfl, fun h => absurd h (by decide),
      fun hspare hfollows => ⟨iff_of_false (by decide) (hnone hspare hfollows),
        iff_of_true rfl (hnone hspare hfollows)⟩⟩

/-- A link to nowhere stands in the place of the claim of the lock `a` in the root directory. -/
def dangling : Tree := ⟨[([[0x61]], .link (.ofString "nowhere"))]⟩

/-- How telling the status of the lock `a` in a directory ends. -/
def told (tree : Tree) (mishaps : Mishaps) (dir : String) : Except LockError Nat × Trial :=
  (tellStatus ⟨dir, "a", none⟩).run (Trial.answer Site.pair.supply Site.noPrograms mishaps)
    ⟨.ofTree tree [] ⟨0, 0⟩, 0⟩

theorem follows_root (tree : Tree) : tree.Follows [] (.ofString "/") := by
  have hcheck : (Path.ofString "/").check = .ok () := by decide +kernel
  have hsteps : (Path.ofString "/").steps = [Path.dot] := by decide +kernel
  refine ⟨hcheck, ?_⟩
  rw [hsteps, Tree.walk_dot, Tree.walk_nil]
  exact fun h => by cases h

theorem danglingEnd_truthful :
    (told dangling .none "/").1 = .ok 4 ∧ (told dangling .none "/").2.machine.tree = dangling ∧
      dangling.HasEntry [] (.ofString "/a") := by
  have htold : (told dangling .none "/").1 = .ok 4 := by decide +kernel
  obtain ⟨htree, -, htruthful⟩ := @tellStatus_truthful Site.pair.supply Site.noPrograms .none ⟨"/", "a", none⟩
    ⟨.ofTree dangling [] ⟨0, 0⟩, 0⟩ _ _ (show told dangling .none "/" = _ from Prod.mk.eta.symm)
  obtain ⟨hheld, -⟩ := (htruthful 4 htold).2.2 Mishaps.spareLooks_none (follows_root dangling)
  exact ⟨htold, htree, hheld.1 rfl⟩

/-- A claim of the lock `a` in the root directory, and a link to that directory in it. -/
def standing : Tree := ⟨[([[0x61]], .directory), ([[0x73]], .link (.ofString "/"))]⟩

/-- The root, by a path that is too long for requests. -/
def rootFar : String := String.ofList (List.replicate 4096 '/')

theorem bytesOf_slashes (count : Nat) :
    Text.bytesOf (String.ofList (List.replicate count '/')) = List.replicate count Path.slash := by
  have hslash : String.utf8EncodeChar '/' = [Path.slash] := by decide
  rw [Text.bytesOf, String.toList_ofList, Text.utf8Encode, List.flatMap_replicate, hslash,
    List.flatten_replicate_singleton]

/-- The root, through one link more than requests follow. -/
def rootThroughLinks : String := String.ofList (List.replicate 41 ['/', 's']).flatten

def lookRefused : Mishaps
  | _, .isDirectory _ => some (.refused (.os .denied))
  | _, _ => none

theorem told_of_isDirectory_eq_false {tree : Tree} {dir : String}
    (h : tree.isDirectory [] (.ofString dir) = false) : (told tree .none dir).1 = .ok 0 := by
  have hlook : Trial.answer Site.pair.supply Site.noPrograms .none (.isDirectory (.ofString dir))
      ⟨.ofTree tree [] ⟨0, 0⟩, 0⟩ = (false, ⟨.ofTree tree [] ⟨0, 0⟩, 1⟩) := by
    rw [← h]
    rfl
  have hname : (validateName "a").isOk = true := by decide +kernel
  have htold : Yields (Trial.answer Site.pair.supply Site.noPrograms .none) (tellStatus ⟨dir, "a", none⟩)
      ⟨.ofTree tree [] ⟨0, 0⟩, 0⟩ fun result _ => result = .ok 0 := by
    refine Routine.yields_request ?_
    rw [hlook]
    cases hvalidated : validateName "a" with
    | error error =>
      rw [hvalidated] at hname
      cases hname
    | ok name => exact rfl
  exact htold

/-- A lock is told to be free although an entry stands at the path of its claim, where the path of the directory is too
long for requests or goes through too many links, and where the look for the directory fails. -/
theorem told_free_though_standing :
    ((told standing .none rootFar).1 = .ok 0 ∧ standing.HasEntry [] (LockChoice.claimPath ⟨rootFar, "a", none⟩)) ∧
    ((told standing .none rootThroughLinks).1 = .ok 0 ∧
      standing.HasEntry [] (LockChoice.claimPath ⟨rootThroughLinks, "a", none⟩)) ∧
    (told standing lookRefused "/").1 = .ok 0 ∧ standing.HasEntry [] (LockChoice.claimPath ⟨"/", "a", none⟩) := by
  have hfar : Path.ofString rootFar = ⟨List.replicate 4096 Path.slash⟩ := congrArg Disk.Path.mk (bytesOf_slashes 4096)
  have hblind : standing.isDirectory [] ⟨List.replicate 4096 Path.slash⟩ = false := by decide +kernel
  refine ⟨⟨told_of_isDirectory_eq_false (by rw [hfar, hblind]), 0, [[0x61]], .directory, ?_⟩,
    ⟨?_, 41, [[0x61]], .directory, ?_⟩, ?_, 0, [[0x61]], .directory, ?_⟩
  · rw [LockChoice.claimPath, hfar]
    decide +kernel
  all_goals decide +kernel

end CommandLine

end DirLock
