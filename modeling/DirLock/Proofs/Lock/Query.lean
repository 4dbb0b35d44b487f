import DirLock.Proofs.Disk.Reach
import DirLock.Proofs.Lock.Scene

/-!
# What the queries say

A lock is asked for in several ways: whether it is taken, whether a handle holds it, who holds it, and by the look
that every attempt begins with. All of them look along the same path. So whoever finds the lock taken, or fails to
look, learns what an attempt says; and whoever finds it free knows that an attempt is not lost, since nobody else is
there to take it. The queries after a successful attempt agree with it too, but for a path of the held marker that is
too long for requests: the claim is there then, and the handle does not know it.
-/

namespace DirLock

open Disk (Tree Place Path Name Entry EntryKind Fault Errno)
open Disk.Tree (Names Fits)
open Routine (Yields)

namespace Disk.Tree

variable {tree : Tree} {cwd : Place} {path base : Path} {name child : Name}

theorem finds_of_seek_join (hname : Path.IsName name) (hchild : Path.IsName child) {spot : Spot}
    (h : tree.seek cwd ((base.join ⟨name⟩).join ⟨child⟩) true = .ok spot) :
    tree.Finds cwd (base.join ⟨name⟩) := by
  obtain ⟨_, hcheck, -⟩ := ok_of_bind h
  have hwalk := walk_of_seek h
  rw [Path.steps, Path.endsInSlash_join hchild, if_neg Bool.false_ne_true, Path.names_join hchild,
    Path.names_join hname, List.append_assoc, Path.start_join hchild, Path.start_join hname] at hwalk
  obtain ⟨left, dir, hleads⟩ := leads_of_walk_append (List.cons_ne_nil name [child]) hwalk
  have hnames := hleads.leadsTo.names_join hname
  have hfit : Fits (base.join ⟨name⟩) name := by
    refine ⟨Path.check_of_join hchild (Path.bytes_join_ne_nil hname base) hcheck, ?_⟩
    by_contra hlong
    obtain ⟨fault, hseek⟩ := hnames.seek_join_of_long true (Nat.not_le.1 hlong) hchild
    cases hseek.symm.trans h
  have hkind := hnames.entryKind_eq hfit
  cases hget : tree.get? (dir ++ [name]) with
  | some entry =>
    rw [hget] at hkind
    exact finds_of_ok hkind
  | none =>
    obtain ⟨fault, hseek⟩ := hnames.seek_join_of_none true hget hchild
    cases hseek.symm.trans h

/-- Where the directory of a name cannot be found, that is so for a reason that no race has. -/
theorem isLostRace_of_seekParent {fault : Fault} (h : tree.seekParent cwd path = .error fault) :
    isLostRace fault = false := by
  rw [seekParent] at h
  cases hcheck : path.check with
  | error refused =>
    rw [hcheck] at h
    obtain rfl := Except.error.inj h
    rw [Path.check] at hcheck
    split_ifs at hcheck
    all_goals
      obtain rfl := Except.error.inj hcheck
      rfl
  | ok _ =>
    rw [hcheck] at h
    cases hwalk : tree.walk true Path.linkLimit (path.start cwd) (path.names.dropLast ++ [Path.dot]) with
    | ok spot =>
      rw [hwalk] at h
      cases spot with
      | found place entry => cases h
      | missing parent name =>
        obtain rfl := Except.error.inj h
        rfl
    | error code =>
      rw [hwalk] at h
      obtain rfl := Except.error.inj h
      have hcode := errno_of_walk hwalk
      simp only [List.mem_cons, List.not_mem_nil, or_false] at hcode
      rcases hcode with rfl | rfl | rfl | rfl <;> rfl

end Disk.Tree

variable {supply : Supply} {programs : Machine.Programs} {lock : Lock} {claimant : Claimant} {machine : Machine}

/-! ## Looking -/

/-- What a look at the path of the claim says. -/
def Lock.inspected (lock : Lock) (machine : Machine) : Except LockError Bool :=
  match machine.tree.entryKind machine.directory lock.claimDir with
  | .ok _ => .ok true
  | .error fault =>
    if fault.kind = .notFound then .ok false else .error (.io .inspectClaim lock.claimDir fault)

theorem yields_isLocked_inspected : Yields (Machine.answer supply programs) lock.isLocked machine
    fun result after => result = lock.inspected machine ∧ after = machine := by
  rw [Lock.inspected]
  cases hkind : machine.tree.entryKind machine.directory lock.claimDir with
  | ok kind => exact yields_of_answer (congrArg (·, machine) hkind) ⟨rfl, rfl⟩
  | error fault =>
    refine yields_of_answer (congrArg (·, machine) hkind) ?_
    dsimp only
    split_ifs <;> exact ⟨rfl, rfl⟩

theorem Lock.inspected_eq_true_iff :
    lock.inspected machine = .ok true ↔ machine.tree.Finds machine.directory lock.claimDir := by
  rw [Lock.inspected]
  constructor
  · intro h
    split at h
    · rename_i kind hkind
      exact Tree.finds_of_ok hkind
    · split_ifs at h
      cases h
  · intro h
    split
    · rfl
    · rename_i fault hkind
      exact absurd hkind (h.entryKind_ne_error fault)

theorem Lock.notFound_of_inspected (h : lock.inspected machine = .ok false) :
    ∃ fault, machine.tree.entryKind machine.directory lock.claimDir = .error fault ∧ fault.kind = .notFound := by
  rw [Lock.inspected] at h
  split at h
  · cases h
  · rename_i fault hkind
    split_ifs at h with hmissing
    exact ⟨fault, hkind, hmissing⟩

theorem Lock.inspected_of_readFile {child : Name} (hchild : Path.IsName child) {content : List UInt8}
    (h : machine.tree.readFile machine.directory (lock.claimDir.join ⟨child⟩) = .ok content) :
    lock.inspected machine = .ok true := by
  obtain ⟨spot, hseek, -⟩ := Tree.ok_of_bind h
  rw [Lock.claimDir_eq] at hseek
  rw [Lock.inspected_eq_true_iff, Lock.claimDir_eq]
  exact Tree.finds_of_seek_join lock.name.isName hchild hseek

theorem Lock.inspected_of_holder
    (h : (lock.holder?.run (Machine.answer supply programs) machine).1.isSome = true) :
    lock.inspected machine = .ok true := by
  have hrun : (lock.holder?.run (Machine.answer supply programs) machine).1 = (Holder.ofContent lock.holderFile
      (machine.tree.readFile machine.directory lock.holderFile)).toOption := rfl
  rw [hrun] at h
  cases hread : machine.tree.readFile machine.directory lock.holderFile with
  | ok content => exact Lock.inspected_of_readFile isName_holderBytes hread
  | error fault =>
    rw [hread] at h
    cases h

theorem Draft.inspected {ground : Tree} {cwd parent : Place} {files : List (Name × List UInt8)}
    (h : Draft ground cwd lock.claimDir parent lock.name.bytes files machine) :
    lock.inspected machine = .ok true := by
  have hkind := h.names_now.entryKind_eq h.fits
  rw [Tree.get?_of_below h.below] at hkind
  exact Lock.inspected_eq_true_iff.2 (Tree.finds_of_ok hkind)

/-! ## Making a claim -/

/-- What is done to make a claim, once its place was found free. -/
def Action.makesClaim : Action → Bool
  | .createStaging | .writeHeld | .writeHolder | .moveStaging => true
  | _ => false

/-- The error is one of staging a claim or of moving it into its place. -/
def LockError.IsOfMaking (error : LockError) : Prop :=
  ∃ action path fault, error = .io action path fault ∧ action.makesClaim = true

section Stage

variable {σ : Type} {answer : (r : Request) → σ → r.Reply × σ} {state : σ}

theorem yields_fillStaging_fails (staging : Path) :
    Yields answer (lock.fillStaging claimant staging) state
      fun result _ => ∀ error, result = .error error → error.IsOfMaking := by
  have hfails : ∀ {action path fault}, action.makesClaim = true →
      ∀ error, (.error (.io action path fault) : Except LockError Unit) = .error error → error.IsOfMaking := by
    rintro action path fault hmakes _ ⟨rfl⟩
    exact ⟨action, path, fault, rfl, hmakes⟩
  refine Routine.yields_request ?_
  split
  · exact hfails rfl
  · refine Routine.yields_request (Routine.yields_request ?_)
    split
    · exact hfails rfl
    · intro error hok
      cases hok

theorem yields_stage_fails : Yields answer (lock.stage claimant) state
    fun result _ => ∀ error, result = .error error → error.IsOfMaking := by
  have hany : ∀ {α : Type} (routine : Routine α) state, Yields answer routine state fun _ _ => True :=
    fun _ _ => trivial
  refine (hany _ _).bind fun base after _ => (hany _ _).bind fun made after _ => ?_
  rcases made with fault | staging
  · rintro _ ⟨rfl⟩
    exact ⟨_, _, _, rfl, rfl⟩
  · refine (yields_fillStaging_fails staging).bind fun filled after hfills => ?_
    rcases filled with error | _
    · refine (hany _ _).bind ?_
      rintro _ _ - _ ⟨rfl⟩
      exact hfills error rfl
    · intro error hok
      cases hok

end Stage

theorem yields_stage_named (hsound : machine.tree.Sound) (hsuffix : ∀ n, IsSuffix (supply.suffix n)) :
    Yields (Machine.answer supply programs) (lock.stage claimant) machine fun result staged =>
      (∃ path dir n now, result = .ok path ∧ Draft machine.tree machine.directory path dir
        (lock.nonce.stagingName (supply.suffix n)) (lock.claimFiles claimant now) staged) ∨
      ∃ error, result = .error error ∧ error.IsOfMaking := by
  let begun : Trial := ⟨machine, 0⟩
  have hat : begun.machine.IsAt machine.directory machine.tree := ⟨rfl, rfl⟩
  have hstaged : Yields (Machine.answer supply programs) (lock.stage claimant) begun.machine
      fun result staged => (∃ path dir n now, result = .ok path ∧ machine.drawn ≤ n ∧ n < staged.drawn ∧
          Draft machine.tree machine.directory path dir (lock.nonce.stagingName (supply.suffix n))
            (lock.claimFiles claimant now) staged) ∨
        ∃ error, result = .error error ∧ staged.IsAt machine.directory machine.tree :=
    yields_of_none.2 (Draft.yields_stage_trial Mishaps.spareCleanup_none hsuffix hsound hat)
  have hfails : Yields (Machine.answer supply programs) (lock.stage claimant) begun.machine _ := yields_stage_fails
  rcases hstaged with ⟨path, dir, n, now, hok, -, -, hdraft⟩ | ⟨error, herror, -⟩
  · exact .inl ⟨path, dir, n, now, hok, hdraft⟩
  · exact .inr ⟨error, herror, hfails error herror⟩

section Attempt

variable (hsound : machine.tree.Sound) (hcwd : machine.tree.get? machine.directory = some .directory)
  (hsuffix : ∀ n, IsSuffix (supply.suffix n)) (hunguessed : lock.Unguessed supply machine.tree)
include hsound hcwd hunguessed

theorem Draft.not_lostRace (hfree : lock.inspected machine = .ok false) {staged : Machine} {path : Path} {dir : Place}
    {n : Nat} {files : List (Name × List UInt8)} (hsuffix : IsSuffix (supply.suffix n))
    (h : Draft machine.tree machine.directory path dir (lock.nonce.stagingName (supply.suffix n)) files staged)
    {fault : Fault} (hrename : staged.tree.rename staged.directory path lock.claimDir = .error fault) :
    isLostRace fault = false := by
  obtain ⟨missing, hmissing, hkind⟩ := Lock.notFound_of_inspected hfree
  have hsame := h.seekParent_claimDir hsound hcwd hsuffix ⟨hunguessed.parent n, hunguessed.links n⟩
  cases hseek : machine.tree.seekParent machine.directory lock.claimDir with
  | ok found =>
    obtain ⟨tree, hmove, -⟩ := h.moveTo_claimDir hsound hcwd hsuffix hmissing hkind hseek
    cases hrename.symm.trans hmove
  | error refused =>
    rw [Tree.rename] at hrename
    by_cases hzero : (path.hasZero || lock.claimDir.hasZero) = true
    · rw [if_pos hzero] at hrename
      obtain rfl := Except.error.inj hrename
      rfl
    · rw [if_neg hzero, h.names_now.seekParent_eq, h.fits.check, hsame, hseek] at hrename
      obtain rfl := Except.error.inj hrename
      exact Tree.isLostRace_of_seekParent hseek

include hsuffix

theorem yields_tryClaim_of_free (hfree : lock.inspected machine = .ok false) :
    Yields (Machine.answer supply programs) (lock.tryClaim claimant) machine fun result _ =>
      result = .ok true ∨ ∃ error, result = .error error ∧ error.IsOfMaking := by
  refine yields_isLocked_inspected.bind ?_
  rintro _ machine ⟨rfl, rfl⟩
  rw [hfree]
  refine (yields_stage_named hsound hsuffix).bind ?_
  rintro result staged (⟨path, dir, n, now, rfl, hdraft⟩ | ⟨error, rfl, hmaking⟩)
  · cases hrename : staged.tree.rename staged.directory path lock.claimDir with
    | ok tree => exact yields_of_answer (change_ok hrename) (.inl rfl)
    | error fault =>
      have hother := hdraft.not_lostRace hsound hcwd hunguessed hfree (hsuffix n) hrename
      refine yields_of_answer (change_error hrename) ?_
      dsimp only
      rw [if_neg (by simp [hother])]
      have hdiscard : Yields (Machine.answer supply programs) (Lock.discard path) staged fun _ _ => True := trivial
      exact hdiscard.bind fun _ _ _ => .inr ⟨_, rfl, _, _, _, rfl, rfl⟩
  · exact .inr ⟨error, rfl, hmaking⟩

end Attempt

theorem yields_tryClaim_of_taken (h : lock.inspected machine = .ok true) :
    Yields (Machine.answer supply programs) (lock.tryClaim claimant) machine fun result _ => result = .ok false := by
  refine yields_isLocked_inspected.bind ?_
  rintro _ machine ⟨rfl, rfl⟩
  rw [h]
  rfl

theorem yields_tryClaim_of_failed {error : LockError} (h : lock.inspected machine = .error error) :
    Yields (Machine.answer supply programs) (lock.tryClaim claimant) machine
      fun result _ => result = .error error := by
  refine yields_isLocked_inspected.bind ?_
  rintro _ machine ⟨rfl, rfl⟩
  rw [h]
  rfl

/-! ## Agreement -/

/-- How the queries of a handle agree with an attempt that was made instead of them, and with its outcome. -/
structure Lock.QueriesAgree (supply : Supply) (programs : Machine.Programs) (lock : Lock) (machine after : Machine)
    (inspected tried : Except LockError Bool) : Prop where
  /-- The lock is found taken exactly if the attempt is lost. -/
  taken_iff : inspected = .ok true ↔ tried = .ok false
  /-- If the look fails, the attempt fails with the same error. -/
  failed : ∀ error, inspected = .error error → tried = .error error
  /-- If the lock is found free, the attempt succeeds, or the claim could not be staged or moved. -/
  free : inspected = .ok false → tried = .ok true ∨ ∃ error, tried = .error error ∧ error.IsOfMaking
  /-- A lock that the handle holds is found taken. -/
  held : (lock.isHeld.run (Machine.answer supply programs) machine).1 = true → inspected = .ok true
  /-- A lock of which the holder is known is found taken. -/
  holder : (lock.holder?.run (Machine.answer supply programs) machine).1.isSome = true → inspected = .ok true
  /-- After a successful attempt the handle holds the lock, if requests take the path of the held marker, the lock is
  found taken, and no handle for the same lock acquires it. -/
  claimed : tried = .ok true →
    ((lock.isHeld.run (Machine.answer supply programs) after).1 = true ↔ lock.heldFile.check = .ok ()) ∧
    (lock.isLocked.run (Machine.answer supply programs) after).1 = .ok true ∧
    ∀ (other : Lock) (claimant : Claimant), other.parent = lock.parent → other.name = lock.name →
      ((other.tryClaim claimant).run (Machine.answer supply programs) after).1 = .ok false

/-- The queries agree with an attempt on every tree, whatever stands at the path of the claim, on the way to it and
inside it. -/
theorem Lock.queries_agree (hsound : machine.tree.Sound)
    (hcwd : machine.tree.get? machine.directory = some .directory) (hsuffix : ∀ n, IsSuffix (supply.suffix n))
    (hunguessed : lock.Unguessed supply machine.tree) {inspected tried : Except LockError Bool} {looked after : Machine}
    (hlook : lock.isLocked.run (Machine.answer supply programs) machine = (inspected, looked))
    (htry : (lock.tryClaim claimant).run (Machine.answer supply programs) machine = (tried, after)) :
    lock.QueriesAgree supply programs machine after inspected tried := by
  have hlooked := @yields_isLocked_inspected supply programs lock machine
  rw [Yields, hlook] at hlooked
  obtain ⟨rfl, -⟩ := hlooked
  have htaken := @yields_tryClaim_of_taken supply programs lock claimant machine
  have hfailed := @yields_tryClaim_of_failed supply programs lock claimant machine
  have hfree := @yields_tryClaim_of_free supply programs lock claimant machine hsound hcwd hsuffix hunguessed
  have hpersists := @persists_plain supply programs lock claimant machine hsound hcwd hsuffix hunguessed
  have hwhole := hpersists.attempt (.start _ _ _)
  simp only [Yields, htry] at htaken hfailed hfree hwhole
  refine ⟨⟨htaken, fun hlost => ?_⟩, fun error => hfailed, hfree, fun hheld => ?_, fun hholder => ?_, ?_⟩
  · rcases hinspected : lock.inspected machine with error | (_ | _)
    · cases hlost.symm.trans (hfailed hinspected)
    · rcases hfree hinspected with hok | ⟨error, herror, -⟩
      · cases hlost.symm.trans hok
      · cases hlost.symm.trans herror
    · rfl
  · exact Lock.inspected_of_readFile isName_heldBytes ((lock.isHeld_run machine).1 hheld)
  · exact Lock.inspected_of_holder hholder
  · rintro rfl
    cases hwhole with
    | nothing hne => exact absurd rfl hne
    | all parent now hclaimed =>
      have hinspected := hclaimed.inspected
      refine ⟨(lock.isHeld_run after).trans ⟨fun hheld => hheld.check, hclaimed.isHeldAt⟩, ?_, ?_⟩
      · exact yields_isLocked_inspected.1.trans hinspected
      · intro other claimant hparent hname
        have hsame : other.inspected after = lock.inspected after := by
          rw [Lock.inspected, Lock.inspected, Lock.claimDir, Lock.claimDir, hparent, hname]
        exact yields_tryClaim_of_taken (hsame.trans hinspected)

namespace Site

/-- How an attempt ends in a tree with nothing in it. -/
def aloneEnd : Except LockError Bool × Machine :=
  ((pairLock false).tryClaim (pair.claimant false)).run (Machine.answer pair.supply noPrograms)
    (.ofTree .empty [] ⟨0, 0⟩)

theorem aloneEnd_queries_agree :
    ((pairLock false).isHeld.run (Machine.answer pair.supply noPrograms) aloneEnd.2).1 = true ∧
      (((pairLock true).tryClaim (pair.claimant true)).run (Machine.answer pair.supply noPrograms) aloneEnd.2).1 =
        .ok false := by
  have hclaimed : aloneEnd.1 = .ok true := by decide +kernel
  have hcheck : (pairLock false).heldFile.check = .ok () := by decide +kernel
  have hagree := @Lock.queries_agree pair.supply noPrograms (pairLock false) (pair.claimant false)
    (.ofTree .empty [] ⟨0, 0⟩) .empty rfl pair.suffix_spec
    (Lock.unguessed_empty rfl) _ _ _ aloneEnd.2 rfl
    (show aloneEnd = _ from Prod.mk.eta.symm)
  obtain ⟨hheld, -, hothers⟩ := hagree.claimed hclaimed
  exact ⟨hheld.2 hcheck, hothers (pairLock true) (pair.claimant true) rfl rfl⟩

/-- A handle whose path of the parent directory is so long that requests take that of the claim but not that of the
held marker inside. -/
def beyondReach : Lock :=
  { pairLock false with parent := ⟨List.replicate 4090 0x2f⟩ }

/-- How an attempt of that handle ends. -/
def beyondReachEnd : Except LockError Bool × Machine :=
  (beyondReach.tryClaim (pair.claimant false)).run (Machine.answer pair.supply noPrograms)
    (.ofTree .empty [] ⟨0, 0⟩)

/-- How an attempt ends if the name of the staging directory was known before it was drawn. -/
def strayedEnd : Except LockError Bool × Machine :=
  (foreseenLock.tryClaim (pair.claimant false)).run (Machine.answer pair.supply noPrograms) foreseenTrial.machine

/-- A handle does not always find that it holds the lock that it has just acquired, even if nobody has guessed the name
of its staging directory; and if somebody has, it does not always find the lock taken. -/
theorem not_held_beyond_reach :
    (¬ ∀ (lock : Lock) (claimant : Claimant) (machine claimed : Machine), machine.tree.Sound →
      machine.tree.get? machine.directory = some .directory → lock.Unguessed pair.supply machine.tree →
      (lock.tryClaim claimant).run (Machine.answer pair.supply noPrograms) machine = (.ok true, claimed) →
      (lock.isHeld.run (Machine.answer pair.supply noPrograms) claimed).1 = true) ∧
    ¬ ∀ (lock : Lock) (claimant : Claimant) (machine claimed : Machine), machine.tree.Sound →
      machine.tree.get? machine.directory = some .directory →
      (lock.tryClaim claimant).run (Machine.answer pair.supply noPrograms) machine = (.ok true, claimed) →
      (lock.isLocked.run (Machine.answer pair.supply noPrograms) claimed).1 = .ok true := by
  constructor
  · intro hall
    obtain ⟨hclaimed, hblind⟩ : beyondReachEnd.1 = .ok true ∧
        (beyondReach.isHeld.run (Machine.answer pair.supply noPrograms) beyondReachEnd.2).1 = false := by
      decide +kernel
    have hheld := hall beyondReach (pair.claimant false) (.ofTree .empty [] ⟨0, 0⟩) beyondReachEnd.2 .empty rfl
      (Lock.unguessed_empty (by decide +kernel))
      (by rw [← hclaimed, Prod.mk.eta, beyondReachEnd])
    exact Bool.false_ne_true (hblind.symm.trans hheld)
  · intro hall
    obtain ⟨hclaimed, hfree⟩ : strayedEnd.1 = .ok true ∧
        (foreseenLock.isLocked.run (Machine.answer pair.supply noPrograms) strayedEnd.2).1 = .ok false := by
      decide +kernel
    have hsound : foreseenTrial.machine.tree.Sound := ⟨⟨by decide, by decide⟩, by decide⟩
    have htaken := hall foreseenLock (pair.claimant false) foreseenTrial.machine strayedEnd.2 hsound rfl
      (by rw [← hclaimed, Prod.mk.eta, strayedEnd])
    cases hfree.symm.trans htaken

end Site

end DirLock
