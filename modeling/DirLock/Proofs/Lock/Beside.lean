import DirLock.Proofs.Lock.Task
import DirLock.Proofs.Lock.Vacate

/-!
# Locks beside each other

Two handles have locks of different names in one directory. What a handle does depends on what stands at the
places of its claim, of the claim it moved aside and of its staging directories, and changes nothing but the
first two. So the operations of one handle leave the claim of the other alone, and whichever handle goes first,
both report the same and leave the same tree, but for the times in the records of the claims they make.

All this rests on the ways to the directories: they must not come by a place that one of the handles clears.
-/

namespace DirLock

open Disk (Tree Place Path Name Entry Fault)
open Disk.Tree (filesView ChangesOn Names Fits)
open Routine (Agree Yields agree_pure agree_request agree_of_yields)

/-! ## One operation, and then another -/

/-- An operation that a handle is told to do: on whose behalf, in which directory, and how many names have been
drawn when it begins. -/
structure Lock.Deed where
  lock : Lock
  claimant : Claimant
  directory : Place
  operation : Lock.Operation
  drawn : Nat

/-- What an operation has done to the tree. -/
inductive Lock.Effect where
  | nothing
  | claimed
  | vacated

namespace Lock.Deed

def start (deed : Deed) (time : Time.Instant) (machine : Machine) : Machine :=
  { machine with directory := deed.directory, clock := time, drawn := deed.drawn }

/-- Do the operation, beginning at this time. -/
def run (supply : Supply) (programs : Machine.Programs) (deed : Deed) (time : Time.Instant)
    (machine : Machine) : Report × Machine :=
  (deed.operation.routine deed.lock deed.claimant).run (Machine.answer supply programs)
    (deed.start time machine)

def runBoth (supply : Supply) (programs : Machine.Programs) (first second : Deed)
    (time time' : Time.Instant) (machine : Machine) : (Report × Report) × Machine :=
  let (report, machine) := first.run supply programs time machine
  let (report', machine) := second.run supply programs time' machine
  ((report, report'), machine)

/-- What is written about the holder of a claim made at this time. -/
def record (deed : Deed) (now : Time.Instant) : List UInt8 :=
  Text.utf8Encode (Holder.ofClaimant deed.claimant now).render

/-- The operation has made a claim, and at this place both trees have its record, each with its own time. -/
structure Stamps (deed : Deed) (parent : Place) (report : Report) (tree tree' : Tree) (q : Place) : Prop where
  report_eq : report = .claimed (.ok true)
  place_eq : q = deed.lock.claimIn parent ++ [holderBytes]
  get?_eq : ∃ now, tree.get? q = some (.file (deed.record now))
  get?_eq' : ∃ now, tree'.get? q = some (.file (deed.record now))

/-- Two runs, one of either order, have the same reports and end with the same tree, but for the records of
claims that the operations have made. -/
def SameEnd (parent : Place) (first second : Deed) (run run' : (Report × Report) × Machine) : Prop :=
  run.1 = run'.1.swap ∧ ∀ q, run.2.tree.get? q = run'.2.tree.get? q ∨
    first.Stamps parent run.1.1 run.2.tree run'.2.tree q ∨
    second.Stamps parent run.1.2 run.2.tree run'.2.tree q

/-- Neither operation touches the claim of the other's lock, and it does not matter which one comes first. -/
structure Independent (supply : Supply) (programs : Machine.Programs) (parent : Place) (first second : Deed)
    (machine : Machine) : Prop where
  spares : ∀ time, (first.run supply programs time machine).2.tree.below (second.lock.claimIn parent) =
    machine.tree.below (second.lock.claimIn parent)
  spares' : ∀ time, (second.run supply programs time machine).2.tree.below (first.lock.claimIn parent) =
    machine.tree.below (first.lock.claimIn parent)
  commutes : ∀ time₁ time₂ time₃ time₄,
    SameEnd parent first second (first.runBoth supply programs second time₁ time₂ machine)
      (second.runBoth supply programs first time₃ time₄ machine)

/-! ## What an operation rests on -/

/-- The ways of the handle to the directory of its lock and to that in which it stages its claims lead over the
ground, where nothing stands at the place of its claim, nor at the place to which the claim is moved. -/
structure Rests (deed : Deed) (ground : Tree) (parent scratch : Place) : Prop where
  start : ground.get? (deed.lock.parent.start deed.directory) = some .directory
  leadsTo : ground.LeadsTo deed.directory deed.lock.parent parent
  base_leadsTo : ground.LeadsTo deed.directory (deed.lock.base deed.claimant deed.directory) scratch
  claim_free : ground.get? (deed.lock.claimIn parent) = none
  released_free : ground.get? (deed.lock.releasedIn parent) = none

/-- The ground is part of the tree, and no link stands at the place of the claim or below it. -/
structure Meets (deed : Deed) (ground : Tree) (parent : Place) (tree : Tree) : Prop where
  sound : tree.Sound
  within : ground.Within tree
  unlinked : ∀ rest target, tree.get? (deed.lock.claimIn parent ++ rest) ≠ some (.link target)

/-- The places to which the handle pays heed. -/
inductive Heeds (deed : Deed) (parent scratch : Place) : Place → Prop
  | claim (rest : List Name) : Heeds deed parent scratch (deed.lock.claimIn parent ++ rest)
  | released (rest : List Name) : Heeds deed parent scratch (deed.lock.releasedIn parent ++ rest)
  | staging {suffix : List Char} : IsSuffix suffix →
    Heeds deed parent scratch (scratch ++ [deed.lock.nonce.stagingName suffix])

/-- The operation has made of the tree what the effect says. -/
inductive Made (deed : Deed) (parent : Place) (before after : Tree) : Effect → Prop
  | nothing : after = before → Made deed parent before after .nothing
  | claimed (now : Time.Instant) : after.Sound → ChangesOn (deed.lock.claimIn parent) before after →
    after.below (deed.lock.claimIn parent) = filesView (deed.lock.claimFiles deed.claimant now) →
    Made deed parent before after .claimed
  | vacated : after = (before.prune (deed.lock.claimIn parent)).prune (deed.lock.releasedIn parent) →
    Made deed parent before after .vacated

/-- On both trees the operation has had the same effect, and it reports the claim that it has made. -/
def MadeBoth (deed : Deed) (parent : Place) (tree tree' : Tree) (report : Report) (after after' : Tree) :
    Prop :=
  ∃ effect, deed.Made parent tree after effect ∧ deed.Made parent tree' after' effect ∧
    (effect = .claimed → report = .claimed (.ok true))

end Lock.Deed

variable {supply : Supply} {programs : Machine.Programs} {lock : Lock} {claimant : Claimant}
  {cwd parent scratch : Place} {ground tree tree' : Tree} {machine machine' : Machine}

/-! ## Claiming side by side -/

section Claim

variable {base : Path} (hstart : base.start cwd = []) (hsound : tree.Sound) (hsound' : tree'.Sound)
  (hsuffix : ∀ n, IsSuffix (supply.suffix n)) (hbase : tree.LeadsTo cwd base scratch)
  (hbase' : tree'.LeadsTo cwd base scratch)
  (hsame : ∀ {suffix}, IsSuffix suffix → tree.get? (scratch ++ [lock.nonce.stagingName suffix]) =
    tree'.get? (scratch ++ [lock.nonce.stagingName suffix]))

include hstart hsound hsound' hsuffix hbase hbase' hsame

theorem agree_makeStaging (tries : Nat) (hat : machine.IsAt cwd tree) (hat' : machine'.IsAt cwd tree')
    (hdrawn : machine.drawn = machine'.drawn) :
    Agree (Machine.answer supply programs) (lock.makeStaging base tries) machine machine'
      fun result after after' =>
        (∃ path dir dir' suffix, result = .ok path ∧ IsSuffix suffix ∧
          Draft tree cwd path dir (lock.nonce.stagingName suffix) [] after ∧
          Draft tree' cwd path dir' (lock.nonce.stagingName suffix) [] after') ∨
        (∃ fault, result = .error fault ∧ after.IsAt cwd tree ∧ after'.IsAt cwd tree') := by
  induction tries generalizing machine machine' with
  | zero => exact agree_pure (.inr ⟨_, rfl, hat, hat'⟩)
  | succ tries ih =>
    let suffix := supply.suffix machine.drawn
    let drawn : Machine := { machine with drawn := machine.drawn + 1 }
    let drawn' : Machine := { machine' with drawn := machine'.drawn + 1 }
    have hat : drawn.IsAt cwd tree := ⟨hat.directory, hat.tree⟩
    have hat' : drawn'.IsAt cwd tree' := ⟨hat'.directory, hat'.tree⟩
    have hdraw : Machine.answer supply programs .randomSuffix machine = (suffix, drawn) := rfl
    have hdraw' : Machine.answer supply programs .randomSuffix machine' = (suffix, drawn') := by
      show (supply.suffix machine'.drawn, drawn') = _
      rw [← hdrawn]
    refine agree_request hdraw hdraw' ?_
    have hs : IsSuffix suffix := hsuffix machine.drawn
    have hname := lock.nonce.isName_stagingName hs
    rcases (hbase.names_join hname).makeDirectory_congr (hbase'.names_join hname) (hsame hs) with
      ⟨fault, hmade, hmade'⟩ | ⟨after, after', hmade, hmade'⟩
    · rw [← hat.tree, ← hat.directory, ← Lock.stagingName_eq] at hmade
      rw [← hat'.tree, ← hat'.directory, ← Lock.stagingName_eq] at hmade'
      refine agree_request (change_error hmade) (change_error hmade') ?_
      dsimp only
      split_ifs
      · exact ih hat hat' (congrArg (· + 1) hdrawn)
      · exact agree_pure (.inr ⟨_, rfl, hat, hat'⟩)
    · rw [← hat.tree, ← hat.directory] at hmade
      rw [← hat'.tree, ← hat'.directory] at hmade'
      obtain ⟨dir, hdraft⟩ := Draft.of_makeDirectory hsound (by rw [hstart]; rfl) hname hat hmade
      obtain ⟨dir', hdraft'⟩ := Draft.of_makeDirectory hsound' (by rw [hstart]; rfl) hname hat' hmade'
      rw [← Lock.stagingName_eq] at hmade hmade' hdraft hdraft'
      refine agree_request (change_ok hmade) (change_ok hmade') (agree_pure ?_)
      exact .inl ⟨_, dir, dir', suffix, rfl, hs, hdraft, hdraft'⟩

theorem agree_stage (hat : machine.IsAt cwd tree) (hat' : machine'.IsAt cwd tree')
    (hdrawn : machine.drawn = machine'.drawn) (hscratch : base = (lock.scratchDir claimant).absoluteFrom cwd) :
    Agree (Machine.answer supply programs) (lock.stage claimant) machine machine'
      fun result after after' =>
        (∃ path dir dir' suffix now now', result = .ok path ∧ IsSuffix suffix ∧
          Draft tree cwd path dir (lock.nonce.stagingName suffix) (lock.claimFiles claimant now) after ∧
          Draft tree' cwd path dir' (lock.nonce.stagingName suffix) (lock.claimFiles claimant now') after') ∨
        (∃ error, result = .error error ∧ after.IsAt cwd tree ∧ after'.IsAt cwd tree') := by
  have habsolute : Agree (Machine.answer supply programs) (Lock.absolute (lock.scratchDir claimant)) machine
      machine' fun found after after' => found = base ∧ after = machine ∧ after' = machine' := by
    refine agree_of_yields (Draft.yields_absolute _ hat) (Draft.yields_absolute _ hat') ?_
    rintro _ _ after after' ⟨rfl, rfl⟩ ⟨rfl, rfl⟩
    exact ⟨rfl, hscratch.symm, rfl, rfl⟩
  refine habsolute.bind ?_
  rintro _ _ _ ⟨rfl, rfl, rfl⟩
  refine (agree_makeStaging hstart hsound hsound' hsuffix hbase hbase' hsame _ hat hat' hdrawn).bind ?_
  rintro result after after'
    (⟨path, dir, dir', suffix, rfl, hs, hdraft, hdraft'⟩ | ⟨fault, rfl, hat, hat'⟩)
  · have hfilled : Agree (Machine.answer supply programs) (lock.fillStaging claimant path) after after'
        fun result after after' =>
          (∃ now now', result = .ok () ∧
            Draft tree cwd path dir (lock.nonce.stagingName suffix) (lock.claimFiles claimant now) after ∧
            Draft tree' cwd path dir' (lock.nonce.stagingName suffix) (lock.claimFiles claimant now') after') ∨
          (∃ error files files', result = .error error ∧
            Draft tree cwd path dir (lock.nonce.stagingName suffix) files after ∧
            Draft tree' cwd path dir' (lock.nonce.stagingName suffix) files' after') := by
      refine agree_of_yields (hdraft.yields_fillStaging lock claimant)
        (hdraft'.yields_fillStaging lock claimant) ?_
      rintro result result' after after' ⟨rfl, hends⟩ ⟨rfl, hends'⟩
      refine ⟨rfl, ?_⟩
      rcases hends with ⟨now, hok, hdraft⟩ | ⟨error, files, herror, hdraft⟩
      · rcases hends' with ⟨now', -, hdraft'⟩ | ⟨error, files, herror, -⟩
        · exact .inl ⟨now, now', hok, hdraft, hdraft'⟩
        · cases hok.symm.trans herror
      · rcases hends' with ⟨now', hok, -⟩ | ⟨error', files', -, hdraft'⟩
        · cases hok.symm.trans herror
        · exact .inr ⟨error, files, files', herror, hdraft, hdraft'⟩
    refine hfilled.bind ?_
    rintro result after after'
      (⟨now, now', rfl, hdraft, hdraft'⟩ | ⟨error, files, files', rfl, hdraft, hdraft'⟩)
    · exact agree_pure (.inl ⟨path, dir, dir', suffix, now, now', rfl, hs, hdraft, hdraft'⟩)
    · have hremoved : Agree (Machine.answer supply programs) (Routine.removeTree path) after after'
          fun _ after after' => after.IsAt cwd tree ∧ after'.IsAt cwd tree' := by
        refine agree_of_yields hdraft.yields_removeTree hdraft'.yields_removeTree ?_
        rintro _ _ after after' ⟨rfl, hat⟩ ⟨rfl, hat'⟩
        exact ⟨rfl, hat, hat'⟩
      exact hremoved.bind fun _ _ _ hats => agree_pure (.inr ⟨error, rfl, hats⟩)
  · exact agree_pure (.inr ⟨_, rfl, hat, hat'⟩)

end Claim

/-! ## Any operation side by side -/

theorem Disk.Tree.Within.prune (h : ground.Within tree) (hground : ground.Sound) {place : Place}
    (hfree : ground.get? place = none) : ground.Within (tree.prune place) := by
  intro q entry hget
  rw [Tree.get?_prune_of_not_prefix (hground.not_prefix_of_get? hfree hget), h q entry hget]

section Deed

variable {deed : Lock.Deed} {report : Lock.Report} {after after' : Machine}

theorem Lock.Deed.MadeBoth.nothing : deed.MadeBoth parent tree tree' report tree tree' :=
  ⟨.nothing, .nothing rfl, .nothing rfl, nofun⟩

theorem Lock.Deed.MadeBoth.of_vacated (h : deed.lock.Vacated parent machine machine' after after') :
    deed.MadeBoth parent machine.tree machine'.tree report after.tree after'.tree := by
  cases h with
  | kept hkept hkept' =>
    rw [hkept.tree, hkept'.tree]
    exact .nothing
  | gone _ hgone hgone' => exact ⟨.vacated, .vacated hgone.tree, .vacated hgone'.tree, nofun⟩

section Machine

variable (hground : ground.Sound) (hrests : deed.Rests ground parent scratch)
  (hmeets : deed.Meets ground parent machine.tree) (hdirectory : machine.directory = deed.directory)
include hrests hmeets hdirectory

theorem Lock.Deed.Meets.leadsTo : machine.tree.LeadsTo machine.directory deed.lock.parent parent := by
  rw [hdirectory]
  exact hrests.leadsTo.mono hmeets.within

include hground

/-- A handle that finds its nonce finds it in a directory, and its way does not come by there. -/
theorem Lock.Deed.Meets.releases : deed.lock.Releases parent machine := by
  have hleads := hmeets.leadsTo hrests hdirectory
  refine Lock.releases_of_passes hmeets.sound hleads (fun hheld => ?_) fun _ => ?_
  · refine (names_claimDir hleads).get?_of_readFile_join (fun target => ?_) isName_heldBytes hheld
    simpa [Lock.claimIn] using hmeets.unlinked [] target
  · rw [hdirectory]
    exact hrests.leadsTo.mono (hmeets.within.prune hground hrests.claim_free)

end Machine

variable (hground : ground.Sound) (hrests : deed.Rests ground parent scratch)
  (hmeets : deed.Meets ground parent machine.tree) (hmeets' : deed.Meets ground parent machine'.tree)
  (hsame : ∀ q, deed.Heeds parent scratch q → machine.tree.get? q = machine'.tree.get? q)
  (hdirectory : machine.directory = deed.directory) (hdirectory' : machine'.directory = deed.directory)
include hrests hmeets hmeets' hsame hdirectory hdirectory'

theorem Lock.Deed.readFile_eq {file : Name} (hfile : Path.IsName file) :
    machine.tree.readFile machine.directory (deed.lock.claimDir.join ⟨file⟩) =
      machine'.tree.readFile machine'.directory (deed.lock.claimDir.join ⟨file⟩) := by
  have hnames := names_claimDir (hmeets.leadsTo hrests hdirectory)
  have hnames' := names_claimDir (hmeets'.leadsTo hrests hdirectory')
  rw [hdirectory', ← hdirectory] at hnames' ⊢
  refine hnames.readFile_join_congr (fun target => ?_) hfile hnames' (hmeets.unlinked [file]) ?_
    (hsame _ (.claim [file]))
  · simpa [Lock.claimIn] using hmeets.unlinked [] target
  · simpa [Lock.claimIn] using hsame _ (.claim [])

include hground

theorem agree_tryClaim (hsuffix : ∀ n, IsSuffix (supply.suffix n)) (hdrawn : machine.drawn = machine'.drawn) :
    Agree (Machine.answer supply programs) (deed.lock.tryClaim deed.claimant) machine machine'
      fun result after after' =>
        deed.MadeBoth parent machine.tree machine'.tree (.claimed result) after.tree after'.tree := by
  have hleads := hmeets.leadsTo hrests hdirectory
  have hleads' := hmeets'.leadsTo hrests hdirectory'
  have hparent : ground.get? parent = some .directory := by
    refine (names_claimDir hrests.leadsTo).get?_dir hground ?_
    rw [Lock.claimDir_eq, Path.start_join deed.lock.name.isName]
    exact hrests.start
  have hclaim : machine.tree.get? (deed.lock.claimIn parent) = machine'.tree.get? (deed.lock.claimIn parent) := by
    simpa using hsame _ (.claim [])
  refine (agree_isLocked hleads hleads' (hdirectory.trans hdirectory'.symm) hclaim).bind ?_
  rintro result _ _ ⟨rfl, rfl, hfree⟩
  rcases result with error | (_ | _)
  · exact agree_pure .nothing
  · obtain ⟨hfit, hfree⟩ := hfree rfl
    have hstage := @agree_stage supply programs deed.lock deed.claimant _ _ _ _ _ _ _
      (Path.start_absoluteFrom _ deed.directory) hmeets.sound hmeets'.sound hsuffix
      (hrests.base_leadsTo.mono hmeets.within) (hrests.base_leadsTo.mono hmeets'.within)
      (fun hs => hsame _ (.staging hs)) ⟨hdirectory, rfl⟩ ⟨hdirectory', rfl⟩ hdrawn rfl
    refine hstage.bind ?_
    rintro result after after' (⟨path, dir, dir', suffix, now, now', rfl, hs, hdraft, hdraft'⟩ |
      ⟨error, rfl, hat, hat'⟩)
    · rw [hdirectory] at hleads
      rw [hdirectory'] at hleads'
      refine agree_of_yields
        (yields_putInPlace hleads (hmeets.within _ _ hparent) hs hfit hfree hdraft)
        (yields_putInPlace hleads' (hmeets'.within _ _ hparent) hs hfit (hclaim ▸ hfree) hdraft') ?_
      rintro _ _ after after' ⟨rfl, hclaimed⟩ ⟨rfl, hclaimed'⟩
      exact ⟨rfl, .claimed, .claimed now hclaimed.sound hclaimed.changes hclaimed.below,
        .claimed now' hclaimed'.sound hclaimed'.changes hclaimed'.below, fun _ => rfl⟩
    · rw [← hat.tree, ← hat'.tree]
      exact agree_pure .nothing
  · exact agree_request rfl rfl (agree_pure .nothing)

theorem agree_operation (hsuffix : ∀ n, IsSuffix (supply.suffix n)) (hdrawn : machine.drawn = machine'.drawn) :
    Agree (Machine.answer supply programs) (deed.operation.routine deed.lock deed.claimant) machine machine'
      fun report after after' =>
        deed.MadeBoth parent machine.tree machine'.tree report after.tree after'.tree := by
  have hleads := hmeets.leadsTo hrests hdirectory
  have hleads' := hmeets'.leadsTo hrests hdirectory'
  have hreleases := hmeets.releases hground hrests hdirectory
  have hreleases' := hmeets'.releases hground hrests hdirectory'
  have hcwd := hdirectory.trans hdirectory'.symm
  have hread := @Lock.Deed.readFile_eq _ _ _ _ _ _ hrests hmeets hmeets' hsame hdirectory hdirectory'
  have hheld : deed.lock.IsHeldAt machine ↔ deed.lock.IsHeldAt machine' := by
    rw [Lock.IsHeldAt, Lock.IsHeldAt, Lock.heldFile, Lock.heldName_eq, hread isName_heldBytes]
  have hmay : machine.tree.replaceable .directory (deed.lock.releasedIn parent) =
      machine'.tree.replaceable .directory (deed.lock.releasedIn parent) := by
    refine Tree.replaceable_congr ?_ (fun name => hsame _ (.released [name])) _
    simpa using hsame _ (.released [])
  have hclaim : machine.tree.get? (deed.lock.claimIn parent) = machine'.tree.get? (deed.lock.claimIn parent) := by
    simpa using hsame _ (.claim [])
  cases deed.operation with
  | tryClaim =>
    exact (agree_tryClaim hground hrests hmeets hmeets' hsame hdirectory hdirectory' hsuffix hdrawn).bind
      fun _ _ _ hmade => agree_pure hmade
  | isHeld =>
    refine (agree_isHeld hreleases hreleases' hcwd hheld).bind ?_
    rintro held _ _ ⟨rfl, rfl, -⟩
    exact agree_pure .nothing
  | isLocked =>
    refine (agree_isLocked hleads hleads' hcwd hclaim).bind ?_
    rintro result _ _ ⟨rfl, rfl, -⟩
    exact agree_pure .nothing
  | holder =>
    have hreply : Machine.answer supply programs (.readFile deed.lock.holderFile) machine' =
        (machine.tree.readFile machine.directory deed.lock.holderFile, machine') :=
      congrArg (·, machine') (hread isName_holderBytes).symm
    have hholder : Agree (Machine.answer supply programs) deed.lock.holder? machine machine'
        fun _ after after' => after = machine ∧ after' = machine' :=
      agree_request rfl hreply (agree_pure ⟨rfl, rfl⟩)
    refine hholder.bind ?_
    rintro holder _ _ ⟨rfl, rfl⟩
    exact agree_pure .nothing
  | unlock =>
    exact (agree_unlock hreleases hreleases' hcwd hheld hmay).bind
      fun _ _ _ hvacated => agree_pure (.of_vacated hvacated)
  | release spent =>
    exact (agree_release hreleases hreleases' hcwd hheld hmay spent).bind
      fun _ _ _ hvacated => agree_pure (.of_vacated hvacated)
  | drop spent =>
    exact (agree_drop hreleases hreleases' hcwd hheld hmay spent).bind
      fun _ _ _ hvacated => agree_pure (.of_vacated hvacated)

end Deed

/-! ## What an effect touches -/

namespace Lock.Deed

variable {deed : Deed} {effect : Effect} {before before' after after' : Tree} {report : Report} {q : Place}

theorem Made.sound (h : deed.Made parent before after effect) (hsound : before.Sound) : after.Sound := by
  cases h with
  | nothing heq => exact heq ▸ hsound
  | claimed now hafter => exact hafter
  | vacated heq => exact heq ▸ (hsound.prune _).prune _

/-- An operation touches nothing but the claim and what was moved aside. -/
theorem Made.get?_eq (h : deed.Made parent before after effect) (hclaim : ¬ deed.lock.claimIn parent <+: q)
    (hreleased : ¬ deed.lock.releasedIn parent <+: q) : after.get? q = before.get? q := by
  cases h with
  | nothing heq => rw [heq]
  | claimed now _ hchanges => exact hchanges q hclaim
  | vacated heq => rw [heq, Tree.get?_prune_of_not_prefix hreleased, Tree.get?_prune_of_not_prefix hclaim]

theorem claimFiles_alike (deed : Deed) (rest : List Name) (now now' : Time.Instant) :
    filesView (deed.lock.claimFiles deed.claimant now) rest =
        filesView (deed.lock.claimFiles deed.claimant now') rest ∨
      rest = [holderBytes] := by
  rcases rest with _ | ⟨file, _ | ⟨next, rest⟩⟩
  · left
    simp only [filesView]
  · by_cases hholder : file = holderBytes
    · exact .inr (by rw [hholder])
    · left
      simp only [filesView, Lock.claimFiles, List.lookup_cons, beq_eq_false_iff_ne.2 hholder]
  · left
    simp only [filesView]

theorem filesView_claimFiles_holder (deed : Deed) (now : Time.Instant) :
    filesView (deed.lock.claimFiles deed.claimant now) [holderBytes] = some (.file (deed.record now)) := by
  simp only [filesView, Lock.claimFiles, List.lookup_cons, beq_eq_false_iff_ne.2 heldBytes_ne_holderBytes.symm]
  simp [record]

theorem Made.stamps (h : deed.MadeBoth parent before before' report after after')
    (hq : deed.lock.claimIn parent <+: q ∨ deed.lock.releasedIn parent <+: q)
    (hsame : before.get? q = before'.get? q) :
    after.get? q = after'.get? q ∨ deed.Stamps parent report after after' q := by
  obtain ⟨effect, hmade, hmade', hreport⟩ := h
  cases hmade with
  | nothing heq =>
    cases hmade' with
    | nothing heq' => exact .inl (by rw [heq, heq', hsame])
  | vacated heq =>
    cases hmade' with
    | vacated heq' =>
      left
      rw [heq, heq']
      simp only [Tree.get?_prune_eq (releasedIn_ne_nil _ parent), Tree.get?_prune_eq (claimIn_ne_nil _ parent)]
      rcases hq with hq | hq
      · rw [if_pos hq, if_pos hq]
      · rw [if_pos hq, if_pos hq]
  | claimed now _ hchanges hbelow =>
    cases hmade' with
    | claimed now' _ hchanges' hbelow' =>
      by_cases hclaim : deed.lock.claimIn parent <+: q
      · obtain ⟨rest, rfl⟩ := hclaim
        rcases deed.claimFiles_alike rest now now' with halike | rfl
        · rw [Tree.get?_append_of_below hbelow, Tree.get?_append_of_below hbelow']
          exact .inl halike
        · refine .inr ⟨hreport rfl, rfl, ⟨now, ?_⟩, now', ?_⟩
          · rw [Tree.get?_append_of_below hbelow, deed.filesView_claimFiles_holder]
          · rw [Tree.get?_append_of_below hbelow', deed.filesView_claimFiles_holder]
      · left
        rw [hchanges q hclaim, hchanges' q hclaim, hsame]

/-! ## Two handles -/

/-- Two handles have locks of different names in one directory, and nonces of their own. Their ways lead over a
ground in which nothing stands at the places that they clear. -/
structure Neighbours (first second : Deed) (ground : Tree) (parent scratch scratch' : Place) : Prop where
  sound : ground.Sound
  name_ne : first.lock.name ≠ second.lock.name
  nonce_ne : first.lock.nonce ≠ second.lock.nonce
  rests : first.Rests ground parent scratch
  rests' : second.Rests ground parent scratch'

variable {first second : Deed} {scratch' : Place}

theorem Rests.scratch_get? (h : deed.Rests ground parent scratch) (hground : ground.Sound) :
    ground.get? scratch = some .directory := by
  obtain ⟨left, hleads⟩ := h.base_leadsTo.leads
  exact hleads.get?_eq hground (congrArg ground.get? (Path.start_absoluteFrom _ deed.directory))

theorem Neighbours.symm (h : first.Neighbours second ground parent scratch scratch') :
    second.Neighbours first ground parent scratch' scratch :=
  ⟨h.sound, h.name_ne.symm, h.nonce_ne.symm, h.rests', h.rests⟩

section Neighbours

variable (h : first.Neighbours second ground parent scratch scratch')
include h

theorem Neighbours.apart (hq : second.Heeds parent scratch' q) :
    ¬ first.lock.claimIn parent <+: q ∧ ¬ first.lock.releasedIn parent <+: q := by
  cases hq with
  | claim rest =>
    refine ⟨fun hpre => ?_, fun hpre => ?_⟩
    · exact h.name_ne (LockName.bytes_injective (Tree.eq_of_concat_prefix hpre))
    · exact second.lock.name.bytes_ne_releasedName _ (Tree.eq_of_concat_prefix hpre).symm
  | released rest =>
    refine ⟨fun hpre => ?_, fun hpre => ?_⟩
    · exact first.lock.name.bytes_ne_releasedName _ (Tree.eq_of_concat_prefix hpre)
    · exact h.nonce_ne (Nonce.releasedName_injective (Tree.eq_of_concat_prefix hpre))
  | @staging suffix hs =>
    -- A staging directory is in none of the places that are cleared, so it could only be one of them.
    have hstaging : ∀ name, ground.get? (parent ++ [name]) = none →
        name ≠ second.lock.nonce.stagingName suffix →
        ¬ parent ++ [name] <+: scratch' ++ [second.lock.nonce.stagingName suffix] := by
      intro name hfree hne hpre
      have hscratch := h.sound.not_prefix_of_get? hfree (h.rests'.scratch_get? h.sound)
      by_cases heq : parent ++ [name] = scratch' ++ [second.lock.nonce.stagingName suffix]
      · exact hne (List.cons.inj (List.append_inj' heq rfl).2).1
      · have hup := Tree.prefix_dropLast hpre heq
        rw [List.dropLast_concat] at hup
        exact hscratch hup
    exact ⟨hstaging _ h.rests.claim_free (first.lock.name.bytes_ne_stagingName _ hs),
      hstaging _ h.rests.released_free (Nonce.releasedName_ne_stagingName _ _ hs)⟩

theorem Neighbours.meets (hmade : first.Made parent before after effect)
    (hmeets : second.Meets ground parent before) : second.Meets ground parent after where
  sound := hmade.sound hmeets.sound
  within q entry hget := by
    rw [hmade.get?_eq (h.sound.not_prefix_of_get? h.rests.claim_free hget)
      (h.sound.not_prefix_of_get? h.rests.released_free hget), hmeets.within q entry hget]
  unlinked rest target := by
    obtain ⟨hclaim, hreleased⟩ := h.apart (.claim rest)
    rw [hmade.get?_eq hclaim hreleased]
    exact hmeets.unlinked rest target

theorem Neighbours.same (hmade : first.Made parent before after effect) (hq : second.Heeds parent scratch' q) :
    before.get? q = after.get? q :=
  (hmade.get?_eq (h.apart hq).1 (h.apart hq).2).symm

/-- The trees that two operations make in either order. They are the same at a place that neither touches; where
one of them touches it the other does not, and does what it would have done alone. -/
theorem Neighbours.diamond {tree left leftRight right rightLeft : Tree} {report report' : Report}
    (hmade : first.MadeBoth parent tree right report left rightLeft)
    (hmade' : second.MadeBoth parent tree left report' right leftRight) (q : Place) :
    leftRight.get? q = rightLeft.get? q ∨ first.Stamps parent report leftRight rightLeft q ∨
      second.Stamps parent report' leftRight rightLeft q := by
  have ⟨effect, hleft, hrightLeft, _⟩ := hmade
  have ⟨effect', hright, hleftRight, _⟩ := hmade'
  by_cases hq : first.lock.claimIn parent <+: q ∨ first.lock.releasedIn parent <+: q
  · have hheeds : first.Heeds parent scratch q := by
      rcases hq with ⟨rest, rfl⟩ | ⟨rest, rfl⟩
      · exact .claim rest
      · exact .released rest
    have hkept := h.symm.same hleftRight hheeds
    rcases Made.stamps hmade hq (h.symm.same hright hheeds) with heq | hstamps
    · exact .inl (hkept.symm.trans heq)
    · obtain ⟨hreport, hplace, hget, hget'⟩ := hstamps
      rw [hkept] at hget
      exact .inr (.inl ⟨hreport, hplace, hget, hget'⟩)
  by_cases hq' : second.lock.claimIn parent <+: q ∨ second.lock.releasedIn parent <+: q
  · have hheeds : second.Heeds parent scratch' q := by
      rcases hq' with ⟨rest, rfl⟩ | ⟨rest, rfl⟩
      · exact .claim rest
      · exact .released rest
    have hkept := h.same hrightLeft hheeds
    rcases Made.stamps hmade' hq' (h.same hleft hheeds) with heq | hstamps
    · exact .inl (heq.symm.trans hkept)
    · obtain ⟨hreport, hplace, hget, hget'⟩ := hstamps
      rw [hkept] at hget
      exact .inr (.inr ⟨hreport, hplace, hget', hget⟩)
  · obtain ⟨hclaim, hreleased⟩ := not_or.1 hq
    obtain ⟨hclaim', hreleased'⟩ := not_or.1 hq'
    left
    rw [hleftRight.get?_eq hclaim' hreleased', hleft.get?_eq hclaim hreleased,
      hrightLeft.get?_eq hclaim hreleased, hright.get?_eq hclaim' hreleased']

end Neighbours

theorem run_alike (hsuffix : ∀ n, IsSuffix (supply.suffix n)) (hground : ground.Sound)
    (hrests : deed.Rests ground parent scratch) (hmeets : deed.Meets ground parent machine.tree)
    (hmeets' : deed.Meets ground parent machine'.tree)
    (hsame : ∀ q, deed.Heeds parent scratch q → machine.tree.get? q = machine'.tree.get? q)
    (time time' : Time.Instant) :
    (deed.run supply programs time machine).1 = (deed.run supply programs time' machine').1 ∧
      deed.MadeBoth parent machine.tree machine'.tree (deed.run supply programs time machine).1
        (deed.run supply programs time machine).2.tree (deed.run supply programs time' machine').2.tree := by
  have hagree := @agree_operation supply programs _ _ _ (deed.start time machine) (deed.start time' machine') _
    hground hrests hmeets hmeets' hsame rfl rfl hsuffix rfl
  exact ⟨hagree.value_eq, hagree.related⟩

theorem run_made (hsuffix : ∀ n, IsSuffix (supply.suffix n)) (hground : ground.Sound)
    (hrests : deed.Rests ground parent scratch) (hmeets : deed.Meets ground parent machine.tree)
    (time : Time.Instant) :
    ∃ effect, deed.Made parent machine.tree (deed.run supply programs time machine).2.tree effect := by
  obtain ⟨-, effect, hmade, -⟩ := @run_alike supply programs _ _ _ _ _ _ hsuffix hground hrests hmeets hmeets
    (fun _ _ => rfl) time time
  exact ⟨effect, hmade⟩

/-- Operations of handles for locks of different names do not touch each other's claims, and it does not matter
which one comes first. -/
theorem Neighbours.independent (hsuffix : ∀ n, IsSuffix (supply.suffix n))
    (h : first.Neighbours second ground parent scratch scratch')
    (hmeets : first.Meets ground parent machine.tree) (hmeets' : second.Meets ground parent machine.tree) :
    first.Independent supply programs parent second machine := by
  have hmade := @run_made supply programs _ _ _ _ _ hsuffix h.sound h.rests hmeets
  have hmade' := @run_made supply programs _ _ _ _ _ hsuffix h.sound h.rests' hmeets'
  refine ⟨fun time => ?_, fun time => ?_, fun time₁ time₂ time₃ time₄ => ?_⟩
  · obtain ⟨effect, hmade⟩ := hmade time
    exact funext fun rest => (h.same hmade (.claim rest)).symm
  · obtain ⟨effect, hmade'⟩ := hmade' time
    exact funext fun rest => (h.symm.same hmade' (.claim rest)).symm
  · obtain ⟨effect, hmade⟩ := hmade time₁
    obtain ⟨effect', hmade'⟩ := hmade' time₃
    obtain ⟨hreport, hboth⟩ := @run_alike supply programs _ _ _ _ _ _ hsuffix h.sound h.rests hmeets
      (h.symm.meets hmade' hmeets) (fun _ hq => h.symm.same hmade' hq) time₁ time₄
    obtain ⟨hreport', hboth'⟩ := @run_alike supply programs _ _ _ _ _ _ hsuffix h.sound h.rests' hmeets'
      (h.meets hmade hmeets') (fun _ hq => h.same hmade hq) time₃ time₂
    refine ⟨Prod.ext hreport hreport'.symm, fun q => ?_⟩
    have hdiamond := h.diamond hboth hboth' q
    rw [hreport'] at hdiamond
    exact hdiamond

end Lock.Deed

/-! ## Two claims beside each other -/

namespace Site

/-- The handles for the locks `a` and `b` in one directory. -/
def besideLock (second : Bool) (parent : String) : Lock :=
  { pairLock second with
    name := ⟨if second then "b" else "a", by cases second <;> decide⟩
    parent := .ofString parent }

/-- What a handle for one of the locks is told to do. -/
def besideDeed (second : Bool) (parent : String) (operation : Lock.Operation) : Lock.Deed :=
  ⟨besideLock second parent, pair.claimant second, [], operation, 0⟩

def besideMachine : Machine :=
  .ofTree ⟨[([[0x61]], .directory), ([[0x61], heldBytes], .file (List.replicate 20 0)),
    ([[0x62]], .directory), ([[0x62], heldBytes], .file (List.replicate 20 1))]⟩ [] ⟨0, 0⟩

theorem besideMachine_sound : besideMachine.tree.Sound := ⟨⟨by decide, by decide⟩, by decide⟩

theorem besideMachine_unlinked (q : Place) (target : Path) : besideMachine.tree.get? q ≠ some (.link target) := by
  intro hget
  have hne : q ≠ [] := by
    rintro rfl
    cases hget
  have hmem := besideMachine_sound.toOrdered.mem_entries_iff.2 ⟨hne, hget⟩
  have hnone : ∀ e ∈ besideMachine.tree.entries, e.2.kind ≠ .link := by decide
  exact hnone _ hmem rfl

def saysFree : Lock.Report → Bool
  | .locked (.ok taken) => !taken
  | _ => false

theorem empty_within_beside : Tree.empty.Within besideMachine.tree := by
  rintro (_ | ⟨name, q⟩) entry hget
  · exact hget
  · cases hget

theorem neighbours_beside :
    (besideDeed false "/" .unlock).Neighbours (besideDeed true "/" .unlock) .empty [] [] [] where
  sound := .empty
  name_ne := by decide
  nonce_ne := by decide
  rests := ⟨rfl, by unfold Tree.LeadsTo; decide, by unfold Tree.LeadsTo; decide, rfl, rfl⟩
  rests' := ⟨rfl, by unfold Tree.LeadsTo; decide, by unfold Tree.LeadsTo; decide, rfl, rfl⟩

theorem beside_independent :
    (besideDeed false "/" .unlock).Independent pair.supply noPrograms [] (besideDeed true "/" .unlock)
      besideMachine :=
  neighbours_beside.independent pair.suffix_spec
    ⟨besideMachine_sound, empty_within_beside, fun _ => besideMachine_unlinked _⟩
    ⟨besideMachine_sound, empty_within_beside, fun _ => besideMachine_unlinked _⟩

/-- A handle that gets to its lock through the claim of another does not find it when that claim is released. -/
theorem not_independent_of_detour :
    ¬ ∀ (supply : Supply) (programs : Machine.Programs) (parent scratch scratch' : Place)
      (first second : Lock.Deed) (machine : Machine), (∀ n, IsSuffix (supply.suffix n)) → machine.tree.Sound →
      (∀ lock ∈ [first.lock, second.lock], ∀ rest target,
        machine.tree.get? (lock.claimIn parent ++ rest) ≠ some (.link target)) →
      first.lock.parent = second.lock.parent →
      machine.tree.LeadsTo first.directory first.lock.parent parent →
      machine.tree.LeadsTo second.directory second.lock.parent parent →
      first.lock.name ≠ second.lock.name → first.lock.nonce ≠ second.lock.nonce →
      machine.tree.LeadsTo first.directory (first.lock.base first.claimant first.directory) scratch →
      machine.tree.LeadsTo second.directory (second.lock.base second.claimant second.directory) scratch' →
      (∀ lock ∈ [first.lock, second.lock], ∀ place ∈ [scratch, scratch'],
        ¬ lock.claimIn parent <+: place ∧ ¬ lock.releasedIn parent <+: place) →
      first.Independent supply programs parent second machine := by
  intro hall
  have hindependent := hall pair.supply noPrograms [] [] [] (besideDeed false "/a/.." .unlock)
    (besideDeed true "/a/.." .isLocked) besideMachine pair.suffix_spec besideMachine_sound
    (fun _ _ _ => besideMachine_unlinked _) rfl (by unfold Tree.LeadsTo; decide) (by unfold Tree.LeadsTo; decide)
    (by decide) (by decide) (by unfold Tree.LeadsTo; decide) (by unfold Tree.LeadsTo; decide) (by decide)
  have hsays : ∀ {reports reports' : Lock.Report × Lock.Report}, reports = reports'.swap →
      saysFree reports.2 = saysFree reports'.1 := by
    rintro _ reports' rfl
    rfl
  have hreports := hsays (hindependent.commutes ⟨0, 0⟩ ⟨0, 0⟩ ⟨0, 0⟩ ⟨0, 0⟩).1
  have hfree : saysFree ((besideDeed false "/a/.." .unlock).runBoth pair.supply noPrograms
      (besideDeed true "/a/.." .isLocked) ⟨0, 0⟩ ⟨0, 0⟩ besideMachine).1.2 = true := by
    decide +kernel
  have htaken : saysFree ((besideDeed true "/a/.." .isLocked).runBoth pair.supply noPrograms
      (besideDeed false "/a/.." .unlock) ⟨0, 0⟩ ⟨0, 0⟩ besideMachine).1.1 = false := by
    decide +kernel
  rw [hfree, htaken] at hreports
  cases hreports

end Site

end DirLock
