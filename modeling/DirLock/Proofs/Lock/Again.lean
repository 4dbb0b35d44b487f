import DirLock.Proofs.Lock.Turn

/-!
# Releasing again

A handle whose claim was moved aside but not deleted moves its next claim to the same place. What it finds
there is a part of the claim before, whatever the handle has done since. If nothing is left inside, the
release goes through and leaves the tree as it was before the first claim; otherwise the claim is not moved
and the handle goes on holding the lock, until what was left is cleared away.
-/

namespace DirLock

open Disk (Tree Place Path Name Entry Fault)
open Disk.Tree (Lost Thins Names Fits ChangesOn filesView)
open Routine (Yields)

/-! ## One turn after the other -/

/-- What the handle is told to do, on whose behalf, at what time, and what befalls its requests. -/
structure Lock.Turn where
  task : Lock.Task
  claimant : Claimant
  time : Time.Instant
  mishaps : Mishaps

namespace Lock.Turn

def run (supply : Supply) (programs : Machine.Programs) (lock : Lock) (turn : Turn) (machine : Machine) :
    Report × Machine :=
  let (report, trial) := (turn.task.routine lock turn.claimant).run
    (Trial.answer supply programs turn.mishaps) ⟨{ machine with clock := turn.time }, 0⟩
  (report, trial.machine)

/-- The turns of the handle, one after the other. -/
def runAll (supply : Supply) (programs : Machine.Programs) (lock : Lock) :
    List Turn → Machine → List Report × Machine
  | [], machine => ([], machine)
  | turn :: rest, machine =>
    let (report, machine) := turn.run supply programs lock machine
    let (reports, machine) := runAll supply programs lock rest machine
    (report :: reports, machine)

end Lock.Turn

/-- The report is about a claim that was moved aside and could not be deleted. -/
def Lock.Report.leavesBehind (report : Report) : Bool :=
  match report.release? with
  | some (.error (.io .removeReleased _ _)) => true
  | _ => false

/-- A handle that was just made: nobody knows its nonce, so nothing carries it or stands at the place that it
names. -/
structure Lock.Fresh (lock : Lock) (supply : Supply) (base : Machine) : Prop where
  sound : base.tree.Sound
  directory : base.tree.get? base.directory = some .directory
  unguessed : lock.Unguessed supply base.tree
  aside : ∀ parent, base.tree.LeadsTo base.directory lock.parent parent →
    base.tree.get? (lock.releasedIn parent) = none
  notHeld : ¬ lock.IsHeldAt base

/-- The tree is what it was at the beginning, but for a part of an earlier claim of the handle at the place to
which that was moved. -/
structure Lock.Littered (lock : Lock) (base : Machine) (parent : Place) (tree : Tree) : Prop where
  leadsTo : base.tree.LeadsTo base.directory lock.parent parent
  claim_free : base.tree.get? (lock.claimIn parent) = none
  aside_free : base.tree.get? (lock.releasedIn parent) = none
  heldFile : lock.heldFile.check = .ok ()
  releasedDir : lock.releasedDir.check = .ok ()
  sound : tree.Sound
  changes : ChangesOn (lock.releasedIn parent) base.tree tree
  remains : ∃ claimant now, ∀ rest e, tree.get? (lock.releasedIn parent ++ rest) = some e →
    filesView (lock.claimFiles claimant now) rest = some e

/-- The tree when the handle does not hold the lock. Once something was left behind it is a littered one. -/
inductive Lock.Ground (lock : Lock) (base : Machine) : Bool → Tree → Prop
  | clean : Ground lock base false base.tree
  | littered {left : Bool} {tree : Tree} (parent : Place) : lock.Littered base parent tree →
    Ground lock base left tree

/-- The handle does not hold the lock. -/
structure Lock.Without (lock : Lock) (base : Machine) (left : Bool) (machine : Machine) : Prop where
  directory : machine.directory = base.directory
  ground : lock.Ground base left machine.tree
  notHeld : ¬ lock.IsHeldAt machine

/-- The handle has made a claim that stands in its place. -/
inductive Lock.Within (lock : Lock) (base : Machine) (left : Bool) (machine : Machine) : Prop
  | intro {ground : Tree} {parent : Place} {claimant : Claimant} {now : Time.Instant} :
    lock.Ground base left ground →
    Draft ground base.directory lock.claimDir parent lock.name.bytes (lock.claimFiles claimant now) machine →
    Within lock base left machine

abbrev Lock.Stands (lock : Lock) (base : Machine) (left : Bool) (machine : Machine) : Prop :=
  lock.Without base left machine ∨ lock.Within base left machine

variable {supply : Supply} {programs : Machine.Programs} {lock : Lock} {claimant : Claimant}
  {base before after : Machine} {parent : Place} {tree ground : Tree} {left : Bool}

/-! ## What stands in the tree -/

theorem Lock.Littered.within (h : lock.Littered base parent tree) (hsound : base.tree.Sound) :
    base.tree.Within tree := by
  intro q e hget
  rw [h.changes q, hget]
  rintro ⟨rest, rfl⟩
  have hnone : base.tree.get? (lock.releasedIn parent ++ rest) = none :=
    congrFun (hsound.below_eq_none h.aside_free) rest
  rw [hnone] at hget
  cases hget

theorem Lock.Ground.within (h : lock.Ground base left ground) (hsound : base.tree.Sound) :
    base.tree.Within ground := by
  cases h with
  | clean => exact .refl _
  | littered parent hlittered => exact hlittered.within hsound

theorem Lock.Ground.sound (h : lock.Ground base left ground) (hsound : base.tree.Sound) : ground.Sound := by
  cases h with
  | clean => exact hsound
  | littered parent hlittered => exact hlittered.sound

theorem Lock.Ground.get?_link (h : lock.Ground base left ground) {q : Place} {target : Path}
    (hget : ground.get? q = some (.link target)) : base.tree.get? q = some (.link target) := by
  cases h with
  | clean => exact hget
  | littered parent hlittered =>
    rw [← hlittered.changes q, hget]
    rintro ⟨rest, rfl⟩
    obtain ⟨claimant, now, hremains⟩ := hlittered.remains
    exact filesView_ne_link _ _ _ (hremains rest _ hget)

/-- Nothing stands at the place to which the claim is moved but what was left of a claim, which is no link. -/
theorem Lock.Ground.aside_cases (h : lock.Ground base left ground) (hfresh : lock.Fresh supply base)
    (hleads : base.tree.LeadsTo base.directory lock.parent parent) :
    ground.get? (lock.releasedIn parent) = none ∨ ground.get? (lock.releasedIn parent) = some .directory := by
  cases h with
  | clean => exact .inl (hfresh.aside parent hleads)
  | littered parent' hlittered =>
    obtain rfl := hleads.unique hlittered.leadsTo
    obtain ⟨claimant, now, hremains⟩ := hlittered.remains
    cases hget : ground.get? (lock.releasedIn parent) with
    | none => exact .inl rfl
    | some e =>
      have hview := hremains [] e (by rwa [List.append_nil])
      exact .inr hview.symm

/-- The path of the parent leads where it led at the beginning. -/
theorem Lock.Ground.leadsTo (h : lock.Ground base left ground) (hsound : base.tree.Sound)
    (hleads : ground.LeadsTo base.directory lock.parent parent) :
    base.tree.LeadsTo base.directory lock.parent parent := by
  cases h with
  | clean => exact hleads
  | littered parent' hlittered =>
    obtain rfl := (hlittered.leadsTo.mono (hlittered.within hsound)).unique hleads
    exact hlittered.leadsTo

/-- What is known of the machine, whether the handle holds the lock or not. -/
structure Lock.Settled (lock : Lock) (base machine : Machine) : Prop where
  directory : machine.directory = base.directory
  sound : machine.tree.Sound
  within : base.tree.Within machine.tree
  link : ∀ {q target}, machine.tree.get? q = some (.link target) → base.tree.get? q = some (.link target)
  leadsTo : ∀ {parent}, machine.tree.LeadsTo base.directory lock.parent parent →
    base.tree.LeadsTo base.directory lock.parent parent

theorem Lock.Without.settled (h : lock.Without base left before) (hsound : base.tree.Sound) :
    lock.Settled base before :=
  ⟨h.directory, h.ground.sound hsound, h.ground.within hsound, h.ground.get?_link, h.ground.leadsTo hsound⟩

theorem Lock.Within.settled (h : lock.Within base left before) (hsound : base.tree.Sound) :
    lock.Settled base before := by
  obtain ⟨hground, hdraft⟩ := h
  refine ⟨hdraft.directory, hdraft.sound, (hground.within hsound).trans hdraft.within,
    fun hget => hground.get?_link (hdraft.get?_link hget), fun hleads => ?_⟩
  obtain rfl := (hdraft.leadsTo.mono hdraft.within).unique hleads
  exact hground.leadsTo hsound hdraft.leadsTo

theorem Lock.Stands.settled (h : lock.Stands base left before) (hsound : base.tree.Sound) :
    lock.Settled base before := h.elim (·.settled hsound) (·.settled hsound)

theorem Lock.Settled.works (h : lock.Settled base before) (hfresh : lock.Fresh supply base) :
    lock.Works supply before where
  sound := h.sound
  directory := by
    rw [h.directory]
    exact h.within _ _ hfresh.directory
  unguessed := ⟨hfresh.unguessed.parent, fun n q target hget => hfresh.unguessed.links n q target (h.link hget)⟩
  bypasses parent target hleads hget := by
    rw [h.directory] at hleads
    cases (hfresh.aside parent (h.leadsTo hleads)).symm.trans (h.link hget)

/-! ## What a turn does -/

theorem Lock.Littered.notHeld (h : lock.Littered base parent before.tree) (hsound : base.tree.Sound)
    (hdirectory : before.directory = base.directory) : ¬ lock.IsHeldAt before := by
  have hfree : before.tree.get? (lock.claimIn parent) = none :=
    (h.changes _ (by simpa using lock.not_aside_prefix_claimIn parent [])).trans h.claim_free
  have hleads : before.tree.LeadsTo before.directory lock.parent parent := by
    rw [hdirectory]
    exact h.leadsTo.mono (h.within hsound)
  intro hheld
  obtain ⟨fault, hread⟩ := (names_claimDir hleads).readFile_join_of_none hfree isName_heldBytes
  cases hread.symm.trans hheld

theorem Lock.Within.littered (h : lock.Within base left before) (hfresh : lock.Fresh supply base)
    (hheld : lock.IsHeldAt before) (hleads : before.tree.LeadsTo before.directory lock.parent parent)
    (haside : lock.releasedDir.check = .ok ())
    (hlost : Lost (lock.releasedIn parent) (before.tree.move (lock.claimIn parent) (lock.releasedIn parent))
      after.tree) :
    lock.Littered base parent after.tree := by
  obtain @⟨ground, place, claimant, now, hground, hdraft⟩ := h
  have hwithin := hground.within hfresh.sound
  rw [hdraft.directory] at hleads
  obtain rfl := hleads.unique (hdraft.leadsTo.mono hdraft.within)
  have hbase := hground.leadsTo hfresh.sound hdraft.leadsTo
  have hfree : base.tree.get? (lock.claimIn parent) = none := by
    by_contra hsome
    obtain ⟨e, he⟩ := Option.ne_none_iff_exists'.1 hsome
    cases hdraft.plot.free.symm.trans (hwithin _ _ he)
  have hmove := hdraft.sound.toOrdered.get?_move (lock.releasedIn_ne_nil parent) (lock.claimIn_ne_nil parent)
  refine ⟨hbase, hfree, hfresh.aside _ hbase, hheld.check, haside, hlost.sound, fun q hq => ?_,
    claimant, now, fun rest e hget => ?_⟩
  · -- What is not at the place to which the claim is moved is what it was, and the claim is gone.
    rcases hlost.get?_eq q with heq | ⟨hpre, -⟩
    · rw [heq, hmove, if_neg hq]
      split_ifs with hclaim
      · obtain ⟨rest, rfl⟩ := hclaim
        exact (congrFun (hfresh.sound.below_eq_none hfree) rest).symm
      · rw [hdraft.changes q hclaim]
        cases hground with
        | clean => rfl
        | littered parent' hlittered =>
          obtain rfl := hbase.unique hlittered.leadsTo
          exact hlittered.changes q hq
    · exact absurd hpre hq
  · rcases hlost.get?_eq (lock.releasedIn parent ++ rest) with heq | ⟨-, hgone⟩
    · rw [heq, hmove, if_pos (List.prefix_append _ _), List.drop_left] at hget
      rw [← Tree.get?_append_of_below hdraft.below]
      exact hget
    · rw [hgone] at hget
      cases hget

theorem Lock.Within.congr (h : lock.Within base left before) (hat : after.IsAt before.directory before.tree) :
    lock.Within base left after := by
  obtain ⟨hground, hdraft⟩ := h
  exact ⟨hground, hdraft.congr hat.directory hat.tree⟩

theorem Lock.Stands.congr (h : lock.Stands base left before) (hdirectory : after.directory = before.directory)
    (htree : after.tree = before.tree) : lock.Stands base left after := by
  rcases h with hwithout | hwithin
  · refine .inl ⟨hdirectory.trans hwithout.directory, htree ▸ hwithout.ground, fun hheld => hwithout.notHeld ?_⟩
    exact (Lock.isHeldAt_congr htree hdirectory).1 hheld
  · exact .inr (hwithin.congr ⟨hdirectory, htree⟩)

theorem Lock.Within.not_claimed (h : lock.Within base left before) {now : Time.Instant}
    (hclaimed : Draft before.tree before.directory lock.claimDir parent lock.name.bytes
      (lock.claimFiles claimant now) after) : False := by
  obtain ⟨-, hdraft⟩ := h
  rw [hdraft.directory] at hclaimed
  obtain rfl := (hdraft.leadsTo.mono hdraft.within).unique hclaimed.leadsTo
  cases hclaimed.plot.free.symm.trans (Tree.get?_of_below hdraft.below)

theorem Lock.Stands.claimed (h : lock.Stands base left before) {now : Time.Instant}
    (hclaimed : Draft before.tree before.directory lock.claimDir parent lock.name.bytes
      (lock.claimFiles claimant now) after) : lock.Within base left after := by
  rcases h with hwithout | hwithin
  · rw [hwithout.directory] at hclaimed
    exact ⟨hwithout.ground, hclaimed⟩
  · exact (hwithin.not_claimed hclaimed).elim

theorem Lock.Report.leavesBehind_eq_false {report : Lock.Report} {result : Except LockError Unit}
    (hrelease : report.release? = some result ∨ report.release? = none)
    (hresult : ∀ path fault, result ≠ .error (.io .removeReleased path fault)) :
    report.leavesBehind = false := by
  unfold leavesBehind
  rcases hrelease with hsome | hnone
  · rw [hsome]
    split
    · rename_i heq
      exact absurd (Option.some.inj heq) (hresult _ _)
    · rfl
  · rw [hnone]

theorem Lock.Stands.moved_aside (h : lock.Stands base left before) (hfresh : lock.Fresh supply base)
    (hheld : lock.IsHeldAt before) (hleads : before.tree.LeadsTo before.directory lock.parent parent)
    (haside : lock.releasedDir.check = .ok ())
    (hlost : Lost (lock.releasedIn parent) (before.tree.move (lock.claimIn parent) (lock.releasedIn parent))
      after.tree) (hdirectory : after.directory = before.directory) (left' : Bool) :
    lock.Stands base left' after := by
  have hbase := hdirectory.trans (h.settled hfresh.sound).directory
  rcases h with hwithout | hwithin
  · exact absurd hheld hwithout.notHeld
  · have hlittered := hwithin.littered hfresh hheld hleads haside hlost
    exact .inl ⟨hbase, .littered parent hlittered, hlittered.notHeld hfresh.sound hbase⟩

theorem Lock.Stands.did (h : lock.Stands base left before) (hfresh : lock.Fresh supply base)
    {report : Lock.Report} (hdid : lock.Did claimant before after report) :
    lock.Stands base (left || report.leavesBehind) after ∧
      (report.attempt? = some (.ok true) → lock.Within base (left || report.leavesBehind) after) := by
  have hsettled := h.settled hfresh.sound
  cases hdid with
  | looked hattempt hrelease hat =>
    rw [@Lock.Report.leavesBehind_eq_false _ (.ok ()) (.inr hrelease) nofun, Bool.or_false, hattempt]
    exact ⟨h.congr hat.directory hat.tree, nofun⟩
  | attempted hattempt hrelease hended =>
    rw [@Lock.Report.leavesBehind_eq_false _ (.ok ()) (.inr hrelease) nofun, Bool.or_false, hattempt]
    cases hended with
    | nothing hne hat => exact ⟨h.congr hat.directory hat.tree, fun hok => absurd (Option.some.inj hok) hne⟩
    | all parent now hclaimed =>
      have hwithin := h.claimed hclaimed
      exact ⟨.inr hwithin, fun _ => hwithin⟩
  | released hattempt hrelease hdirectory htold =>
    refine ⟨?_, fun hok => by rw [hattempt] at hok; cases hok⟩
    cases htold with
    | notHeld hnot htree =>
      rw [Lock.Report.leavesBehind_eq_false hrelease nofun, Bool.or_false]
      exact h.congr hdirectory htree
    | kept fault hheld htree =>
      rw [Lock.Report.leavesBehind_eq_false hrelease nofun, Bool.or_false]
      exact h.congr hdirectory htree
    | left parent fault hheld hleads haside hlost _ =>
      exact h.moved_aside hfresh hheld hleads haside hlost hdirectory _
    | gone parent hheld hleads haside htree =>
      refine h.moved_aside hfresh hheld hleads haside ?_ hdirectory _
      obtain ⟨moved, hget⟩ : ∃ moved, before.tree.get? (lock.claimIn parent) = some moved := by
        rcases h with hwithout | ⟨hground, hdraft⟩
        · exact absurd hheld hwithout.notHeld
        · rw [hsettled.directory] at hleads
          obtain rfl := hleads.unique (hdraft.leadsTo.mono hdraft.within)
          exact ⟨_, Tree.get?_of_below hdraft.below⟩
      rw [htree, ← prune_move hsettled.sound.toOrdered]
      exact .prune (Lock.sound_move hsettled.sound hget) _

/-! ## What a history does -/

section History

variable (hfresh : lock.Fresh supply base) (hsuffix : ∀ n, IsSuffix (supply.suffix n))
  (hdelay : 0 < lock.pauseNanos)
include hfresh hsuffix hdelay

theorem Lock.Stands.run (h : lock.Stands base left before) {turn : Lock.Turn}
    (hbears : turn.task.Bears turn.mishaps) {report : Lock.Report}
    (hrun : turn.run supply programs lock before = (report, after)) :
    lock.Stands base (left || report.leavesBehind) after ∧
      (report.attempt? = some (.ok true) → lock.Within base (left || report.leavesBehind) after) := by
  have hbegun : lock.Stands base left { before with clock := turn.time } := h.congr rfl rfl
  have hworks := (hbegun.settled hfresh.sound).works hfresh
  let begun : Trial := ⟨{ before with clock := turn.time }, 0⟩
  have hworks : lock.Works supply begun.machine := hworks
  have hdid := @yields_task_trial supply programs turn.mishaps begun lock turn.claimant hsuffix hdelay hworks _
    hbears
  obtain ⟨rfl, rfl⟩ := Prod.mk.inj hrun
  exact hbegun.did hfresh hdid

theorem Lock.Stands.runAll (h : lock.Stands base left before) {turns : List Lock.Turn}
    (hbears : ∀ turn ∈ turns, turn.task.Bears turn.mishaps) {reports : List Lock.Report}
    (hrun : Lock.Turn.runAll supply programs lock turns before = (reports, after)) :
    lock.Stands base (left || reports.any Lock.Report.leavesBehind) after ∧
      ∀ report, reports.getLast? = some report → report.attempt? = some (.ok true) →
        lock.Within base (left || reports.any Lock.Report.leavesBehind) after := by
  induction turns generalizing left before reports with
  | nil =>
    rw [Lock.Turn.runAll] at hrun
    obtain ⟨rfl, rfl⟩ := Prod.mk.inj hrun
    rw [List.any_nil, Bool.or_false]
    exact ⟨h, fun report hlast => by cases hlast⟩
  | cons turn rest ih =>
    rw [Lock.Turn.runAll] at hrun
    cases hfirst : turn.run supply programs lock before with
    | mk report middle =>
      cases hlater : Lock.Turn.runAll supply programs lock rest middle with
      | mk later last =>
        rw [hfirst] at hrun
        dsimp only at hrun
        rw [hlater] at hrun
        obtain ⟨rfl, rfl⟩ := Prod.mk.inj hrun
        obtain ⟨hstands, hwithin⟩ := Lock.Stands.run hfresh hsuffix hdelay h (hbears turn List.mem_cons_self) hfirst
        obtain ⟨hend, hlast⟩ := ih hstands (fun turn hmem => hbears turn (List.mem_cons_of_mem _ hmem)) hlater
        rw [List.any_cons, ← Bool.or_assoc]
        refine ⟨hend, fun report' hreport hacquired => ?_⟩
        cases later with
        | nil =>
          -- The last turn is the first one.
          cases rest with
          | nil =>
            obtain rfl := Option.some.inj hreport
            obtain ⟨-, rfl⟩ := Prod.mk.inj hlater
            rw [List.any_nil, Bool.or_false]
            exact hwithin hacquired
          | cons next rest => cases (Prod.mk.inj hlater).1
        | cons next later => exact hlast report' hreport hacquired

end History

/-! ## What the next release does -/

theorem Lock.Littered.plot (h : lock.Littered base parent tree) (hfresh : lock.Fresh supply base) :
    base.tree.Plot (lock.releasedIn parent) := by
  have hdirectory := (names_claimDir h.leadsTo).get?_dir hfresh.sound (Tree.get?_start hfresh.directory _)
  exact ⟨lock.releasedIn_ne_nil parent, by rwa [Lock.releasedIn, List.dropLast_concat], h.aside_free⟩

theorem Lock.Littered.prune_eq (h : lock.Littered base parent tree) (hsound : base.tree.Sound) :
    tree.prune (lock.releasedIn parent) = base.tree := by
  refine (h.sound.toOrdered.prune _).ext hsound.toOrdered fun q => ?_
  by_cases hroot : q = []
  · rw [hroot]
    rfl
  · rw [Tree.get?_prune tree hroot]
    split_ifs with hpre
    · obtain ⟨rest, rfl⟩ := List.isPrefixOf_iff_prefix.1 hpre
      exact (congrFun (hsound.below_eq_none h.aside_free) rest).symm
    · exact h.changes q fun hunder => hpre (List.isPrefixOf_iff_prefix.2 hunder)

section Next

variable {now : Time.Instant} {machine : Machine} (hlittered : lock.Littered base parent ground)
  (hfresh : lock.Fresh supply base)
  (hdraft : Draft ground base.directory lock.claimDir parent lock.name.bytes (lock.claimFiles claimant now)
    machine)
include hlittered hfresh hdraft

omit hlittered hfresh in
theorem Draft.get?_aside (rest : List Name) :
    machine.tree.get? (lock.releasedIn parent ++ rest) = ground.get? (lock.releasedIn parent ++ rest) :=
  hdraft.changes _ (lock.not_claimIn_prefix_aside parent rest)

theorem Draft.tidied {after : Machine} (hdirectory : after.directory = machine.directory)
    (htree : after.tree = machine.tree.prune (lock.releasedIn parent)) :
    Draft base.tree base.directory lock.claimDir parent lock.name.bytes (lock.claimFiles claimant now) after := by
  refine ⟨names_claimDir hlittered.leadsTo, hdraft.fits, hfresh.sound, ⟨hdraft.plot.ne_nil, ?_,
    hlittered.claim_free⟩, hdirectory.trans hdraft.directory, htree ▸ hdraft.sound.prune _, fun q hq => ?_, ?_⟩
  · have hdirectory := (hlittered.plot hfresh).directory
    rw [Lock.releasedIn, List.dropLast_concat] at hdirectory
    rwa [List.dropLast_concat]
  · rw [htree]
    by_cases hroot : q = []
    · rw [hroot]
      rfl
    · rw [Tree.get?_prune _ hroot, hdraft.changes q hq, ← Tree.get?_prune ground hroot,
        hlittered.prune_eq hfresh.sound]
  · funext rest
    rw [← congrFun hdraft.below rest, Tree.below, Tree.below, htree, Tree.get?_prune _ (by simp), if_neg]
    rw [List.isPrefixOf_iff_prefix]
    exact lock.not_aside_prefix_claimIn parent rest

theorem Draft.yields_unlock_again (hcleared : ∀ name, machine.tree.get? (lock.releasedIn parent ++ [name]) = none) :
    Yields (Machine.answer supply programs) lock.unlock machine fun result after =>
      result = .ok () ∧ after.tree = base.tree := by
  have hmay : ground.replaceable .directory (lock.releasedIn parent) = .ok () := by
    have hground : lock.Ground base true ground := .littered parent hlittered
    rcases hground.aside_cases hfresh hlittered.leadsTo with hnone | hdirectory
    · exact Tree.replaceable_of_none hnone _
    · unfold Tree.replaceable
      rw [hdirectory]
      refine if_pos ((Tree.isBare_iff _ _).2 fun name => ?_)
      rw [← hdraft.get?_aside]
      exact hcleared name
  refine (hdraft.yields_unlock hfresh.sound (hlittered.within hfresh.sound) hlittered.leadsTo
    (hlittered.plot hfresh) hlittered.heldFile hlittered.releasedDir hmay).mono ?_
  rintro result after ⟨rfl, htree⟩
  exact ⟨rfl, htree.trans (hlittered.prune_eq hfresh.sound)⟩

theorem Draft.yields_unlock_blocked {name : Name} {entry : Entry}
    (hblocked : machine.tree.get? (lock.releasedIn parent ++ [name]) = some entry) :
    Yields (Machine.answer supply programs) lock.unlock machine fun result after =>
      result = .error (.io .releaseClaim lock.claimDir (.os .notEmpty)) ∧ after = machine := by
  rw [hdraft.get?_aside] at hblocked
  have hfits : Fits lock.releasedDir lock.nonce.releasedName :=
    ⟨hlittered.releasedDir, by rw [Nonce.length_releasedName]; decide⟩
  have hnot : ¬ ground.isBare (lock.releasedIn parent) = true := fun hbare => by
    cases hblocked.symm.trans ((Tree.isBare_iff _ _).1 hbare name)
  have hrename := hdraft.rename_aside (hlittered.leadsTo.mono (hlittered.within hfresh.sound)) hfits
  rw [Tree.replaceable_of_not_bare (hlittered.sound.get?_of_append (List.cons_ne_nil _ _) hblocked) hnot]
    at hrename
  refine yields_isHeld.bind ?_
  rintro held after ⟨rfl, hiff⟩
  rw [hiff.2 (hdraft.isHeldAt hlittered.heldFile)]
  exact yields_of_answer (change_error hrename) ⟨rfl, rfl⟩

end Next

/-- What a release does that nothing befalls, once an earlier claim of the handle was left behind. -/
structure Lock.ReleasesAgain (supply : Supply) (programs : Machine.Programs) (lock : Lock) (base : Machine)
    (parent : Place) (machine : Machine) : Prop where
  /-- What was left behind is a part of a claim of the handle. -/
  remains : ∃ claimant now, ∀ rest e, machine.tree.get? (lock.releasedIn parent ++ rest) = some e →
    filesView (lock.claimFiles claimant now) rest = some e
  /-- If nothing is left inside, the lock is released and the tree is what it was before all claims. -/
  cleared : (∀ name, machine.tree.get? (lock.releasedIn parent ++ [name]) = none) → ∃ freed,
    lock.unlock.run (Machine.answer supply programs) machine = (.ok (), freed) ∧ freed.tree = base.tree ∧
      (lock.isLocked.run (Machine.answer supply programs) freed).1 = .ok false
  /-- If anything is left inside, the release fails and the handle goes on holding the lock. -/
  blocked : ∀ name entry, machine.tree.get? (lock.releasedIn parent ++ [name]) = some entry → ∃ kept,
    lock.unlock.run (Machine.answer supply programs) machine =
        (.error (.io .releaseClaim lock.claimDir (.os .notEmpty)), kept) ∧ kept.tree = machine.tree ∧
      (lock.isHeld.run (Machine.answer supply programs) kept).1 = true
  /-- When what was left behind has been cleared away, the lock is released. -/
  tidied : ∀ tidied : Machine, tidied.directory = machine.directory →
    tidied.tree = machine.tree.prune (lock.releasedIn parent) → ∃ freed,
      lock.unlock.run (Machine.answer supply programs) tidied = (.ok (), freed) ∧ freed.tree = base.tree

/-- A handle whose claim was moved aside and could not be deleted may acquire the lock again. What a release
does then that nothing befalls is decided by what is still left: it goes through if there is nothing inside,
and otherwise the handle goes on holding the lock. -/
theorem Lock.releases_again (hfresh : lock.Fresh supply base) (hsuffix : ∀ n, IsSuffix (supply.suffix n))
    (hvalid : lock.config.validate = .ok ()) {turns : List Lock.Turn}
    (hbears : ∀ turn ∈ turns, turn.task.Bears turn.mishaps) {reports : List Lock.Report}
    (hrun : Lock.Turn.runAll supply programs lock turns base = (reports, after))
    (hbehind : ∃ report ∈ reports, report.leavesBehind = true) :
    (∀ report, reports.getLast? = some report → report.attempt? = some (.ok true) → lock.IsHeldAt after) ∧
      (lock.IsHeldAt after → ∃ parent, base.tree.LeadsTo base.directory lock.parent parent ∧
        lock.ReleasesAgain supply programs base parent after) := by
  have hstart : lock.Stands base false base := .inl ⟨rfl, .clean, hfresh.notHeld⟩
  obtain ⟨hstands, hacquired⟩ := hstart.runAll hfresh hsuffix (Lock.pauseNanos_pos hvalid) hbears hrun
  have hany : (false || reports.any Lock.Report.leavesBehind) = true := by
    rw [Bool.false_or]
    exact List.any_eq_true.2 hbehind
  rw [hany] at hstands hacquired
  constructor
  · intro report hlast hok
    obtain ⟨hground, hdraft⟩ := hacquired report hlast hok
    cases hground with
    | littered parent hlittered => exact hdraft.isHeldAt hlittered.heldFile
  · intro hheld
    rcases hstands with hwithout | @⟨ground, parent, claimant, now, hground, hdraft⟩
    · exact absurd hheld hwithout.notHeld
    · cases hground with
      | littered parent' hlittered =>
        obtain rfl := hdraft.leadsTo.unique (hlittered.leadsTo.mono (hlittered.within hfresh.sound))
        refine ⟨parent, hlittered.leadsTo, ?_, fun hcleared => ?_, fun name entry hblocked => ?_,
          fun tidied hdirectory htree => ?_⟩
        · obtain ⟨claimant, now, hremains⟩ := hlittered.remains
          refine ⟨claimant, now, fun rest e hget => hremains rest e ?_⟩
          rwa [← hdraft.get?_aside]
        · have hended := @Draft.yields_unlock_again supply programs _ _ _ _ _ _ _ hlittered hfresh hdraft hcleared
          have hdirectory := (Machine.directory_run supply programs lock.unlock after).trans hdraft.directory
          refine ⟨_, Prod.ext hended.1 rfl, hended.2, Lock.isLocked_run ?_⟩
          rw [hended.2, hdirectory]
          exact Lock.entryKind_of_lost hlittered.leadsTo (.within (.refl _)) hdraft.fits hlittered.claim_free
        · have hended := @Draft.yields_unlock_blocked supply programs _ _ _ _ _ _ _ hlittered hfresh hdraft _ _
            hblocked
          have hkept := @Lock.isHeldAt_congr lock _ _ (congrArg Machine.tree hended.2)
            (congrArg Machine.directory hended.2)
          exact ⟨_, Prod.ext hended.1 rfl, congrArg Machine.tree hended.2, (lock.isHeld_run _).2 (hkept.2 hheld)⟩
        · have htidy := hdraft.tidied hlittered hfresh hdirectory htree
          have hnone := Tree.replaceable_of_none hlittered.aside_free .directory
          have hended := @Draft.yields_unlock supply programs _ _ _ _ _ _ _ htidy _ hfresh.sound (.refl _)
            hlittered.leadsTo (hlittered.plot hfresh) hlittered.heldFile hlittered.releasedDir hnone
          exact ⟨_, Prod.ext hended.1 rfl, hended.2.trans (hfresh.sound.prune_of_none hlittered.aside_free)⟩

namespace Site

/-- A handle claims the lock, the disk breaks when the claim is deleted, and the handle claims the lock once
more. -/
def wornTurns (gone : List (List Name)) : List Lock.Turn :=
  [⟨.once .tryClaim, pair.claimant false, ⟨0, 0⟩, .none⟩,
    ⟨.once .unlock, pair.claimant false, ⟨1, 0⟩, brokenDisk gone⟩,
    ⟨.once .tryClaim, pair.claimant false, ⟨2, 0⟩, .none⟩]

/-- How that ends, in a tree with nothing in it. -/
def wornEnd (gone : List (List Name)) : List Lock.Report × Machine :=
  Lock.Turn.runAll pair.supply noPrograms (pairLock false) (wornTurns gone) (.ofTree .empty [] ⟨0, 0⟩)

theorem fresh_worn : (pairLock false).Fresh pair.supply (.ofTree .empty [] ⟨0, 0⟩) where
  sound := .empty
  directory := rfl
  unguessed := Lock.unguessed_empty rfl
  aside parent _ := by cases parent <;> rfl
  notHeld := by
    unfold Lock.IsHeldAt
    decide +kernel

theorem wornTurns_bear (gone : List (List Name)) :
    ∀ turn ∈ wornTurns gone, turn.task.Bears turn.mishaps := by
  simp only [wornTurns, List.forall_mem_cons, List.not_mem_nil, false_implies, implies_true, and_true]
  exact ⟨Mishaps.spareCleanup_none, fun _ _ => rfl, Mishaps.spareCleanup_none⟩

theorem wornEnd_releases_again : ∃ freed,
    (pairLock false).unlock.run (Machine.answer pair.supply noPrograms)
      (wornEnd [[heldBytes], [holderBytes]]).2 = (.ok (), freed) ∧ freed.tree = .empty := by
  obtain ⟨hbehind, hacquired, hbare⟩ :
      (wornEnd [[heldBytes], [holderBytes]]).1.any Lock.Report.leavesBehind = true ∧
        (wornEnd [[heldBytes], [holderBytes]]).1.getLast?.bind Lock.Report.attempt? = some (.ok true) ∧
        (wornEnd [[heldBytes], [holderBytes]]).2.tree.isBare ((pairLock false).releasedIn []) = true := by
    decide +kernel
  obtain ⟨hholds, hagain⟩ := @Lock.releases_again pair.supply noPrograms _ _
    (wornEnd [[heldBytes], [holderBytes]]).2 fresh_worn pair.suffix_spec
    (show (pairLock false).config.validate = .ok () by decide) _ (wornTurns_bear [[heldBytes], [holderBytes]])
    (wornEnd [[heldBytes], [holderBytes]]).1 (by rw [Prod.mk.eta, wornEnd]) (List.any_eq_true.1 hbehind)
  obtain ⟨report, hlast, hattempt⟩ := Option.bind_eq_some_iff.1 hacquired
  obtain ⟨parent, hleads, hreleases⟩ := hagain (hholds report hlast hattempt)
  obtain rfl := hleads.unique (pair.parent_spec false)
  obtain ⟨freed, hrun, htree, -⟩ := hreleases.cleared ((Tree.isBare_iff _ _).1 hbare)
  exact ⟨freed, hrun, htree⟩

/-- A release may fail although nothing befalls it, if the file about the holder was left behind. -/
theorem not_released_of_remains :
    ¬ ∀ (lock : Lock) (base after : Machine) (turns : List Lock.Turn) (reports : List Lock.Report),
      lock.Fresh pair.supply base → (∀ turn ∈ turns, turn.task.Bears turn.mishaps) →
      Lock.Turn.runAll pair.supply noPrograms lock turns base = (reports, after) →
      (∃ report ∈ reports, report.leavesBehind = true) →
      reports.getLast?.bind Lock.Report.attempt? = some (.ok true) →
      (lock.unlock.run (Machine.answer pair.supply noPrograms) after).1 = .ok () := by
  intro hall
  obtain ⟨hbehind, hacquired, hstuck⟩ : (wornEnd [[heldBytes]]).1.any Lock.Report.leavesBehind = true ∧
      (wornEnd [[heldBytes]]).1.getLast?.bind Lock.Report.attempt? = some (.ok true) ∧
      ((pairLock false).unlock.run (Machine.answer pair.supply noPrograms) (wornEnd [[heldBytes]]).2).1.isOk =
        false := by decide +kernel
  have hok := hall (pairLock false) (.ofTree .empty [] ⟨0, 0⟩) (wornEnd [[heldBytes]]).2
    (wornTurns [[heldBytes]]) (wornEnd [[heldBytes]]).1 fresh_worn (wornTurns_bear _)
    (by rw [Prod.mk.eta, wornEnd]) (List.any_eq_true.1 hbehind) hacquired
  exact Bool.false_ne_true (hstuck.symm.trans (congrArg Except.isOk hok))

end Site

end DirLock
