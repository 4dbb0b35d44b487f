import DirLock.Proofs.Lock.Release

/-!
# Whose claim a release takes

To release the lock is to look at the held marker, to move what stands at the claim's place aside, and to delete what
was moved. The look and the move are two requests, and the move goes by the place alone: where claims are removed by
hand, what is moved need not be what was looked at. `Minds` says of a routine what it owes the claims of the others all
the same. It moves a claim away only when it has just seen its own, and as long as it has moved no claim but its own,
it leaves every directory of a claim alone whose held marker is another party's.
-/

namespace DirLock

open Disk (Tree Place Path Name Fault)
open Disk.Tree (filesView ChangesOn)

def Lock.moveAside (lock : Lock) : Request := .rename lock.claimDir lock.releasedDir

namespace Site

variable {ι : Type} (s : Site ι)

/-- The places of claims: the claim's place, and those where the parties stage their claims and where they move them
aside. -/
def Keeps (place : Place) : Prop := place = s.claim ∨ ∃ k, s.Own k place

/-- The held marker at the place is the party's nonce. -/
def HeldBy (tree : Tree) (place : Place) (j : ι) : Prop :=
  tree.get? (place ++ [heldBytes]) = some (.file (s.lock j).nonce.bytes)

/-- A deed of a party leaves every claim alone whose held marker is the nonce of another party. -/
def Spares (i : ι) (before after : Tree) : Prop :=
  ∀ place j, s.Keeps place → j ≠ i → s.HeldBy before place j → after.below place = before.below place

/-- If a claim is taken from the claim's place, it is the party's own. -/
def TakesOwn (i : ι) (before after : Tree) : Prop :=
  ∀ j, s.IsOwned before (some j) → s.IsOwned after none → j = i

variable {s} {i j : ι} {tree before after last : Tree}

theorem Keeps.plot {place : Place} (h : s.Keeps place) (i : ι) : s.ground.Plot place := by
  rcases h with rfl | ⟨k, hown⟩
  · exact s.plot_claim i
  · exact hown.plot

theorem IsOwned.heldBy (h : s.IsOwned tree (some i)) : s.HeldBy tree s.claim i := h.get?_held

theorem HeldBy.unique {place : Place} (h : s.HeldBy tree place i) (h' : s.HeldBy tree place j) : i = j := by
  rw [HeldBy, h] at h'
  exact nonce_bytes_eq_iff.1 (Disk.Entry.file.inj (Option.some.inj h'))

theorem spares_refl : s.Spares i tree tree := fun _ _ _ _ _ => rfl

/-! ## What a deed spares -/

theorem spares_of_changesOn {place : Place} (hown : s.Own i place)
    (hmine : ∀ j, s.HeldBy before place j → j = i) (hchanges : ChangesOn place before after) :
    s.Spares i before after := by
  intro other j hkeeps hne hheld
  have hother : place ≠ other := by
    rintro rfl
    exact hne (hmine j hheld)
  exact hchanges.below_eq (hown.plot.not_prefix_append s.sound (hkeeps.plot i) hother)

theorem spares_of_moves {place : Place} (hm : s.Moves i s.claim place before after)
    (howned : s.IsOwned before (some i)) (hfree : before.get? (place ++ [heldBytes]) = none) :
    s.Spares i before after := by
  intro other j hkeeps hne hheld
  have hclaim : other ≠ s.claim := by
    rintro rfl
    exact hne (hheld.unique howned.heldBy)
  have hplace : other ≠ place := by
    rintro rfl
    rw [HeldBy, hfree] at hheld
    cases hheld
  exact hm.below_eq (hkeeps.plot i) hclaim hplace

theorem Partial.held {files : List (Name × List UInt8)} (h : s.Partial i files) {place : Place}
    (hbelow : tree.below place = filesView files) (hheld : s.HeldBy tree place j) : j = i := by
  obtain ⟨now, hpre⟩ := h
  rw [HeldBy, Tree.get?_append_of_below hbelow, filesView, Option.map_eq_some_iff] at hheld
  obtain ⟨content, hlookup, hcontent⟩ := hheld
  obtain rfl := Disk.Entry.file.inj hcontent
  obtain ⟨front, back, rfl, -⟩ := List.lookup_eq_some_iff.1 hlookup
  have hmem : (heldBytes, (s.lock j).nonce.bytes) ∈ s.claimFiles i now :=
    hpre.subset (List.mem_append_right _ List.mem_cons_self)
  simp only [claimFiles, List.mem_cons, Prod.mk.injEq, true_and, heldBytes_ne_holderBytes, false_and,
    List.not_mem_nil, or_false] at hmem
  exact nonce_bytes_eq_iff.1 hmem

theorem get?_held_of_moveAside (hgood : s.Good before)
    (h : s.Answers i before (.rename (s.lock i).claimDir (s.lock i).releasedDir) (.ok ()) after) :
    before.get? (s.parent ++ [(s.lock i).nonce.releasedName] ++ [heldBytes]) = none := by
  have hown : s.Own i (s.parent ++ [(s.lock i).nonce.releasedName]) := .released
  obtain ⟨owner, howned⟩ := hgood.owned
  have hsource : before.get? s.claim = none ∨ before.get? s.claim = some .directory := by
    rw [howned.get?_claim]
    cases owner with
    | none => exact .inl rfl
    | some k => exact .inr rfl
  rcases (s.works_claim i).rename (s.works_released i) hgood (s.plot_claim i) hown.plot hown.ne_claim.symm
      hsource h with ⟨-, -, hmay, -⟩ | ⟨fault, hfault, -⟩
  · rcases Tree.replaceable_eq_ok hmay with hnone | ⟨-, hbare⟩
    · exact congrFun (hgood.sound.below_eq_none hnone) [heldBytes]
    · exact hgood.sound.get?_of_isBare hbare (List.cons_ne_nil _ _)
  · cases hfault

/-! ## Routines that mind -/

variable (s i)

/-- From this tree on, whatever the others do before each of its requests: the routine moves its claim aside only where
nothing of its own is in the way, it takes a claim from the claim's place by moving aside what stands there when it owned
the lock after its last request, and as long as it has taken no claim but its own it spares the others. -/
def Minds {α : Type} : Routine α → Tree → Prop
  | .done _, _ => True
  | .ask r next, tree => (r = (s.lock i).moveAside → s.Clear i none tree) ∧
    ∀ before, s.Others i tree before → ∀ reply after, s.Answers i before r reply after →
      (∀ j, s.IsOwned before (some j) → s.IsOwned after none →
        r = (s.lock i).moveAside ∧ s.IsOwned tree (some i)) ∧
      (s.TakesOwn i before after → s.Spares i before after ∧ Minds (next reply) after)

variable {s i} {α β : Type}

theorem minds_quiet {r : Request} {next : r.Reply → Routine α} (hr : r ≠ (s.lock i).moveAside)
    (h : ∀ before, s.Others i tree before → ∀ reply after, s.Answers i before r reply after →
      s.Quiet (before, after) ∧ s.Spares i before after ∧ s.Minds i (next reply) after) :
    s.Minds i (.ask r next) tree := by
  refine ⟨fun hmove => absurd hmove hr, fun before hothers reply after hanswers => ?_⟩
  obtain ⟨hquiet, hspares, hnext⟩ := h before hothers reply after hanswers
  refine ⟨fun j howned hfree => ?_, fun _ => ⟨hspares, hnext⟩⟩
  cases isOwned_unique hfree ((isOwned_congr hquiet).2 howned)

theorem minds_look {r : Request} {next : r.Reply → Routine α} (hr : r ≠ (s.lock i).moveAside)
    (h : ∀ before, s.Others i tree before → ∀ reply after, s.Answers i before r reply after →
      after = before ∧ s.Minds i (next reply) before) :
    s.Minds i (.ask r next) tree := by
  refine minds_quiet hr fun before hothers reply after hanswers => ?_
  obtain ⟨rfl, hnext⟩ := h before hothers reply after hanswers
  exact ⟨rfl, spares_refl, hnext⟩

theorem Minds.bind {routine : Routine α} {f : α → Routine β} (h : s.Minds i routine tree)
    (hnext : ∀ value after, s.Minds i (f value) after) : s.Minds i (routine >>= f) tree := by
  rw [Routine.bind_eq]
  induction routine generalizing tree with
  | done value => exact hnext value tree
  | ask r next ih =>
    refine ⟨h.1, fun before hothers reply after hanswers => ?_⟩
    obtain ⟨htakes, hrest⟩ := h.2 before hothers reply after hanswers
    refine ⟨htakes, fun hown => ?_⟩
    obtain ⟨hspares, hminds⟩ := hrest hown
    exact ⟨hspares, ih reply hminds⟩

/-! ## Deleting what was moved -/

theorem remove_ne_moveAside (lock : Lock) (step : Tree.Removal) : Request.remove step ≠ lock.moveAside := nofun

section Remove

variable {path : Path} {dir : Place} {name : Name} (hw : s.Works i path dir name)
  (hown : s.Own i (dir ++ [name]))
include hw hown

theorem minds_removeEach {files : List (Name × List UInt8)} (hpartial : s.Partial i files)
    (hbelow : tree.below (dir ++ [name]) = filesView files) :
    s.Minds i (Routine.removeEach (removalSteps path files)) tree := by
  have hnodup := nodup_names hpartial.sorted
  induction files using List.reverseRecOn generalizing tree with
  | nil =>
    refine minds_quiet (remove_ne_moveAside _ _) fun before hothers reply after hanswers => ?_
    have hbefore := (hothers.plots _ hown).trans hbelow
    rcases hw.removeDirectory hothers.good hbefore hanswers with ⟨rfl, -, -, hchanges⟩ | ⟨fault, rfl, rfl, -⟩
    · exact ⟨quiet_of_changesOn hown hchanges,
        spares_of_changesOn hown (fun j => hpartial.held hbefore) hchanges, trivial⟩
    · exact ⟨rfl, spares_refl, trivial⟩
  | append_singleton files file ih =>
    obtain ⟨mark, content⟩ := file
    have hsteps : removalSteps path (files ++ [(mark, content)]) =
        .unlink path [mark] :: removalSteps path files := by
      simp [removalSteps]
    rw [List.map_append, List.nodup_append] at hnodup
    have hnew : mark ∉ files.map Prod.fst := fun hmem => hnodup.2.2 mark hmem mark (by simp) rfl
    have hfewer : s.Partial i files := by
      obtain ⟨now, hpre⟩ := hpartial
      exact ⟨now, (List.prefix_append _ _).trans hpre⟩
    rw [hsteps]
    refine minds_quiet (remove_ne_moveAside _ _) fun before hothers reply after hanswers => ?_
    have hbefore := (hothers.plots _ hown).trans hbelow
    rcases hw.unlink hothers.good hbefore hnew hanswers with ⟨rfl, hleft, -, hchanges⟩ | ⟨fault, rfl, rfl, -⟩
    · exact ⟨quiet_of_changesOn hown hchanges,
        spares_of_changesOn hown (fun j => hpartial.held hbefore) hchanges, ih hfewer hleft hnodup.1⟩
    · exact ⟨rfl, spares_refl, trivial⟩

theorem minds_removeTree {files : List (Name × List UInt8)} (hpartial : s.Partial i files)
    (hbelow : tree.below (dir ++ [name]) = filesView files) : s.Minds i (Routine.removeTree path) tree := by
  refine minds_look nofun fun before hothers reply after hanswers => ?_
  have hbefore := (hothers.plots _ hown).trans hbelow
  obtain ⟨rfl, rfl | ⟨fault, rfl, -⟩⟩ := hw.removals hothers.good hbefore hpartial.sorted hanswers
  · exact ⟨rfl, minds_removeEach hw hown hpartial hbefore⟩
  · exact ⟨rfl, trivial⟩

end Remove

/-! ## Releasing -/

theorem minds_isHeld {f : Bool → Routine α}
    (h : ∀ before, s.Others i tree before →
      (s.IsOwned before (some i) → s.Minds i (f true) before) ∧ s.Minds i (f false) before) :
    s.Minds i ((s.lock i).isHeld >>= f) tree := by
  refine minds_look nofun fun before hothers reply after hanswers => ?_
  obtain ⟨hheld, hother⟩ := h before hothers
  obtain ⟨rfl, ⟨j, rfl, howned⟩ | ⟨fault, rfl, -⟩⟩ := readFile_held hothers.good hanswers
  · refine ⟨rfl, ?_⟩
    show s.Minds i (f (decide ((s.lock j).nonce.bytes = (s.lock i).nonce.bytes))) after
    by_cases hj : j = i
    · subst hj
      rw [decide_eq_true rfl]
      exact hheld howned
    · rw [decide_eq_false (mt nonce_bytes_eq_iff.1 hj)]
      exact hother
  · exact ⟨rfl, hother⟩

theorem minds_unlock (hclear : s.Clear i none tree) : s.Minds i (s.lock i).unlock tree := by
  refine minds_isHeld fun looked hothers => ⟨fun howned => ?_, trivial⟩
  refine ⟨fun _ => hclear.others hothers, fun before hothers reply after hanswers => ?_⟩
  refine ⟨fun _ _ _ => ⟨rfl, howned⟩, fun htakes => ?_⟩
  rcases (s.works_released i).rename_from_claim hothers.good .released hanswers with
    ⟨rfl, ⟨j, hj⟩, hmoves⟩ | ⟨fault, rfl, rfl, -⟩
  · -- What was moved is the party's own claim, and so is what is deleted then.
    have hfree : s.IsOwned after none := hmoves.at_source
    obtain rfl := htakes j hj hfree
    refine ⟨spares_of_moves hmoves hj (get?_held_of_moveAside hothers.good hanswers), ?_⟩
    refine minds_look nofun fun noted hothers reply again hanswers => ?_
    obtain rfl := answers_plain (fun _ => rfl) hanswers
    obtain ⟨now, hbelow⟩ := hj
    have haside := (hothers.plots _ .released).trans (hmoves.at_target.trans hbelow)
    refine ⟨rfl, (minds_removeTree (s.works_released j) .released (partial_claimFiles j now) haside).bind ?_⟩
    intro result last
    cases result <;> trivial
  · exact ⟨spares_refl, trivial⟩

theorem minds_release (hclear : s.Clear i none tree) :
    s.Minds i (Guard.of (s.lock i)).release tree :=
  (minds_unlock hclear).bind fun _ _ => trivial

theorem minds_drop (hclear : s.Clear i none tree) : s.Minds i (Guard.of (s.lock i)).drop tree := by
  refine minds_isHeld fun looked hothers => ⟨fun _ => ?_, trivial⟩
  refine (minds_unlock (hclear.others hothers)).bind fun result after => ?_
  rcases result with error | _
  · refine minds_look nofun fun before _ reply last hanswers => ?_
    exact ⟨answers_plain (fun _ => rfl) hanswers, trivial⟩
  · trivial

end Site

end DirLock
