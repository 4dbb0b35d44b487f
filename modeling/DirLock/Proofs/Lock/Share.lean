import DirLock.Proofs.Lock.Site

/-!
# What the parties owe each other

Each request of a party is one step. A party keeps the tree good, leaves the other parties' plots
alone, and changes the claim's place in two ways only: it puts a complete claim of its own where there
is none, or takes its own claim away in one piece (`Deed`). What a party may rely on is what the deeds
of the others leave it (`Others`).

`Ensures` says of a routine that all its requests are such deeds and that its end is as claimed,
whatever the others do before each of its requests. It keeps a record of the deeds, so that a claim
about the end can say what each of them was.
-/

namespace DirLock

open Disk (Tree Place Path Name Entry Fault)
open Disk.Tree (filesView noView ChangesOn)

/-- The reply that refuses a request of the file system. Whoever asks whether there is a directory is not told of a
fault, but that there is none. -/
def Request.refusal? : (r : Request) → Fault → Option r.Reply
  | .entryKind _, fault => some (.error fault)
  | .isDirectory _, _ => some false
  | .readFile _, fault => some (.error fault)
  | .makeDirectory _, fault => some (.error fault)
  | .writeFile _ _, fault => some (.error fault)
  | .makeLink _ _, fault => some (.error fault)
  | .rename _ _, fault => some (.error fault)
  | .list _, fault => some (.error fault)
  | .removals _, fault => some (.error fault)
  | .remove _, fault => some (.error fault)
  | .unlink _, fault => some (.error fault)
  | _, _ => none

namespace Site

variable {ι : Type} (s : Site ι)

/-! ## Deeds -/

/-- What one request of a party may do to the tree. Only an operation that is `releasing` takes a
claim away; it is the party's own unless claims are removed by hand. -/
structure Deed (i : ι) (releasing : Prop) (tree after : Tree) : Prop where
  good : s.Good after
  others_plots : ∀ j place, j ≠ i → s.Own j place → after.below place = tree.below place
  claim : after.below s.claim = tree.below s.claim ∨
    (s.IsOwned tree none ∧ s.IsOwned after (some i)) ∨
    (releasing ∧ s.IsOwned after none ∧ ∃ j, s.IsOwned tree (some j) ∧ (¬ s.cleared → j = i))

/-- What the deeds of the others leave a party. -/
structure Others (i : ι) (tree after : Tree) : Prop where
  good : s.Good after
  plots : ∀ place, s.Own i place → after.below place = tree.below place
  /-- Nobody else makes a claim of this party. -/
  made : s.IsOwned after (some i) → after.below s.claim = tree.below s.claim
  /-- Nobody else takes the claim of this party away, unless claims are removed by hand. -/
  kept : ¬ s.cleared → s.IsOwned tree (some i) → after.below s.claim = tree.below s.claim

/-- The reply to a request of a party, and the tree after it. -/
def Answers (i : ι) (tree : Tree) (r : Request) (reply : r.Reply) (after : Tree) : Prop :=
  (∃ machine : Machine, machine.tree = tree ∧ machine.directory = s.directory i ∧
    (Machine.answerPlain s.supply r machine).1 = reply ∧
    (Machine.answerPlain s.supply r machine).2.tree = after) ∨
  (s.faulty ∧ after = tree ∧ ∃ fault, r.refusal? fault = some reply)

variable {s} {i j : ι} {tree after last : Tree} {releasing : Prop}

theorem Others.refl (h : s.Good tree) : s.Others i tree tree :=
  ⟨h, fun _ _ => rfl, fun _ => rfl, fun _ _ => rfl⟩

theorem isOwned_congr {owner : Option ι} (h : after.below s.claim = tree.below s.claim) :
    s.IsOwned after owner ↔ s.IsOwned tree owner := by
  cases owner with
  | none => rw [IsOwned, IsOwned, h]
  | some i => simp only [IsOwned, h]

theorem Others.trans (h : s.Others i tree after) (h' : s.Others i after last) :
    s.Others i tree last where
  good := h'.good
  plots := fun place hown => (h'.plots place hown).trans (h.plots place hown)
  made := fun howned => by
    have hlast := h'.made howned
    rw [hlast]
    exact h.made ((isOwned_congr hlast).1 howned)
  kept := fun hcleared howned => by
    have hafter := h.kept hcleared howned
    rw [← hafter]
    exact h'.kept hcleared ((isOwned_congr hafter).2 howned)

theorem Deed.others (h : s.Deed i releasing tree after) (hne : i ≠ j) : s.Others j tree after where
  good := h.good
  plots := fun place hown => h.others_plots j place (Ne.symm hne) hown
  made := fun howned => by
    rcases h.claim with heq | ⟨-, hclaimed⟩ | ⟨-, hfree, -⟩
    · exact heq
    · exact absurd (Option.some.inj (isOwned_unique hclaimed howned)) hne
    · cases isOwned_unique hfree howned
  kept := fun hcleared howned => by
    rcases h.claim with heq | ⟨hfree, -⟩ | ⟨-, -, k, hk, hki⟩
    · exact heq
    · cases isOwned_unique hfree howned
    · have hkj := Option.some.inj (isOwned_unique hk howned)
      exact absurd ((hki hcleared).symm.trans hkj) hne

theorem Deed.refl (h : s.Good tree) : s.Deed i releasing tree tree :=
  ⟨h, fun _ _ _ _ => rfl, .inl rfl⟩

theorem Deed.mono {releasing' : Prop} (himp : releasing → releasing')
    (h : s.Deed i releasing tree after) : s.Deed i releasing' tree after :=
  ⟨h.good, h.others_plots, h.claim.imp_right (Or.imp_right (And.imp_left himp))⟩

theorem Deed.of_changesOn (h : s.Good tree) {place : Place} (hown : s.Own i place)
    (hsound : after.Sound) (hchanges : ChangesOn place tree after) : s.Deed i releasing tree after := by
  have hclaim : after.below s.claim = tree.below s.claim := hchanges.below_eq
    (hown.plot.not_prefix_append s.sound (s.plot_claim i) hown.ne_claim)
  refine ⟨⟨hsound, fun q hq hplots => ?_, ?_⟩, fun j other hne hother => ?_, .inl hclaim⟩
  · rw [hchanges q (hplots i place hown), h.frame q hq hplots]
  · obtain ⟨owner, howned⟩ := h.owned
    exact ⟨owner, (isOwned_congr hclaim).2 howned⟩
  · refine hchanges.below_eq (hown.plot.not_prefix_append s.sound hother.plot ?_)
    rintro rfl
    exact hne (hother.unique hown)

/-- What is moved between a plot of a party and the claim's place. -/
structure Moves (s : Site ι) (i : ι) (source target : Place) (tree after : Tree) : Prop where
  sound : after.Sound
  ends : source = s.claim ∧ s.Own i target ∨ s.Own i source ∧ target = s.claim
  rest : ∀ q, ¬ source <+: q → ¬ target <+: q → after.get? q = tree.get? q
  at_target : after.below target = tree.below source
  at_source : after.below source = noView

theorem Moves.frame {source target : Place} (h : s.Good tree) (hm : s.Moves i source target tree after)
    (q : Place) (hq : ¬ s.claim <+: q) (hplots : ∀ j place, s.Own j place → ¬ place <+: q) :
    after.get? q = s.ground.get? q := by
  rcases hm.ends with ⟨rfl, hown⟩ | ⟨hown, rfl⟩
  · rw [hm.rest q hq (hplots i _ hown), h.frame q hq hplots]
  · rw [hm.rest q (hplots i _ hown) hq, h.frame q hq hplots]

theorem Moves.below_eq {source target place : Place} (hm : s.Moves i source target tree after)
    (hplace : s.ground.Plot place) (hsource : place ≠ source) (htarget : place ≠ target) :
    after.below place = tree.below place := by
  have hclaim := s.plot_claim i
  funext rest
  rcases hm.ends with ⟨rfl, hown⟩ | ⟨hown, rfl⟩
  · exact hm.rest _ (hclaim.not_prefix_append s.sound hplace hsource.symm rest)
      (hown.plot.not_prefix_append s.sound hplace htarget.symm rest)
  · exact hm.rest _ (hown.plot.not_prefix_append s.sound hplace hsource.symm rest)
      (hclaim.not_prefix_append s.sound hplace htarget.symm rest)

theorem Moves.others_plots {source target : Place} (hm : s.Moves i source target tree after)
    {place : Place} (hne : j ≠ i) (hplace : s.Own j place) :
    after.below place = tree.below place := by
  have hmine : ∀ {mine}, s.Own i mine → place ≠ mine := by
    rintro mine hown rfl
    exact hne (hplace.unique hown)
  rcases hm.ends with ⟨rfl, hown⟩ | ⟨hown, rfl⟩
  · exact hm.below_eq hplace.plot hplace.ne_claim (hmine hown)
  · exact hm.below_eq hplace.plot (hmine hown) hplace.ne_claim

theorem Deed.of_claiming (h : s.Good tree) {place : Place} {now : Time.Instant}
    (hfree : s.IsOwned tree none) (hm : s.Moves i place s.claim tree after)
    (hplace : tree.below place = filesView (s.claimFiles i now)) :
    s.Deed i releasing tree after ∧ s.IsOwned after (some i) := by
  have howned : s.IsOwned after (some i) := ⟨now, hm.at_target.trans hplace⟩
  exact ⟨⟨⟨hm.sound, hm.frame h, _, howned⟩, fun _ _ => hm.others_plots,
    .inr (.inl ⟨hfree, howned⟩)⟩, howned⟩

theorem Deed.of_releasing (h : s.Good tree) {place : Place} (hreleasing : releasing)
    (howned : s.IsOwned tree (some j)) (hj : ¬ s.cleared → j = i)
    (hm : s.Moves i s.claim place tree after) :
    s.Deed i releasing tree after ∧ s.IsOwned after none := by
  have hfree : s.IsOwned after none := hm.at_source
  exact ⟨⟨⟨hm.sound, hm.frame h, _, hfree⟩, fun _ _ => hm.others_plots,
    .inr (.inr ⟨hreleasing, hfree, j, howned, hj⟩)⟩, hfree⟩

/-! ## Claims that are removed by hand -/

theorem get?_prune_claim (tree : Tree) {q : Place} (hq : ¬ s.claim <+: q) :
    (tree.prune s.claim).get? q = tree.get? q := by
  by_cases hnil : q = []
  · simp [hnil]
  · rw [Tree.get?_prune tree hnil, if_neg]
    rwa [List.isPrefixOf_iff_prefix]

theorem isOwned_prune_claim (tree : Tree) : s.IsOwned (tree.prune s.claim) none := by
  funext rest
  rw [Tree.below, Tree.get?_prune tree (by simp [claim]), if_pos]
  · rfl
  · exact List.isPrefixOf_iff_prefix.2 (List.prefix_append _ _)

theorem Good.prune_claim (h : s.Good tree) : s.Good (tree.prune s.claim) :=
  ⟨h.sound.prune _, fun q hq hplots => by rw [get?_prune_claim tree hq, h.frame q hq hplots],
    none, isOwned_prune_claim tree⟩

/-- A claim that is removed by hand is one of the changes that a party must expect. -/
theorem Others.of_clear (hcleared : s.cleared) (h : s.Good tree) :
    s.Others i tree (tree.prune s.claim) where
  good := h.prune_claim
  plots := fun place hown => by
    funext rest
    exact get?_prune_claim tree
      ((s.plot_claim i).not_prefix_append s.sound hown.plot hown.ne_claim.symm rest)
  made := fun howned => by cases isOwned_unique (isOwned_prune_claim tree) howned
  kept := fun hnot => absurd hcleared hnot

/-! ## Routines -/

variable (s) (i) (releasing)

/-- The trees before and after the requests that were made, in order. -/
abbrev Deeds := List (Tree × Tree)

/-- After these deeds and from this tree on, every request of the routine is a deed of the party,
whatever the others do before it, and at its end the claim about its deeds, its value and the tree
holds. -/
def Ensures {α : Type} : Routine α → Deeds → Tree → (Deeds → α → Tree → Prop) → Prop
  | .done value, deeds, tree, post => post deeds value tree
  | .ask r next, deeds, tree, post => ∀ before, s.Others i tree before → ∀ reply after,
    s.Answers i before r reply after → s.Deed i releasing before after ∧
      Ensures (next reply) (deeds ++ [(before, after)]) after post

variable {s} {i} {releasing} {α β : Type}

theorem Ensures.mono {routine : Routine α} {deeds : Deeds} {post post' : Deeds → α → Tree → Prop}
    (h : s.Ensures i releasing routine deeds tree post)
    (himp : ∀ deeds value tree, post deeds value tree → post' deeds value tree) :
    s.Ensures i releasing routine deeds tree post' := by
  induction routine generalizing deeds tree with
  | done value => exact himp _ _ _ h
  | ask r next ih =>
    intro before hothers reply after hanswers
    obtain ⟨hdeed, hnext⟩ := h before hothers reply after hanswers
    exact ⟨hdeed, ih reply hnext⟩

theorem Ensures.weaken {releasing' : Prop} (himp : releasing → releasing') {routine : Routine α}
    {deeds : Deeds} {post : Deeds → α → Tree → Prop}
    (h : s.Ensures i releasing routine deeds tree post) :
    s.Ensures i releasing' routine deeds tree post := by
  induction routine generalizing deeds tree with
  | done value => exact h
  | ask r next ih =>
    intro before hothers reply after hanswers
    obtain ⟨hdeed, hnext⟩ := h before hothers reply after hanswers
    exact ⟨hdeed.mono himp, ih reply hnext⟩

theorem exists_answers (i : ι) (tree : Tree) (r : Request) :
    ∃ reply after, s.Answers i tree r reply after :=
  ⟨_, _, .inl ⟨.ofTree tree (s.directory i) ⟨0, 0⟩, rfl, rfl, rfl, rfl⟩⟩

theorem Ensures.completes {routine : Routine α} {deeds : Deeds} {post : Deeds → α → Tree → Prop}
    (hgood : s.Good tree) (h : s.Ensures i releasing routine deeds tree post) :
    ∃ more value after, post (deeds ++ more) value after := by
  induction routine generalizing deeds tree with
  | done value => exact ⟨[], value, tree, by rwa [List.append_nil]⟩
  | ask r next ih =>
    obtain ⟨reply, after, hanswers⟩ := exists_answers (s := s) i tree r
    obtain ⟨hdeed, hnext⟩ := h tree (.refl hgood) reply after hanswers
    obtain ⟨more, value, last, hpost⟩ := ih reply hdeed.good hnext
    exact ⟨(tree, after) :: more, value, last, by rwa [List.append_assoc] at hpost⟩

theorem Ensures.bind {routine : Routine α} {f : α → Routine β} {deeds : Deeds}
    {post : Deeds → β → Tree → Prop}
    (h : s.Ensures i releasing routine deeds tree fun deeds value tree =>
      s.Ensures i releasing (f value) deeds tree post) :
    s.Ensures i releasing (routine.bind f) deeds tree post := by
  induction routine generalizing deeds tree with
  | done value => exact h
  | ask r next ih =>
    intro before hothers reply after hanswers
    obtain ⟨hdeed, hnext⟩ := h before hothers reply after hanswers
    exact ⟨hdeed, ih reply hnext⟩

end Site

end DirLock
