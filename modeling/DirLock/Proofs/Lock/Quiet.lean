import DirLock.Proofs.Lock.Reply

/-!
# Quiet deeds

A deed is quiet if it leaves the claim's place as it is. Almost all deeds are; an operation on a lock
has one deed that decides what the operation says, and all its other deeds are quiet (`Turns`). When a
party is done with an operation nothing of its own is left on its plots, unless a request failed for
reasons of its own (`Clear`).
-/

namespace DirLock.Site

open Disk (Tree Place Path Name Entry Fault)
open Disk.Tree (filesView noView ChangesOn)

variable {ι : Type} (s : Site ι)

/-- The deed leaves the claim's place as it is. -/
def Quiet (deed : Tree × Tree) : Prop := deed.2.below s.claim = deed.1.below s.claim

/-- All the deeds leave the claim's place as it is. -/
def AllQuiet (deeds : Deeds) : Prop := ∀ deed ∈ deeds, s.Quiet deed

/-- All the deeds leave everything as it is. -/
def AllLooks (deeds : Deeds) : Prop := ∀ deed ∈ deeds, deed.2 = deed.1

/-- One of the deeds finds the lock with the first owner and leaves it with the second, and all other
deeds are quiet. -/
def Turns (deeds : Deeds) (owner owner' : Option ι) : Prop :=
  ∃ before deed after, deeds = before ++ deed :: after ∧ s.AllQuiet before ∧ s.AllQuiet after ∧
    s.IsOwned deed.1 owner ∧ s.IsOwned deed.2 owner'

/-- One of the deeds finds the lock with this owner, and all deeds are quiet. -/
def Sees (deeds : Deeds) (owner : Option ι) : Prop :=
  s.AllQuiet deeds ∧ ∃ deed ∈ deeds, s.IsOwned deed.1 owner

/-- Nothing stands on the plots of the party, but for the one that is kept, if no request failed for
reasons of its own. -/
def Clear (i : ι) (keep : Option Place) (tree : Tree) : Prop :=
  ¬ s.faulty → ∀ place, s.Own i place → keep ≠ some place → tree.below place = noView

variable {s} {i : ι} {releasing : Prop} {tree before after : Tree} {keep : Option Place}
  {deeds more : Deeds} {owner owner' : Option ι}

/-! ## Records of deeds -/

theorem allQuiet_nil : s.AllQuiet [] := fun _ h => absurd h List.not_mem_nil

theorem AllQuiet.cons {deed : Tree × Tree} (h : s.Quiet deed) (h' : s.AllQuiet deeds) :
    s.AllQuiet (deed :: deeds) := by
  intro d hd
  rcases List.mem_cons.1 hd with rfl | hd
  · exact h
  · exact h' d hd

theorem AllQuiet.look (h : s.AllQuiet deeds) (tree : Tree) : s.AllQuiet ((tree, tree) :: deeds) :=
  h.cons rfl

theorem AllQuiet.append (h : s.AllQuiet deeds) (h' : s.AllQuiet more) :
    s.AllQuiet (deeds ++ more) := by
  intro d hd
  rcases List.mem_append.1 hd with hd | hd
  · exact h d hd
  · exact h' d hd

theorem Turns.of_quiet_append (h : s.AllQuiet deeds) (h' : s.Turns more owner owner') :
    s.Turns (deeds ++ more) owner owner' := by
  obtain ⟨front, deed, back, rfl, hfront, hback, howned, howned'⟩ := h'
  exact ⟨deeds ++ front, deed, back, by simp, h.append hfront, hback, howned, howned'⟩

theorem Turns.append_quiet (h : s.Turns deeds owner owner') (h' : s.AllQuiet more) :
    s.Turns (deeds ++ more) owner owner' := by
  obtain ⟨front, deed, back, rfl, hfront, hback, howned, howned'⟩ := h
  exact ⟨front, deed, back ++ more, by simp, hfront, hback.append h', howned, howned'⟩

theorem turns_cons (howned : s.IsOwned before owner) (howned' : s.IsOwned after owner')
    (h : s.AllQuiet more) : s.Turns ((before, after) :: more) owner owner' :=
  ⟨[], (before, after), more, rfl, allQuiet_nil, h, howned, howned'⟩

theorem Sees.of_quiet_append (h : s.AllQuiet deeds) (h' : s.Sees more owner) :
    s.Sees (deeds ++ more) owner := by
  obtain ⟨hquiet, deed, hmem, howned⟩ := h'
  exact ⟨h.append hquiet, deed, List.mem_append_right _ hmem, howned⟩

theorem Sees.append_quiet (h : s.Sees deeds owner) (h' : s.AllQuiet more) :
    s.Sees (deeds ++ more) owner := by
  obtain ⟨hquiet, deed, hmem, howned⟩ := h
  exact ⟨hquiet.append h', deed, List.mem_append_left _ hmem, howned⟩

theorem sees_cons (howned : s.IsOwned before owner) (hquiet : s.Quiet (before, after))
    (h : s.AllQuiet more) : s.Sees ((before, after) :: more) owner :=
  ⟨h.cons hquiet, _, List.mem_cons_self, howned⟩

theorem Sees.turns (h : s.Sees deeds owner) : s.Turns deeds owner owner := by
  obtain ⟨hquiet, deed, hmem, howned⟩ := h
  obtain ⟨front, back, rfl⟩ := List.append_of_mem hmem
  refine ⟨front, deed, back, rfl, fun d hd => hquiet d (List.mem_append_left _ hd),
    fun d hd => hquiet d (List.mem_append_right _ (List.mem_cons_of_mem _ hd)), howned, ?_⟩
  exact (isOwned_congr (hquiet deed hmem)).2 howned

/-- A deed that is not quiet is the one that turns the lock over. -/
theorem Turns.of_not_quiet {front back : Deeds} {deed : Tree × Tree}
    (h : s.Turns (front ++ deed :: back) owner owner') (hnot : ¬ s.Quiet deed) :
    s.AllQuiet front ∧ s.IsOwned deed.1 owner ∧ s.IsOwned deed.2 owner' := by
  obtain ⟨front', turn, back', heq, hfront, hback, howned, howned'⟩ := h
  rcases List.append_eq_append_iff.1 heq with ⟨more, rfl, hmore⟩ | ⟨more, rfl, hmore⟩
  · cases more with
    | nil =>
      obtain ⟨rfl, -⟩ := List.cons.inj hmore
      rw [List.append_nil] at hfront
      exact ⟨hfront, howned, howned'⟩
    | cons first more =>
      obtain ⟨rfl, -⟩ := List.cons.inj hmore
      exact absurd (hfront deed (by simp)) hnot
  · cases more with
    | nil =>
      obtain ⟨rfl, -⟩ := List.cons.inj hmore
      rw [List.append_nil]
      exact ⟨hfront, howned, howned'⟩
    | cons first more =>
      obtain ⟨-, rfl⟩ := List.cons.inj hmore
      exact absurd (hback deed (by simp)) hnot

/-! ## Rules -/

theorem ensures_append {α : Type} {routine : Routine α} {post : Deeds → α → Tree → Prop}
    (h : s.Ensures i releasing routine more tree fun deeds' value tree =>
      post (deeds ++ deeds') value tree) :
    s.Ensures i releasing routine (deeds ++ more) tree post := by
  induction routine generalizing more tree with
  | done value => exact h
  | ask r next ih =>
    intro before hothers reply after hanswers
    obtain ⟨hdeed, hnext⟩ := h before hothers reply after hanswers
    refine ⟨hdeed, ?_⟩
    rw [List.append_assoc]
    exact ih reply hnext

theorem ensures_of_nil {α : Type} {routine : Routine α} {post : Deeds → α → Tree → Prop}
    (deeds : Deeds) (h : s.Ensures i releasing routine [] tree fun more value tree =>
      post (deeds ++ more) value tree) :
    s.Ensures i releasing routine deeds tree post := by
  have hall := ensures_append h
  rwa [List.append_nil] at hall

theorem Ensures.seq {α β : Type} {routine : Routine α} {f : α → Routine β}
    {post : Deeds → α → Tree → Prop} {post' : Deeds → β → Tree → Prop}
    (h : s.Ensures i releasing routine [] tree post)
    (hnext : ∀ deeds value after, post deeds value after →
      s.Ensures i releasing (f value) [] after fun more value' last =>
        post' (deeds ++ more) value' last) :
    s.Ensures i releasing (routine >>= f) [] tree post' :=
  Ensures.bind (h.mono fun deeds value after hpost =>
    ensures_of_nil deeds (hnext deeds value after hpost))

theorem ensures_request {α : Type} {r : Request} {next : r.Reply → Routine α}
    {post : Deeds → α → Tree → Prop}
    (h : ∀ before, s.Others i tree before → ∀ reply after, s.Answers i before r reply after →
      s.Deed i releasing before after ∧
        s.Ensures i releasing (next reply) [] after fun more value last =>
          post ((before, after) :: more) value last) :
    s.Ensures i releasing (Routine.request r >>= next) [] tree post := by
  intro before hothers reply after hanswers
  obtain ⟨hdeed, hrest⟩ := h before hothers reply after hanswers
  exact ⟨hdeed, ensures_of_nil [(before, after)] hrest⟩

theorem ensures_look {α : Type} {r : Request} {next : r.Reply → Routine α}
    {post : Deeds → α → Tree → Prop}
    (h : ∀ before, s.Others i tree before → ∀ reply after, s.Answers i before r reply after →
      after = before ∧ s.Ensures i releasing (next reply) [] before fun more value last =>
        post ((before, before) :: more) value last) :
    s.Ensures i releasing (Routine.request r >>= next) [] tree post := by
  refine ensures_request fun before hothers reply after hanswers => ?_
  obtain ⟨rfl, hrest⟩ := h before hothers reply after hanswers
  exact ⟨.refl hothers.good, hrest⟩

/-! ## One's own plots -/

theorem Clear.others (h : s.Clear i keep tree) (hothers : s.Others i tree after) :
    s.Clear i keep after := by
  intro hfaulty place hown hne
  rw [hothers.plots place hown, h hfaulty place hown hne]

theorem Clear.keeping (h : s.Clear i none tree) (keep : Option Place) : s.Clear i keep tree :=
  fun hfaulty place hown _ => h hfaulty place hown nofun

theorem Clear.of_gone {place : Place} (h : s.Clear i (some place) tree)
    (hgone : ¬ s.faulty → tree.below place = noView) : s.Clear i none tree := by
  intro hfaulty other hown _
  by_cases heq : place = other
  · exact heq ▸ hgone hfaulty
  · exact h hfaulty other hown (by simpa using heq)

theorem Clear.of_changesOn {place : Place} (h : s.Clear i (some place) before)
    (hown : s.Own i place) (hchanges : ChangesOn place before after) :
    s.Clear i (some place) after := by
  intro hfaulty other hother hne
  have hapart := hown.plot.not_prefix_append s.sound hother.plot (by rintro rfl; exact hne rfl)
  rw [hchanges.below_eq hapart, h hfaulty other hother hne]

theorem Clear.of_claiming {place : Place} (h : s.Clear i (some place) before)
    (hm : s.Moves i place s.claim before after) : s.Clear i none after := by
  intro hfaulty other hother _
  by_cases heq : other = place
  · rw [heq, hm.at_source]
  · rw [hm.below_eq hother.plot heq hother.ne_claim, h hfaulty other hother (by simpa using Ne.symm heq)]

theorem Clear.of_releasing {place : Place} (h : s.Clear i none before)
    (hm : s.Moves i s.claim place before after) : s.Clear i (some place) after := by
  intro hfaulty other hother hne
  rw [hm.below_eq hother.plot hother.ne_claim (by rintro rfl; exact hne rfl),
    h hfaulty other hother nofun]

theorem quiet_of_changesOn {place : Place} (hown : s.Own i place)
    (hchanges : ChangesOn place before after) : s.Quiet (before, after) :=
  hchanges.below_eq (hown.plot.not_prefix_append s.sound (s.plot_claim i) hown.ne_claim)

end DirLock.Site
