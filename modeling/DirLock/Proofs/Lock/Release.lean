import DirLock.Proofs.Lock.Claim

/-!
# Holding and releasing

What a look at the held marker and a release ensure. A release takes away the claim that it has seen
to be its own with the deed that moves it aside; if it sees no claim of its own it changes nothing.
-/

namespace DirLock.Site

open Disk (Tree Place Path Name Entry Fault)
open Disk.Tree (filesView noView)

variable {ι : Type} {s : Site ι} {i j : ι} {releasing : Prop} {tree : Tree}

theorem nonce_bytes_eq_iff : (s.lock j).nonce.bytes = (s.lock i).nonce.bytes ↔ j = i := by
  constructor
  · intro heq
    exact s.nonce_injective (Nonce.eq_of_bytes heq)
  · rintro rfl
    rfl

/-- What a look at the held marker says. -/
inductive Looks (s : Site ι) (i : ι) (deeds : Deeds) (after : Tree) : Bool → Prop
  | held : s.Sees deeds (some i) → s.IsOwned after (some i) → s.Looks i deeds after true
  | notHeld {owner : Option ι} : owner ≠ some i → s.Sees deeds owner → s.IsOwned after owner →
    s.Looks i deeds after false
  | failed : s.faulty → s.AllQuiet deeds → s.Looks i deeds after false

theorem ensures_isHeld :
    s.Ensures i releasing (s.lock i).isHeld [] tree
      fun deeds result after => s.Others i tree after ∧ AllLooks deeds ∧
        s.Looks i deeds after result := by
  refine ensures_look fun before hothers reply after hanswers => ?_
  have hlooks : AllLooks [(before, before)] := fun deed hdeed => by
    rw [List.mem_singleton.1 hdeed]
  obtain ⟨rfl, ⟨j, rfl, howned⟩ | ⟨fault, rfl, hwhy⟩⟩ := readFile_held hothers.good hanswers
  · refine ⟨rfl, hothers, hlooks, ?_⟩
    have hsees := sees_cons howned rfl allQuiet_nil
    by_cases hj : j = i
    · subst hj
      rw [decide_eq_true (nonce_bytes_eq_iff.2 rfl)]
      exact .held hsees howned
    · rw [decide_eq_false (mt nonce_bytes_eq_iff.1 hj)]
      exact .notHeld (by simpa using hj) hsees howned
  · refine ⟨rfl, hothers, hlooks, ?_⟩
    rcases hwhy with hfaulty | hfree
    · exact .failed hfaulty (allQuiet_nil.look _)
    · have hne : (none : Option ι) ≠ some i := nofun
      exact .notHeld hne (sees_cons hfree rfl allQuiet_nil) hfree

/-! ## Releasing -/

/-- How a release of the lock ends: a claim was taken away, the party saw that it is not the owner, or
nothing was changed because a request failed or the claim was removed by hand. -/
inductive Released (s : Site ι) (i : ι) (tree : Tree) (deeds : Deeds) : Except LockError Unit → Prop
  | released {j : ι} {result : Except LockError Unit} : (¬ s.cleared → j = i) →
    s.Turns deeds (some j) none → s.IsOwned tree (some i) → (result = .ok () ∨ s.faulty) →
    s.Released i tree deeds result
  | notHeld {owner : Option ι} : owner ≠ some i → s.Sees deeds owner → AllLooks deeds →
    (¬ s.cleared → ¬ s.IsOwned tree (some i)) →
    s.Released i tree deeds (.error (.notHeld s.name.text))
  | failed {result : Except LockError Unit} : s.faulty ∨ s.cleared → s.AllQuiet deeds →
    result ≠ .ok () → s.Released i tree deeds result

theorem ensures_deleteReleased {now : Time.Instant}
    (hbelow : tree.below (s.parent ++ [(s.lock i).nonce.releasedName]) =
      filesView (s.claimFiles j now))
    (hclear : s.Clear i (some (s.parent ++ [(s.lock i).nonce.releasedName])) tree) :
    s.Ensures i releasing (s.lock i).deleteReleased [] tree
      fun deeds result after => s.AllQuiet deeds ∧ s.Clear i none after ∧
        (result = .ok () ∨ s.faulty) := by
  have hpartial := partial_claimFiles (s := s) j now
  refine (ensures_removeTree (s.works_released i) .released hpartial.sorted hbelow hclear).seq ?_
  rintro deeds result after ⟨hquiet, hclear, rfl | ⟨fault, rfl, hfaulty⟩⟩
  · exact ⟨hquiet.append allQuiet_nil, hclear, .inl rfl⟩
  · exact ⟨hquiet.append allQuiet_nil, hclear, .inr hfaulty⟩

theorem ensures_unlock (hclear : s.Clear i none tree) :
    s.Ensures i True (s.lock i).unlock [] tree
      fun deeds result after => s.Clear i none after ∧ s.Released i tree deeds result := by
  apply ensures_isHeld.seq
  rintro looked held after ⟨hothers, hall, hlooks⟩
  have hclear := hclear.others hothers
  cases hlooks with
  | held hsees howned =>
    have hstart : s.IsOwned tree (some i) := (isOwned_congr (hothers.made howned)).1 howned
    refine ensures_request fun before hothers' reply after hanswers => ?_
    have hclear := hclear.others hothers'
    have hkept : ¬ s.cleared → s.IsOwned before (some i) := fun hcleared =>
      (isOwned_congr (hothers'.kept hcleared howned)).2 howned
    rcases (s.works_released i).rename_from_claim hothers'.good .released hanswers with
      ⟨rfl, ⟨j, hj⟩, hmoves⟩ | ⟨fault, rfl, rfl, hwhy⟩
    · have hmine : ¬ s.cleared → j = i := fun hcleared =>
        Option.some.inj (isOwned_unique hj (hkept hcleared))
      obtain ⟨hdeed, hfree⟩ := Deed.of_releasing hothers'.good trivial hj hmine hmoves
      obtain ⟨now, hbelow⟩ := id hj
      refine ⟨hdeed, ensures_note fun before hothers'' => ?_⟩
      have haside := (hothers''.plots _ .released).trans (hmoves.at_target.trans hbelow)
      apply (ensures_deleteReleased haside ((hclear.of_releasing hmoves).others hothers'')).mono
      rintro deeds result last ⟨hquiet, hclear, hresult⟩
      refine ⟨hclear, .released hmine ?_ hstart hresult⟩
      exact (turns_cons hj hfree (hquiet.look _)).of_quiet_append hsees.1
    · refine ⟨.refl hothers'.good, hclear, .failed ?_ (hsees.1.append (allQuiet_nil.look _)) nofun⟩
      by_contra hnot
      push Not at hnot
      rcases hwhy with hfaulty | hfree | hget
      · exact hnot.1 hfaulty
      · cases isOwned_unique hfree (hkept hnot.2)
      · exact hget (Tree.get?_of_below (hclear hnot.1 _ .released nofun))
  | notHeld hne hsees howned =>
    refine ⟨hclear, ?_⟩
    have hname : (s.lock i).name.text = s.name.text := by rw [s.name_eq i]
    rw [hname, List.append_nil]
    refine .notHeld hne hsees hall fun hcleared hstart => hne ?_
    exact isOwned_unique howned ((isOwned_congr (hothers.kept hcleared hstart)).2 hstart)
  | failed hfaulty hquiet =>
    exact ⟨hclear, .failed (.inl hfaulty) (hquiet.append allQuiet_nil) nofun⟩

theorem Released.append_nil {deeds : Deeds} {result : Except LockError Unit}
    (h : s.Released i tree deeds result) : s.Released i tree (deeds ++ []) result := by
  rwa [List.append_nil]

theorem ensures_release (hclear : s.Clear i none tree) (guard : Guard)
    (hguard : guard.lock = s.lock i) :
    s.Ensures i True guard.release [] tree
      fun deeds result after => s.Clear i none after ∧ s.Released i tree deeds result.2 ∧
        result.1 = { guard with spent := true } := by
  unfold Guard.release
  rw [hguard]
  apply (ensures_unlock hclear).seq
  rintro deeds result after ⟨hclear, hreleased⟩
  exact ⟨hclear, hreleased.append_nil, rfl⟩

/-- How it ends when a guard goes away: the party's claim was taken away, the party saw that it is not
the owner, or nothing was changed because a request failed or the claim was removed by hand. -/
inductive Dropped (s : Site ι) (i : ι) (tree : Tree) (deeds : Deeds) : Prop
  | released {j : ι} : (¬ s.cleared → j = i) → s.Turns deeds (some j) none → s.Dropped i tree deeds
  | notHeld {owner : Option ι} : owner ≠ some i → s.Sees deeds owner → s.Dropped i tree deeds
  | failed : s.faulty ∨ s.cleared → s.AllQuiet deeds → s.Dropped i tree deeds

theorem ensures_drop (hclear : s.Clear i none tree) :
    s.Ensures i True (Guard.of (s.lock i)).drop [] tree
      fun deeds _ after => s.Clear i none after ∧ s.Dropped i tree deeds := by
  apply ensures_isHeld.seq
  rintro looked held after ⟨hothers, -, hlooks⟩
  have hclear := hclear.others hothers
  cases hlooks with
  | held hsees howned =>
    apply (ensures_unlock hclear).seq
    rintro deeds result after ⟨hclear, hreleased⟩
    have hdropped : ∀ more, s.AllQuiet more → s.Dropped i tree (looked ++ (deeds ++ more)) := by
      intro more hmore
      cases hreleased with
      | released hmine hturns _ _ =>
        exact .released hmine ((hturns.append_quiet hmore).of_quiet_append hsees.1)
      | notHeld hne hsees' _ hstart =>
        refine .failed (.inr ?_) (hsees.1.append (hsees'.1.append hmore))
        by_contra hcleared
        exact hstart hcleared howned
      | failed hwhy hquiet _ => exact .failed hwhy (hsees.1.append (hquiet.append hmore))
    rcases result with error | _
    · refine ensures_look fun before hothers reply after hanswers => ?_
      obtain rfl := answers_plain (fun _ => rfl) hanswers
      exact ⟨rfl, hclear.others hothers, hdropped _ (allQuiet_nil.look _)⟩
    · exact ⟨hclear, hdropped [] allQuiet_nil⟩
  | notHeld hne hsees _ => exact ⟨hclear, .notHeld hne (hsees.append_quiet allQuiet_nil)⟩
  | failed hfaulty hquiet => exact ⟨hclear, .failed (.inl hfaulty) (hquiet.append allQuiet_nil)⟩

end DirLock.Site
