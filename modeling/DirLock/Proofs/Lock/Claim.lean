import DirLock.Lock.Acquire
import DirLock.Proofs.Lock.Stage

/-!
# Claiming

What an attempt to claim the lock ensures. It acquires with the deed that puts the claim in its place
where there was none; it is lost to an owner that one of its deeds sees; and it fails only if one of
its requests failed for reasons of its own.
-/

namespace DirLock.Site

open Disk (Tree Place Path Name Entry Fault)
open Disk.Tree (filesView noView)

variable {ι : Type} {s : Site ι} {i : ι} {releasing : Prop} {tree : Tree}

/-- How an attempt to claim the lock ends: the party got the lock, it saw another owner, or a request
failed for reasons of its own. -/
inductive Attempted (s : Site ι) (i : ι) (deeds : Deeds) (after : Tree) :
    Except LockError Bool → Prop
  | acquired : s.Turns deeds none (some i) → (¬ s.cleared → s.IsOwned after (some i)) →
    s.Attempted i deeds after (.ok true)
  | lost {j : ι} : s.Sees deeds (some j) → s.Attempted i deeds after (.ok false)
  | failed {result : Except LockError Bool} : s.faulty → s.AllQuiet deeds → result ≠ .ok true →
    s.Attempted i deeds after result

theorem Attempted.of_quiet_append {deeds more : Deeds} {after : Tree} {result : Except LockError Bool}
    (hquiet : s.AllQuiet deeds) (h : s.Attempted i more after result) :
    s.Attempted i (deeds ++ more) after result := by
  cases h with
  | acquired hturns howned => exact .acquired (hturns.of_quiet_append hquiet) howned
  | lost hsees => exact .lost (hsees.of_quiet_append hquiet)
  | failed hfaulty hmore hne => exact .failed hfaulty (hquiet.append hmore) hne

theorem ensures_isLocked :
    s.Ensures i releasing (s.lock i).isLocked [] tree
      fun deeds result after => s.AllQuiet deeds ∧ s.Others i tree after ∧
        ((result = .ok true ∧ ∃ j, s.Sees deeds (some j)) ∨ (result = .ok false ∧ s.Sees deeds none) ∨
          s.faulty) := by
  refine ensures_look fun before hothers reply after hanswers => ?_
  obtain ⟨rfl, ⟨kind, j, rfl, howned⟩ | ⟨fault, rfl, hkind, hfree⟩ | ⟨fault, rfl, hfaulty⟩⟩ :=
    entryKind_claim hothers.good hanswers
  · exact ⟨rfl, allQuiet_nil.look _, hothers, .inl ⟨rfl, j, sees_cons howned rfl allQuiet_nil⟩⟩
  · refine ⟨rfl, ?_⟩
    dsimp only
    rw [if_pos hkind]
    exact ⟨allQuiet_nil.look _, hothers, .inr (.inl ⟨rfl, sees_cons hfree rfl allQuiet_nil⟩)⟩
  · refine ⟨rfl, ?_⟩
    dsimp only
    split_ifs
    · exact ⟨allQuiet_nil.look _, hothers, .inr (.inr hfaulty)⟩
    · exact ⟨allQuiet_nil.look _, hothers, .inr (.inr hfaulty)⟩

theorem ensures_note {α : Type} {event : Log.Event} {next : Unit → Routine α}
    {post : Deeds → α → Tree → Prop}
    (h : ∀ before, s.Others i tree before →
      s.Ensures i releasing (next ()) [] before fun more value last =>
        post ((before, before) :: more) value last) :
    s.Ensures i releasing (Routine.note event >>= next) [] tree post := by
  refine ensures_look fun before hothers reply after hanswers => ?_
  obtain rfl := answers_plain (fun _ => rfl) hanswers
  exact ⟨rfl, h _ hothers⟩

theorem ensures_putInPlace {path : Path} {now : Time.Instant}
    (hstaged : s.Staged i (s.claimFiles i now) tree path) :
    s.Ensures i releasing ((s.lock i).putInPlace path) [] tree
      fun deeds result after => s.Clear i none after ∧ s.Attempted i deeds after result := by
  refine ensures_request fun before hothers reply after hanswers => ?_
  have hbefore := hstaged.others hothers
  obtain ⟨suffix, hsuffix, rfl, hbelow, hclear⟩ := hbefore
  have hown : s.Own i (s.scratch i ++ [(s.lock i).nonce.stagingName suffix]) := .staging hsuffix
  rcases (s.works_staging i hsuffix).rename_to_claim hothers.good hown (Tree.get?_of_below hbelow)
      hanswers with ⟨rfl, hfree, hmoves⟩ | ⟨fault, rfl, rfl, hwhy⟩
  · obtain ⟨hdeed, howned⟩ := Deed.of_claiming hothers.good hfree hmoves hbelow
    refine ⟨hdeed, ensures_note fun before hothers' => ⟨?_, ?_⟩⟩
    · exact (hclear.of_claiming hmoves).others hothers'
    · refine .acquired (turns_cons hfree howned (allQuiet_nil.look _)) fun hcleared => ?_
      exact (isOwned_congr (hothers'.kept hcleared howned)).2 howned
  · refine ⟨.refl hothers.good, ?_⟩
    dsimp only
    split_ifs with hlost
    · refine ensures_note fun before' hothers' => ?_
      refine (ensures_discard (partial_claimFiles i now) ((hstaged.others hothers).others hothers')).seq
        ?_
      rintro deeds result last ⟨hquiet, hclear⟩
      refine ⟨hclear, ?_⟩
      rcases hwhy with hfaulty | ⟨-, j, howned⟩
      · exact .failed hfaulty (((hquiet.append allQuiet_nil).look _).look _) nofun
      · exact .lost (sees_cons howned rfl ((hquiet.append allQuiet_nil).look _))
    · apply (ensures_discard (partial_claimFiles i now) (hstaged.others hothers)).seq
      rintro deeds result last ⟨hquiet, hclear⟩
      rcases hwhy with hfaulty | ⟨hrace, -⟩
      · exact ⟨hclear, .failed hfaulty ((hquiet.append allQuiet_nil).look _) nofun⟩
      · exact absurd hrace hlost

theorem ensures_tryClaim (hclear : s.Clear i none tree) :
    s.Ensures i releasing ((s.lock i).tryClaim (s.claimant i)) [] tree
      fun deeds result after => s.Clear i none after ∧ s.Attempted i deeds after result := by
  apply ensures_isLocked.seq
  rintro deeds result after ⟨hquiet, hothers, hresult⟩
  have hclear := hclear.others hothers
  rcases result with error | (_ | _)
  · rcases hresult with ⟨h, -⟩ | ⟨h, -⟩ | hfaulty
    · cases h
    · cases h
    · exact ⟨hclear, .failed hfaulty (hquiet.append allQuiet_nil) nofun⟩
  · apply (ensures_stage hclear).seq
    rintro deeds' result after ⟨hquiet', ⟨path, now, rfl, hstaged⟩ | ⟨error, rfl, hfaulty, hclear⟩⟩
    · apply (ensures_putInPlace hstaged).mono
      rintro more result last ⟨hclear, hattempted⟩
      exact ⟨hclear, (hattempted.of_quiet_append hquiet').of_quiet_append hquiet⟩
    · exact ⟨hclear, .failed hfaulty (hquiet.append (hquiet'.append allQuiet_nil)) nofun⟩
  · refine ensures_note fun before hothers' => ⟨hclear.others hothers', ?_⟩
    rcases hresult with ⟨-, j, hsees⟩ | ⟨h, -⟩ | hfaulty
    · exact .lost (hsees.append_quiet (allQuiet_nil.look _))
    · cases h
    · exact .failed hfaulty (hquiet.append (allQuiet_nil.look _)) nofun

/-! ## Attempting again and again -/

/-- What a wait without a deadline says, as the outcome of its last attempt. One that is given up says
that the lock was taken. -/
def lastOutcome {α : Type} : Option (Except LockError α) → Except LockError Bool
  | none => .ok false
  | some (.ok _) => .ok true
  | some (.error error) => .error error

theorem eq_ok_of_lastOutcome {α : Type} {result : Option (Except LockError α)}
    (h : lastOutcome result = .ok true) : ∃ value, result = some (.ok value) := by
  rcases result with _ | (error | value)
  · cases h
  · cases h
  · exact ⟨value, rfl⟩

theorem eq_none_of_lastOutcome {α : Type} {result : Option (Except LockError α)}
    (h : lastOutcome result = .ok false) : result = none := by
  rcases result with _ | (error | value)
  · rfl
  · cases h
  · cases h

theorem Attempted.quiet {deeds : Deeds} {after : Tree} {result : Except LockError Bool}
    (h : s.Attempted i deeds after result) (hresult : result ≠ .ok true) : s.AllQuiet deeds := by
  cases h with
  | acquired => exact absurd rfl hresult
  | lost hsees => exact hsees.1
  | failed _ hquiet _ => exact hquiet

theorem Attempted.append_look {deeds : Deeds} {after before : Tree} {result : Except LockError Bool}
    (h : s.Attempted i deeds after result) (hothers : s.Others i after before) :
    s.Attempted i (deeds ++ [(before, before)]) before result := by
  have hlook := allQuiet_nil.look (s := s) before
  cases h with
  | acquired hturns howned =>
    refine .acquired (hturns.append_quiet hlook) fun hcleared => ?_
    exact (isOwned_congr (hothers.kept hcleared (howned hcleared))).2 (howned hcleared)
  | lost hsees => exact .lost (hsees.append_quiet hlook)
  | failed hfaulty hquiet hne => exact .failed hfaulty (hquiet.append hlook) hne

theorem ensures_untilDecided (hclear : s.Clear i none tree) (tries made : Nat) :
    s.Ensures i releasing (Wait.untilDecided ((s.lock i).tryClaim (s.claimant i))
        (s.lock i).pauseBetween (tries + 1) made) [] tree
      fun deeds result after => s.Clear i none after ∧
        s.Attempted i deeds after (lastOutcome result) := by
  induction tries generalizing tree made with
  | zero =>
    rw [Wait.untilDecided]
    apply (ensures_tryClaim hclear).seq
    rintro deeds result after ⟨hclear, hattempted⟩
    rcases result with error | (_ | _)
    · exact ⟨hclear, by rwa [List.append_nil]⟩
    · refine ensures_look fun before hothers reply after hanswers => ?_
      obtain rfl := answers_plain (fun _ => rfl) hanswers
      exact ⟨rfl, hclear.others hothers, hattempted.append_look hothers⟩
    · exact ⟨hclear, by rwa [List.append_nil]⟩
  | succ tries ih =>
    rw [Wait.untilDecided]
    apply (ensures_tryClaim hclear).seq
    rintro deeds result after ⟨hclear, hattempted⟩
    rcases result with error | (_ | _)
    · exact ⟨hclear, by rwa [List.append_nil]⟩
    · refine ensures_look fun before hothers reply after hanswers => ?_
      obtain rfl := answers_plain (fun _ => rfl) hanswers
      refine ⟨rfl, (ih (hclear.others hothers) (made + 1)).mono ?_⟩
      rintro more result last ⟨hclear, hlast⟩
      refine ⟨hclear, ?_⟩
      have hall := hlast.of_quiet_append ((hattempted.append_look hothers).quiet nofun)
      rwa [List.append_assoc] at hall
    · exact ⟨hclear, by rwa [List.append_nil]⟩

theorem ensures_acquire (hclear : s.Clear i none tree) (tries : Nat) :
    s.Ensures i releasing ((s.lock i).acquire (s.claimant i) (tries + 1)) [] tree
      fun deeds result after => s.Clear i none after ∧
        s.Attempted i deeds after (lastOutcome result) := by
  apply (ensures_untilDecided hclear tries 0).seq
  rintro deeds result after ⟨hclear, hattempted⟩
  rcases result with _ | (error | attempts)
  · exact ⟨hclear, by rwa [List.append_nil]⟩
  · exact ⟨hclear, by rwa [List.append_nil]⟩
  · refine ensures_note fun before hothers => ?_
    exact ⟨hclear.others hothers, hattempted.append_look hothers⟩

theorem ensures_hold (hclear : s.Clear i none tree) (tries : Nat) :
    s.Ensures i releasing ((s.lock i).hold (s.claimant i) (tries + 1)) [] tree
      fun deeds result after => s.Clear i none after ∧
        s.Attempted i deeds after (lastOutcome result) ∧
        (∀ guard, result = some (.ok guard) → guard = Guard.of (s.lock i)) := by
  apply (ensures_acquire hclear tries).seq
  rintro deeds result after ⟨hclear, hattempted⟩
  rw [← List.append_nil deeds] at hattempted
  rcases result with _ | (error | _)
  · exact ⟨hclear, hattempted, nofun⟩
  · exact ⟨hclear, hattempted, nofun⟩
  · refine ⟨hclear, hattempted, ?_⟩
    rintro guard hguard
    exact (Except.ok.inj (Option.some.inj hguard)).symm

end DirLock.Site
