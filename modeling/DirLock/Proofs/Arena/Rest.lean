import DirLock.Proofs.Arena.Timed

/-!
# The lock at rest

When nobody is in a call, nothing is left of all the calls but the claim of the party that is inside,
if there is one: the tree is the one with which the parties began, and that claim.

A party is inside when it owns the lock and is in no call, and the other way round (`Tenure`). What
carries this through a call is that nobody but the party itself changes whether it owns the lock, so
that between two of its deeds, and between the last one and now, that stays as it is (`Linked`).
-/

namespace DirLock

open Disk (Tree)
open Disk.Tree (noView)

variable {ι : Type} {s : Site ι} {i j : ι} {tree before after last : Tree} {deeds more : Site.Deeds}

namespace Site

/-! ## Who owns the lock between the deeds of a party -/

/-- From the first tree through the deeds to the last tree, only the deeds change whether the party owns
the lock. -/
def Linked (s : Site ι) (i : ι) (tree : Tree) : Deeds → Tree → Prop
  | [], last => s.IsOwned last (some i) ↔ s.IsOwned tree (some i)
  | deed :: deeds, last => (s.IsOwned deed.1 (some i) ↔ s.IsOwned tree (some i)) ∧
    s.Linked i deed.2 deeds last

theorem Others.isOwned_iff (hcleared : ¬ s.cleared) (h : s.Others i tree after) :
    s.IsOwned after (some i) ↔ s.IsOwned tree (some i) := by
  constructor
  · intro howned
    exact (isOwned_congr (h.made howned)).1 howned
  · exact h.keeps hcleared

theorem Linked.later (h : s.Linked i tree deeds last)
    (hiff : s.IsOwned after (some i) ↔ s.IsOwned last (some i)) : s.Linked i tree deeds after := by
  induction deeds generalizing tree with
  | nil => exact hiff.trans h
  | cons deed deeds ih => exact ⟨h.1, ih h.2⟩

theorem Linked.concat (h : s.Linked i tree deeds before) (after : Tree) :
    s.Linked i tree (deeds ++ [(before, after)]) after := by
  induction deeds generalizing tree with
  | nil => exact ⟨h, Iff.rfl⟩
  | cons deed deeds ih => exact ⟨h.1, ih h.2⟩

theorem Linked.of_append {deed : Tree × Tree} (h : s.Linked i tree (deeds ++ deed :: more) last) :
    s.Linked i deed.2 more last := by
  induction deeds generalizing tree with
  | nil => exact h.2
  | cons _ deeds ih => exact ih h.2

/-- If the deeds leave the claim's place alone, the party owns the lock at the end if and only if it owned
it at the start. -/
theorem Linked.of_quiet (h : s.Linked i tree deeds last) (hquiet : s.AllQuiet deeds) :
    s.IsOwned last (some i) ↔ s.IsOwned tree (some i) := by
  induction deeds generalizing tree with
  | nil => exact h
  | cons deed deeds ih =>
    have hrest := ih h.2 fun d hd => hquiet d (List.mem_cons_of_mem _ hd)
    exact hrest.trans ((isOwned_congr (hquiet deed List.mem_cons_self)).trans h.1)

theorem Linked.not_owned_of_turns (h : s.Linked i tree deeds last)
    (hturns : s.Turns deeds (some i) none) : ¬ s.IsOwned last (some i) := by
  obtain ⟨front, deed, back, rfl, -, hback, -, hfree⟩ := hturns
  intro howned
  cases isOwned_unique hfree ((h.of_append.of_quiet hback).1 howned)

theorem Linked.not_owned_of_sees (h : s.Linked i tree deeds last) {owner : Option ι}
    (hne : owner ≠ some i) (hsees : s.Sees deeds owner) : ¬ s.IsOwned last (some i) := by
  obtain ⟨hquiet, deed, hmem, howner⟩ := hsees
  obtain ⟨front, back, rfl⟩ := List.append_of_mem hmem
  intro howned
  have hback : s.AllQuiet back := fun d hd =>
    hquiet d (List.mem_append_right _ (List.mem_cons_of_mem _ hd))
  have hdeed := (h.of_append.of_quiet hback).1 howned
  exact hne (isOwned_unique howner ((isOwned_congr (hquiet deed hmem)).1 hdeed))

theorem Settled.wins_or {releasing wins : Bool} (h : s.Settled i releasing wins deeds after)
    (hlinked : s.Linked i tree deeds last) {inside : Prop}
    (hinside : releasing = false → s.IsOwned tree (some i) → inside)
    (howned : s.IsOwned last (some i)) : inside ∨ wins = true := by
  cases h with
  | won hwins _ => exact .inr hwins
  | kept _ hreleasing hquiet => exact .inl (hinside hreleasing ((hlinked.of_quiet hquiet).1 howned))
  | gaveBack _ hturns => exact absurd howned (hlinked.not_owned_of_turns hturns)
  | notOwner _ hne hsees => exact absurd howned (hlinked.not_owned_of_sees hne hsees)

/-! ## The tree off the plots -/

theorem Good.get?_of_clear (h : s.Good tree) (hfaulty : ¬ s.faulty) (hclear : ∀ i, s.Clear i none tree)
    {q : Disk.Place} (hq : ¬ s.claim <+: q) : tree.get? q = s.ground.get? q := by
  by_cases hplot : ∃ i place, s.Own i place ∧ place <+: q
  · obtain ⟨i, place, hown, rest, rfl⟩ := hplot
    have hbelow := congrFun (hclear i hfaulty place hown nofun) rest
    have hground := congrFun (s.sound.below_eq_none hown.plot.free) rest
    exact hbelow.trans hground.symm
  · exact h.frame q hq fun i place hown hpre => hplot ⟨i, place, hown, hpre⟩

end Site

namespace Arena

open Site (Deeds)

variable [DecidableEq ι] {arena next : Arena ι Lock.TimedCall Lock.TimedAnswer}
  {act : Act ι Lock.TimedCall}

/-! ## Owning the lock and being inside -/

/-- A party that is inside owns the lock and is in no call that gives it back, and a party that owns the
lock is inside or in a call that accounts for it. -/
structure Tenure (s : Site ι) (arena : Arena ι Lock.TimedCall Lock.TimedAnswer) : Prop where
  owned : ∀ i, arena.inside i = true → s.IsOwned arena.machine.tree (some i)
  keeping : ∀ i call begun deeds rest, arena.activity i = .busy call begun deeds rest →
    arena.inside i = true → call.releasing = false
  idle : ∀ i, arena.activity i = .idle → s.IsOwned arena.machine.tree (some i) →
    arena.inside i = true
  linked : ∀ i call begun deeds rest, arena.activity i = .busy call begun deeds rest →
    s.Linked i begun deeds arena.machine.tree
  begun : ∀ i call begun deeds rest, arena.activity i = .busy call begun deeds rest →
    call.releasing = false → s.IsOwned begun (some i) → arena.inside i = true

omit [DecidableEq ι] in
theorem Tenure.start (h : arena.Start s) : arena.Tenure s where
  owned := fun i hi => by
    rw [h.outside i] at hi
    cases hi
  keeping := fun i _ _ _ _ hbusy => by
    rw [h.idle i] at hbusy
    cases hbusy
  idle := fun i _ howned => by cases Site.isOwned_unique h.free howned
  linked := fun i _ _ _ _ hbusy => by
    rw [h.idle i] at hbusy
    cases hbusy
  begun := fun i _ _ _ _ hbusy => by
    rw [h.idle i] at hbusy
    cases hbusy

theorem inside_of_call {inside : ι → Bool} {releasing : Bool}
    (h : Function.update inside i (inside i && !releasing) j = true) :
    inside j = true ∧ (j = i → releasing = false) := by
  by_cases hji : j = i
  · subst hji
    rw [Function.update_self, Bool.and_eq_true, Bool.not_eq_true'] at h
    exact ⟨h.1, fun _ => h.2⟩
  · rw [Function.update_of_ne hji] at h
    exact ⟨h, fun heq => absurd heq hji⟩

theorem Tenure.call (h : arena.Tenure s) {call : Lock.TimedCall} (hidle : arena.activity i = .idle) :
    Tenure s { arena with
      activity := Function.update arena.activity i
        (.busy call arena.machine.tree [] (s.timedService.routine i call))
      inside := Function.update arena.inside i (arena.inside i && !call.releasing) } where
  owned := fun j hj => h.owned j (inside_of_call hj).1
  keeping := fun j call' begun deeds rest hbusy hj => by
    obtain ⟨hinside, hkeeps⟩ := inside_of_call hj
    rcases Activity.busy_of_update hbusy with ⟨rfl, hnew⟩ | ⟨-, hold⟩
    · cases hnew
      exact hkeeps rfl
    · exact h.keeping j call' begun deeds rest hold hinside
  idle := fun j hj howned => by
    dsimp only at hj ⊢
    by_cases hji : j = i
    · subst hji
      rw [Function.update_self] at hj
      cases hj
    · rw [Function.update_of_ne hji] at hj ⊢
      exact h.idle j hj howned
  linked := fun j call' begun deeds rest hbusy => by
    rcases Activity.busy_of_update hbusy with ⟨rfl, hnew⟩ | ⟨-, hold⟩
    · cases hnew
      exact Iff.rfl
    · exact h.linked j call' begun deeds rest hold
  begun := fun j call' begun deeds rest hbusy hreleasing howned => by
    dsimp only
    rcases Activity.busy_of_update hbusy with ⟨rfl, hnew⟩ | ⟨hji, hold⟩
    · cases hnew
      rw [Function.update_self, h.idle j hidle howned, hreleasing]
      rfl
    · rw [Function.update_of_ne hji]
      exact h.begun j call' begun deeds rest hold hreleasing howned

theorem Tenure.answered (hcleared : ¬ s.cleared) (h : arena.Tenure s) {call : Lock.TimedCall}
    {begun : Tree} {deeds : Deeds} {rest rest' : Routine Lock.TimedAnswer} {machine : Machine}
    (hbusy : arena.activity i = .busy call begun deeds rest)
    (hdeed : s.Deed i (call.releasing = true) arena.machine.tree machine.tree) :
    (arena.answered i call begun deeds machine rest').Tenure s where
  owned := fun j hj => by
    have howned := h.owned j hj
    by_cases hji : j = i
    · subst hji
      have hkeeping := h.keeping j _ _ _ _ hbusy hj
      exact hdeed.keeps (by rw [hkeeping]; exact Bool.false_ne_true) howned
    · exact (hdeed.others (Ne.symm hji)).keeps hcleared howned
  keeping := fun j call' begun' deeds' rest'' hbusy' hj => by
    rcases Activity.busy_of_update hbusy' with ⟨rfl, hnew⟩ | ⟨-, hold⟩
    · cases hnew
      exact h.keeping j _ _ _ _ hbusy hj
    · exact h.keeping j _ _ _ _ hold hj
  idle := fun j hj howned => by
    by_cases hji : j = i
    · subst hji
      rw [Arena.answered] at hj
      dsimp only at hj
      rw [Function.update_self] at hj
      cases hj
    · rw [Arena.answered] at hj
      dsimp only at hj
      rw [Function.update_of_ne hji] at hj
      exact h.idle j hj (((hdeed.others (Ne.symm hji)).isOwned_iff hcleared).1 howned)
  linked := fun j call' begun' deeds' rest'' hbusy' => by
    rcases Activity.busy_of_update hbusy' with ⟨rfl, hnew⟩ | ⟨hji, hold⟩
    · cases hnew
      exact (h.linked j _ _ _ _ hbusy).concat _
    · exact (h.linked j _ _ _ _ hold).later ((hdeed.others (Ne.symm hji)).isOwned_iff hcleared)
  begun := fun j call' begun' deeds' rest'' hbusy' => by
    rcases Activity.busy_of_update hbusy' with ⟨rfl, hnew⟩ | ⟨-, hold⟩
    · cases hnew
      exact h.begun j _ _ _ _ hbusy
    · exact h.begun j _ _ _ _ hold

theorem Tenure.finish (hcleared : ¬ s.cleared) (h : arena.Tenure s) {call : Lock.TimedCall}
    {begun : Tree} {deeds : Deeds} {answer : Lock.TimedAnswer}
    (hbusy : arena.activity i = .busy call begun deeds (.done answer))
    (hlast : s.Others i last arena.machine.tree)
    (hsettled : s.Settled i call.releasing answer.wins deeds last) :
    Tenure s { arena with
      activity := Function.update arena.activity i .idle
      inside := Function.update arena.inside i (arena.inside i || answer.wins)
      ended := arena.ended ++ [⟨i, call, begun, deeds, answer⟩] } where
  owned := fun j hj => by
    dsimp only at hj
    by_cases hji : j = i
    · subst hji
      rw [Function.update_self, Bool.or_eq_true] at hj
      rcases hj with hj | hwins
      · exact h.owned j hj
      · cases hsettled with
        | won _ howned => exact hlast.keeps hcleared howned
        | _ hloses =>
          rw [hloses] at hwins
          cases hwins
    · rw [Function.update_of_ne hji] at hj
      exact h.owned j hj
  keeping := fun j call' begun' deeds' rest' hbusy' hj => by
    rcases Activity.busy_of_update hbusy' with ⟨-, hnew⟩ | ⟨hji, hold⟩
    · cases hnew
    · dsimp only at hj
      rw [Function.update_of_ne hji] at hj
      exact h.keeping j _ _ _ _ hold hj
  idle := fun j hj howned => by
    dsimp only at hj ⊢
    by_cases hji : j = i
    · subst hji
      rw [Function.update_self, Bool.or_eq_true]
      exact hsettled.wins_or (h.linked j _ _ _ _ hbusy) (h.begun j _ _ _ _ hbusy) howned
    · rw [Function.update_of_ne hji] at hj ⊢
      exact h.idle j hj howned
  linked := fun j call' begun' deeds' rest' hbusy' => by
    rcases Activity.busy_of_update hbusy' with ⟨-, hnew⟩ | ⟨-, hold⟩
    · cases hnew
    · exact h.linked j _ _ _ _ hold
  begun := fun j call' begun' deeds' rest' hbusy' hreleasing howned => by
    dsimp only
    rcases Activity.busy_of_update hbusy' with ⟨-, hnew⟩ | ⟨hji, hold⟩
    · cases hnew
    · rw [Function.update_of_ne hji]
      exact h.begun j _ _ _ _ hold hreleasing howned

theorem Tenure.step (hfaulty : ¬ s.faulty) (hcleared : ¬ s.cleared) (h : arena.Tenure s)
    (hsound : arena.Sound s s.timedService s.TimedAnswered)
    (hstep : arena.Step s s.timedService act next) : next.Tenure s := by
  cases hstep with
  | call hidle => exact h.call hidle
  | answered _ hbusy hanswers => exact h.answered hcleared hbusy (hsound.deed hbusy hanswers).1
  | @finish i call begun deeds answer hbusy =>
    obtain ⟨last, hlast, -, hpost⟩ := hsound.busy i call begun deeds _ hbusy
    exact h.finish hcleared hbusy hlast (hpost.settled hfaulty hcleared)
  | clear hclear => exact absurd hclear hcleared
  | pass => exact ⟨h.owned, h.keeping, h.idle, h.linked, h.begun⟩

theorem tenure_play (hfaulty : ¬ s.faulty) (hcleared : ¬ s.cleared)
    (hvalid : ∀ i, (s.lock i).config.validate = .ok ()) (hstart : arena.Start s)
    {acts : List (Act ι Lock.TimedCall)} (hallows : ∀ act ∈ acts, s.Allows act)
    (hplay : arena.play s s.timedService acts = some next) :
    next.Sound s s.timedService s.TimedAnswered ∧ next.Tenure s := by
  refine play_induction
    (P := fun arena => arena.Sound s s.timedService s.TimedAnswered ∧ arena.Tenure s)
    hallows (fun _ h hstep => ?_) ⟨.start hstart, .start hstart⟩ hplay
  exact ⟨h.1.step (Site.timedService_ensures hvalid) hstep, h.2.step hfaulty hcleared h.1 hstep⟩

/-! ## Nothing is left -/

/-- When nobody is in a call, nothing is left of the calls but the claim of the party that is inside. Off
the claim's place the tree is the one with which the parties began, without a staging directory or a
released claim of theirs. If nobody is inside nothing stands at the claim's place; otherwise one party
is, and its claim stands there, with its two files and nothing else. -/
theorem play_at_rest (hfaulty : ¬ s.faulty) (hcleared : ¬ s.cleared)
    (hvalid : ∀ i, (s.lock i).config.validate = .ok ()) (hstart : arena.Start s)
    {acts : List (Act ι Lock.TimedCall)} (hallows : ∀ act ∈ acts, s.Allows act)
    (hplay : arena.play s s.timedService acts = some next)
    (hidle : ∀ i, next.activity i = .idle) :
    (∀ q, ¬ s.claim <+: q → next.machine.tree.get? q = arena.machine.tree.get? q) ∧
      (∀ i place, s.Own i place → ∀ rest, next.machine.tree.get? (place ++ rest) = none) ∧
      ((∀ i, next.inside i = false) ∧ (∀ rest, next.machine.tree.get? (s.claim ++ rest) = none) ∨
        ∃ i, (∀ j, next.inside j = true ↔ j = i) ∧ s.Marked next.machine.tree i) := by
  obtain ⟨hsound, htenure⟩ := tenure_play hfaulty hcleared hvalid hstart hallows hplay
  have hclear : ∀ i, s.Clear i none next.machine.tree := fun i => hsound.idle i (hidle i)
  refine ⟨fun q hq => ?_, fun i place hown rest => ?_, ?_⟩
  · rw [hsound.good.get?_of_clear hfaulty hclear hq,
      hstart.good.get?_of_clear hfaulty hstart.clear hq]
  · exact congrFun (hclear i hfaulty place hown nofun) rest
  · obtain ⟨owner, howned⟩ := hsound.good.owned
    cases owner with
    | none =>
      refine .inl ⟨fun i => Bool.eq_false_iff.2 fun hi => ?_, congrFun howned⟩
      cases Site.isOwned_unique howned (htenure.owned i hi)
    | some i =>
      refine .inr ⟨i, fun j => ⟨fun hj => ?_, ?_⟩, howned.marked⟩
      · exact Option.some.inj (Site.isOwned_unique (htenure.owned j hj) howned)
      · rintro rfl
        exact htenure.idle j (hidle j) howned

/-- Whether the party is in no call. -/
def isAtRest (arena : Arena ι Lock.TimedCall Lock.TimedAnswer) (i : ι) : Bool :=
  match arena.activity i with
  | .idle => true
  | .busy _ _ _ _ => false

omit [DecidableEq ι] in
theorem idle_of_isAtRest (h : arena.isAtRest i = true) : arena.activity i = .idle := by
  unfold isAtRest at h
  split at h
  · assumption
  · cases h

/-- The first party gets the lock by a wait with a deadline. The other one waits for a guard and does not
get it with its first attempt; the first one releases the lock, and the second attempt gets it. -/
def handover : List (Act Bool Lock.TimedCall) :=
  [.call false (.tryAcquire ⟨1, 0⟩ [.attempt, .call])] ++ List.replicate 8 (.request false) ++
    [.finish false, .call true (.tryHold ⟨2, 0⟩ [])] ++ List.replicate 2 (.request true) ++
    [.call false (.plain .release)] ++ List.replicate 7 (.request false) ++ [.finish false] ++
    List.replicate 9 (.request true) ++ [.finish true]

/-- After the handover the second party is inside, the claim is its claim, and nothing is left of what
the first one staged and released. -/
theorem handover_at_rest : ∃ next,
    (ofGround Site.pair ⟨0, 0⟩).play Site.pair Site.pair.timedService handover = some next ∧
      next.inside true = true ∧ Site.pair.Marked next.machine.tree true ∧
      ∀ place rest, Site.pair.Own false place → next.machine.tree.get? (place ++ rest) = none := by
  have hrun : ((ofGround Site.pair ⟨0, 0⟩).play Site.pair Site.pair.timedService handover).map
      (fun next => (next.inside true, next.isAtRest false, next.isAtRest true)) =
        some (true, true, true) := by decide +kernel
  obtain ⟨next, hplay, hend⟩ := Option.map_eq_some_iff.1 hrun
  simp only [Prod.mk.injEq] at hend
  obtain ⟨hinside, hfalse, htrue⟩ := hend
  have hallows : ∀ act ∈ handover, Site.pair.Allows act :=
    Site.allows_of_plain (by simp [handover]) (by simp [handover])
  obtain ⟨-, hplots, ⟨hnone, -⟩ | ⟨i, hiff, hmarked⟩⟩ := play_at_rest (s := Site.pair)
    not_false not_false (fun i => by cases i <;> rfl) (start_ofGround Site.pair ⟨0, 0⟩) hallows hplay
    (fun i => idle_of_isAtRest (by cases i <;> assumption))
  · rw [hnone true] at hinside
    cases hinside
  · obtain rfl := (hiff true).1 hinside
    exact ⟨next, hplay, hinside, hmarked, fun place rest hown => hplots false place hown rest⟩

end Arena

end DirLock
