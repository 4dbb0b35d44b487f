import DirLock.Proofs.Arena.Exclusion

/-!
# An atomic lock

An atomic lock is free or owned by a party, and a call of it is one step. Where no request fails for
reasons of its own and claims are not removed by hand, every call of a lock is answered as the atomic
lock would answer it at the moment of one of the call's deeds. That deed leaves the lock to whom the
atomic lock would leave it, and no other deed of the call changes the lock.
-/

namespace DirLock

open Disk (Tree Entry Fault)

variable {ι : Type} [DecidableEq ι]

namespace Site

/-- What the atomic lock with this owner says when the party gives it back, and its owner after it. -/
def giveBack (s : Site ι) (i : ι) (owner : Option ι) : Except LockError Unit × Option ι :=
  if owner = some i then (.ok (), none) else (.error (.notHeld s.name.text), owner)

/-- What the atomic lock with this owner answers to a call of the party, and its owner after it. -/
def atomic (s : Site ι) (i : ι) (call : Lock.Call) (owner : Option ι) : Lock.Answer × Option ι :=
  match call, owner with
  | .tryClaim, none => (.claimed (.ok true), some i)
  | .tryClaim, some j => (.claimed (.ok false), some j)
  | .acquire _, none => (.acquired (some (.ok ())), some i)
  | .acquire _, some j => (.acquired none, some j)
  | .hold _, none => (.guarded (some (.ok (Guard.of (s.lock i)))), some i)
  | .hold _, some j => (.guarded none, some j)
  | .isHeld, owner => (.held (decide (owner = some i)), owner)
  | .isLocked, owner => (.locked (.ok owner.isSome), owner)
  | .unlock, owner => (.unlocked (s.giveBack i owner).1, (s.giveBack i owner).2)
  | .release, owner =>
    (.released { Guard.of (s.lock i) with spent := true } (s.giveBack i owner).1,
      (s.giveBack i owner).2)
  | .drop, owner => (.dropped, (s.giveBack i owner).2)

/-- One of the call's deeds does what the atomic lock does, and its answer is the atomic lock's. -/
def IsAtomic (s : Site ι) (i : ι) (call : Lock.Call) (deeds : Deeds) (answer : Lock.Answer) : Prop :=
  ∃ owner, s.Turns deeds owner (s.atomic i call owner).2 ∧ answer = (s.atomic i call owner).1

variable {s : Site ι} {i : ι} {call : Lock.Call} {begun after : Tree} {deeds : Deeds}
  {answer : Lock.Answer}

/-! ## One call -/

omit [DecidableEq ι] in
theorem Attempted.outcome {result : Except LockError Bool} (hfaulty : ¬ s.faulty)
    (h : s.Attempted i deeds after result) :
    (result = .ok true ∧ s.Turns deeds none (some i)) ∨
      (result = .ok false ∧ ∃ j, s.Sees deeds (some j)) := by
  cases h with
  | acquired hturns _ => exact .inl ⟨rfl, hturns⟩
  | lost hsees => exact .inr ⟨rfl, _, hsees⟩
  | failed h _ _ => exact absurd h hfaulty

theorem Sees.giveBack {owner : Option ι} (hne : owner ≠ some i) (h : s.Sees deeds owner) :
    s.Turns deeds owner (s.giveBack i owner).2 := by
  rw [Site.giveBack, if_neg hne]
  exact h.turns

theorem Released.giveBack {result : Except LockError Unit} (hfaulty : ¬ s.faulty)
    (hcleared : ¬ s.cleared) (h : s.Released i begun deeds result) :
    ∃ owner, s.Turns deeds owner (s.giveBack i owner).2 ∧ result = (s.giveBack i owner).1 := by
  cases h with
  | @released j _ hmine hturns _ hresult =>
    obtain rfl := hmine hcleared
    obtain rfl := hresult.resolve_right hfaulty
    refine ⟨some j, ?_, ?_⟩
    · rwa [Site.giveBack, if_pos rfl]
    · rw [Site.giveBack, if_pos rfl]
  | @notHeld owner hne hsees _ _ =>
    refine ⟨owner, hsees.giveBack hne, ?_⟩
    rw [Site.giveBack, if_neg hne]
  | failed hwhy _ _ => exact absurd hwhy (not_or.2 ⟨hfaulty, hcleared⟩)

theorem Dropped.giveBack (hfaulty : ¬ s.faulty) (hcleared : ¬ s.cleared)
    (h : s.Dropped i begun deeds) : ∃ owner, s.Turns deeds owner (s.giveBack i owner).2 := by
  cases h with
  | @released j hmine hturns =>
    obtain rfl := hmine hcleared
    refine ⟨some j, ?_⟩
    rwa [Site.giveBack, if_pos rfl]
  | @notHeld owner hne hsees => exact ⟨owner, hsees.giveBack hne⟩
  | failed hwhy _ => exact absurd hwhy (not_or.2 ⟨hfaulty, hcleared⟩)

theorem Answered.isAtomic (hfaulty : ¬ s.faulty) (hcleared : ¬ s.cleared)
    (h : s.Answered i call begun deeds answer after) : s.IsAtomic i call deeds answer := by
  unfold Answered at h
  unfold IsAtomic
  split at h
  · rcases h.outcome hfaulty with ⟨rfl, hturns⟩ | ⟨rfl, j, hsees⟩
    · exact ⟨none, hturns, rfl⟩
    · exact ⟨some j, hsees.turns, rfl⟩
  · rcases h.outcome hfaulty with ⟨hresult, hturns⟩ | ⟨hresult, j, hsees⟩
    · obtain ⟨_, rfl⟩ := eq_ok_of_lastOutcome hresult
      exact ⟨none, hturns, rfl⟩
    · obtain rfl := eq_none_of_lastOutcome hresult
      exact ⟨some j, hsees.turns, rfl⟩
  · obtain ⟨h, hguard⟩ := h
    rcases h.outcome hfaulty with ⟨hresult, hturns⟩ | ⟨hresult, j, hsees⟩
    · obtain ⟨guard, rfl⟩ := eq_ok_of_lastOutcome hresult
      obtain rfl := hguard guard rfl
      exact ⟨none, hturns, rfl⟩
    · obtain rfl := eq_none_of_lastOutcome hresult
      exact ⟨some j, hsees.turns, rfl⟩
  · cases h with
    | held hsees _ => exact ⟨some i, hsees.turns, by simp [atomic]⟩
    | @notHeld owner hne hsees _ => exact ⟨owner, hsees.turns, by simp [atomic, hne]⟩
    | failed h _ => exact absurd h hfaulty
  · obtain ⟨-, ⟨rfl, j, hsees⟩ | ⟨rfl, hsees⟩ | h⟩ := h
    · exact ⟨some j, hsees.turns, rfl⟩
    · exact ⟨none, hsees.turns, rfl⟩
    · exact absurd h hfaulty
  · obtain ⟨owner, hturns, rfl⟩ := h.giveBack hfaulty hcleared
    exact ⟨owner, hturns, rfl⟩
  · obtain ⟨h, rfl⟩ := h
    obtain ⟨owner, hturns, rfl⟩ := h.giveBack hfaulty hcleared
    exact ⟨owner, hturns, rfl⟩
  · obtain ⟨owner, hturns⟩ := h.giveBack hfaulty hcleared
    exact ⟨owner, hturns, rfl⟩
  · exact h.elim

omit [DecidableEq ι] in
/-- Whether a party can give the lock back is settled when it begins to: if it does not have the lock
then, it is told so and nothing changes at all. -/
theorem Answered.unlocked {result : Except LockError Unit} (hfaulty : ¬ s.faulty)
    (hcleared : ¬ s.cleared) (h : s.Answered i .unlock begun deeds (.unlocked result) after) :
    (s.IsOwned begun (some i) ∧ result = .ok ()) ∨
      (¬ s.IsOwned begun (some i) ∧ result = .error (.notHeld s.name.text) ∧ AllLooks deeds) := by
  cases (h : s.Released i begun deeds result) with
  | released _ _ hbegun hresult => exact .inl ⟨hbegun, hresult.resolve_right hfaulty⟩
  | notHeld _ _ hlooks hbegun => exact .inr ⟨hbegun hcleared, rfl, hlooks⟩
  | failed hwhy _ _ => exact absurd hwhy (not_or.2 ⟨hfaulty, hcleared⟩)

end Site

namespace Arena

open Site (Deeds AllLooks)

variable {s : Site ι} {arena next : Arena ι Lock.Call Lock.Answer} {act : Act ι Lock.Call}
  {i : ι} {owner owner' : Option ι}

/-! ## One step of the arena -/

/-- The owner of the lock changes only when a party in a call makes the one request that does what the
atomic lock does for this call. -/
theorem Sound.owner_step (hfaulty : ¬ s.faulty) (hcleared : ¬ s.cleared)
    (h : arena.Sound s s.service s.Answered) (hallows : s.Allows act)
    (hstep : arena.Step s s.service act next) (howned : s.IsOwned arena.machine.tree owner)
    (howned' : s.IsOwned next.machine.tree owner') :
    owner' = owner ∨ ∃ i call begun deeds rest, act = .request i ∧
      arena.activity i = .busy call begun deeds rest ∧ s.AllQuiet deeds ∧
      owner' = (s.atomic i call owner).2 := by
  cases hstep with
  | call _ => exact .inl (Site.isOwned_unique howned' howned)
  | @answered _ i call begun deeds r rest reply machine hact hbusy hanswers =>
    by_cases hquiet : s.Quiet (arena.machine.tree, machine.tree)
    · exact .inl (Site.isOwned_unique howned' ((Site.isOwned_congr hquiet).2 howned))
    · right
      have hrequest : act = .request i := by
        rcases hact with rfl | ⟨fault, rfl⟩
        · rfl
        · exact absurd hallows hfaulty
      obtain ⟨hdeed, hrest⟩ := h.deed hbusy hanswers
      -- However the call goes on, its end says what this request was.
      obtain ⟨more, answer, last, -, hpost⟩ := hrest.completes hdeed.good
      obtain ⟨mine, hturns, -⟩ := Site.Answered.isAtomic hfaulty hcleared hpost
      rw [List.append_assoc, List.singleton_append] at hturns
      obtain ⟨hdeeds, hmine, hmine'⟩ := hturns.of_not_quiet hquiet
      obtain rfl := Site.isOwned_unique howned hmine
      exact ⟨i, call, begun, deeds, _, hrequest, hbusy, hdeeds, Site.isOwned_unique howned' hmine'⟩
  | finish _ => exact .inl (Site.isOwned_unique howned' howned)
  | clear hclear => exact absurd hclear hcleared
  | pass => exact .inl (Site.isOwned_unique howned' howned)

/-! ## Parties that only try to claim the lock -/

/-- How many of the calls were attempts that claimed the lock. -/
def claims (ended : List (Ended ι Lock.Call Lock.Answer)) : Nat :=
  ended.countP fun e => e.answer = .claimed (.ok true)

/-- All calls since some were over are attempts to claim the lock. -/
structure OnlyClaims (past : List (Ended ι Lock.Call Lock.Answer))
    (arena : Arena ι Lock.Call Lock.Answer) : Prop where
  busy : ∀ i call begun deeds rest, arena.activity i = .busy call begun deeds rest →
    call = .tryClaim
  ended : ∃ more, arena.ended = past ++ more ∧ ∀ e ∈ more, e.call = .tryClaim

/-- Where parties have only tried to claim the lock since it was free and some calls were over: nobody
has claimed it yet and no call has ended since; one party has claimed it and is still in the call that
did; or the call that did has ended. -/
inductive Contest (s : Site ι) (past : List (Ended ι Lock.Call Lock.Answer))
    (arena : Arena ι Lock.Call Lock.Answer) : Prop
  | undecided : s.IsOwned arena.machine.tree none → arena.ended = past →
    (∀ i call begun deeds rest, arena.activity i = .busy call begun deeds rest →
      ∀ deed ∈ deeds, s.Quiet deed ∧ s.IsOwned deed.1 none) → Contest s past arena
  | decided {k : ι} {call : Lock.Call} {begun : Tree} {deeds : Deeds}
      {rest : Routine Lock.Answer} : s.IsOwned arena.machine.tree (some k) →
    claims arena.ended = claims past → arena.activity k = .busy call begun deeds rest →
    ¬ s.AllQuiet deeds →
    (∀ i call begun deeds rest, i ≠ k → arena.activity i = .busy call begun deeds rest →
      s.AllQuiet deeds) → Contest s past arena
  | told {k : ι} : s.IsOwned arena.machine.tree (some k) →
    claims arena.ended = claims past + 1 →
    (∀ i call begun deeds rest, arena.activity i = .busy call begun deeds rest →
      s.AllQuiet deeds) → Contest s past arena

variable {past : List (Ended ι Lock.Call Lock.Answer)}

omit [DecidableEq ι] in
theorem turns_not_allQuiet {deeds : Deeds} (h : s.Turns deeds none (some i)) :
    ¬ s.AllQuiet deeds := by
  intro hquiet
  obtain ⟨front, deed, back, rfl, -, -, hfree, howned⟩ := h
  have hdeed : s.Quiet deed := hquiet deed (by simp)
  cases Site.isOwned_unique hfree ((Site.isOwned_congr hdeed).1 howned)

theorem OnlyClaims.step (h : OnlyClaims past arena) (hact : ∀ i call, act = .call i call → call = .tryClaim)
    (hstep : arena.Step s s.service act next) : OnlyClaims past next := by
  cases hstep with
  | @call i call hidle =>
    refine ⟨fun j call' begun deeds rest hbusy => ?_, h.ended⟩
    rcases Activity.busy_of_update hbusy with ⟨-, hnew⟩ | ⟨-, hold⟩
    · cases hnew
      exact hact i call rfl
    · exact h.busy j _ _ _ _ hold
  | @answered _ i call begun deeds r rest reply machine _ hbusy _ =>
    refine ⟨fun j call' begun' deeds' rest' hbusy' => ?_, h.ended⟩
    rcases Activity.busy_of_update hbusy' with ⟨-, hnew⟩ | ⟨-, hold⟩
    · cases hnew
      exact h.busy i _ _ _ _ hbusy
    · exact h.busy j _ _ _ _ hold
  | @finish i call begun deeds answer hbusy =>
    obtain ⟨more, hended, hmore⟩ := h.ended
    refine ⟨fun j call' begun' deeds' rest' hbusy' => ?_, more ++ [⟨i, call, begun, deeds, answer⟩],
      ?_, fun e he => ?_⟩
    · rcases Activity.busy_of_update hbusy' with ⟨-, hnew⟩ | ⟨-, hold⟩
      · cases hnew
      · exact h.busy j _ _ _ _ hold
    · rw [← List.append_assoc, ← hended]
    · rcases List.mem_append.1 he with he | he
      · exact hmore e he
      · rw [List.mem_singleton.1 he]
        exact h.busy i _ _ _ _ hbusy
  | clear _ => exact ⟨h.busy, h.ended⟩
  | pass => exact ⟨h.busy, h.ended⟩

omit [DecidableEq ι] in
theorem OnlyClaims.start (hidle : ∀ i, arena.activity i = .idle) :
    OnlyClaims arena.ended arena where
  busy := fun i _ _ _ _ hbusy => by
    rw [hidle i] at hbusy
    cases hbusy
  ended := ⟨[], (List.append_nil _).symm, fun _ he => absurd he List.not_mem_nil⟩

omit [DecidableEq ι] in
theorem Contest.start (hfree : s.IsOwned arena.machine.tree none)
    (hidle : ∀ i, arena.activity i = .idle) : Contest s arena.ended arena := by
  refine .undecided hfree rfl fun i call begun deeds rest hbusy => ?_
  rw [hidle i] at hbusy
  cases hbusy

theorem Contest.quiet (h : Contest s past arena) {call : Lock.Call} {begun : Tree} {deeds : Deeds}
    {rest rest' : Routine Lock.Answer} {machine : Machine}
    (hbusy : arena.activity i = .busy call begun deeds rest)
    (hquiet : s.Quiet (arena.machine.tree, machine.tree)) :
    Contest s past (arena.answered i call begun deeds machine rest') := by
  have hmore : s.AllQuiet deeds → s.AllQuiet (deeds ++ [(arena.machine.tree, machine.tree)]) :=
    fun hdeeds => hdeeds.append (Site.allQuiet_nil.cons hquiet)
  cases h with
  | undecided hfree hended hnone =>
    refine .undecided ((Site.isOwned_congr hquiet).2 hfree) hended ?_
    intro j call' begun' deeds' rest'' hbusy' deed hmem
    rcases Activity.busy_of_update hbusy' with ⟨-, hnew⟩ | ⟨-, hold⟩
    · cases hnew
      rcases List.mem_append.1 hmem with hmem | hmem
      · exact hnone i _ _ _ _ hbusy deed hmem
      · rw [List.mem_singleton.1 hmem]
        exact ⟨hquiet, hfree⟩
    · exact hnone j _ _ _ _ hold deed hmem
  | @decided k _ _ kept _ howned hclaims hk hnot hothers =>
    have howned' := (Site.isOwned_congr hquiet).2 howned
    by_cases hki : k = i
    · subst hki
      rw [hbusy] at hk
      cases hk
      refine .decided howned' hclaims (Function.update_self ..) ?_ ?_
      · exact fun hall => hnot fun deed hmem => hall deed (List.mem_append_left _ hmem)
      · intro j call' begun' deeds' rest'' hji hbusy'
        rcases Activity.busy_of_update hbusy' with ⟨rfl, -⟩ | ⟨-, hold⟩
        · exact absurd rfl hji
        · exact hothers j _ _ _ _ hji hold
    · refine .decided howned' hclaims ((Function.update_of_ne hki ..).trans hk) hnot ?_
      intro j call' begun' deeds' rest'' hji hbusy'
      rcases Activity.busy_of_update hbusy' with ⟨rfl, hnew⟩ | ⟨-, hold⟩
      · cases hnew
        exact hmore (hothers j _ _ _ _ hji hbusy)
      · exact hothers j _ _ _ _ hji hold
  | told howned hclaims hall =>
    refine .told ((Site.isOwned_congr hquiet).2 howned) hclaims ?_
    intro j call' begun' deeds' rest'' hbusy'
    rcases Activity.busy_of_update hbusy' with ⟨-, hnew⟩ | ⟨-, hold⟩
    · cases hnew
      exact hmore (hall i _ _ _ _ hbusy)
    · exact hall j _ _ _ _ hold

theorem Contest.claimed (h : Contest s past arena) {call : Lock.Call} {begun : Tree} {deeds : Deeds}
    {rest' : Routine Lock.Answer} {machine : Machine} (hfree : s.IsOwned arena.machine.tree none)
    (howned : s.IsOwned machine.tree (some i)) :
    Contest s past (arena.answered i call begun deeds machine rest') := by
  cases h with
  | undecided _ hended hnone =>
    refine .decided (k := i) howned (congrArg claims hended) (Function.update_self ..) ?_ ?_
    · intro hquiet
      have hlast := hquiet _ (List.mem_append_right _ List.mem_cons_self)
      cases Site.isOwned_unique hfree ((Site.isOwned_congr hlast).1 howned)
    · intro j call' begun' deeds' rest'' hji hbusy'
      rcases Activity.busy_of_update hbusy' with ⟨rfl, -⟩ | ⟨-, hold⟩
      · exact absurd rfl hji
      · exact fun deed hmem => (hnone j _ _ _ _ hold deed hmem).1
  | decided howned' _ _ _ _ => cases Site.isOwned_unique hfree howned'
  | told howned' _ _ => cases Site.isOwned_unique hfree howned'

theorem Contest.finished (hfaulty : ¬ s.faulty) (h : Contest s past arena) {begun last : Tree}
    {deeds : Deeds} {answer : Lock.Answer}
    (hbusy : arena.activity i = .busy .tryClaim begun deeds (.done answer))
    (hpost : s.Answered i .tryClaim begun deeds answer last) :
    Contest s past { arena with
      activity := Function.update arena.activity i .idle
      inside := Function.update arena.inside i (arena.inside i || s.service.wins answer)
      ended := arena.ended ++ [⟨i, .tryClaim, begun, deeds, answer⟩] } := by
  have houtcome : (answer = .claimed (.ok true) ∧ s.Turns deeds none (some i)) ∨
      (answer = .claimed (.ok false) ∧ ∃ j, s.Sees deeds (some j)) := by
    cases answer with
    | claimed result =>
      rcases Site.Attempted.outcome hfaulty hpost with ⟨rfl, hturns⟩ | ⟨rfl, hsees⟩
      · exact .inl ⟨rfl, hturns⟩
      · exact .inr ⟨rfl, hsees⟩
    | _ => exact hpost.elim
  have hcount : ∀ {n} {e : Ended ι Lock.Call Lock.Answer}, claims arena.ended = n →
      claims (arena.ended ++ [e]) = n + claims [e] := by
    rintro n e rfl
    exact List.countP_append
  have hothers : ∀ {j call' begun' deeds' rest'},
      Function.update arena.activity i .idle j = .busy call' begun' deeds' rest' →
      j ≠ i ∧ arena.activity j = .busy call' begun' deeds' rest' := by
    intro j call' begun' deeds' rest' hbusy'
    rcases Activity.busy_of_update hbusy' with ⟨-, hnew⟩ | hold
    · cases hnew
    · exact hold
  cases h with
  | undecided _ _ hnone =>
    -- Every deed found the lock free and left it so, which no outcome allows.
    exfalso
    have hdeeds := hnone i _ _ _ _ hbusy
    rcases houtcome with ⟨-, hturns⟩ | ⟨-, j, -, deed, hmem, howned⟩
    · exact turns_not_allQuiet hturns fun deed hmem => (hdeeds deed hmem).1
    · cases Site.isOwned_unique (hdeeds deed hmem).2 howned
  | @decided k _ _ _ _ howned hwins hk hnot hall =>
    by_cases hki : k = i
    · subst hki
      rw [hbusy] at hk
      cases hk
      rcases houtcome with ⟨rfl, -⟩ | ⟨-, j, hquiet, -⟩
      · refine .told howned (hcount hwins) fun j _ _ _ _ hbusy' => ?_
        exact hall j _ _ _ _ (hothers hbusy').1 (hothers hbusy').2
      · exact absurd hquiet hnot
    · rcases houtcome with ⟨-, hturns⟩ | ⟨rfl, -⟩
      · exact absurd (hall i _ _ _ _ (Ne.symm hki) hbusy) (turns_not_allQuiet hturns)
      · refine .decided howned (hcount hwins) ((Function.update_of_ne hki ..).trans hk) hnot ?_
        exact fun j _ _ _ _ hjk hbusy' => hall j _ _ _ _ hjk (hothers hbusy').2
  | told howned hwins hall =>
    rcases houtcome with ⟨-, hturns⟩ | ⟨rfl, -⟩
    · exact absurd (hall i _ _ _ _ hbusy) (turns_not_allQuiet hturns)
    · exact .told howned (hcount hwins) fun j _ _ _ _ hbusy' => hall j _ _ _ _ (hothers hbusy').2

theorem Contest.step (hfaulty : ¬ s.faulty) (hcleared : ¬ s.cleared) (h : Contest s past arena)
    (honly : OnlyClaims past arena) (hsound : arena.Sound s s.service s.Answered)
    (hact : ∀ i call, act = .call i call → call = .tryClaim)
    (hstep : arena.Step s s.service act next) : Contest s past next := by
  cases hstep with
  | @call i call hidle =>
    obtain rfl := hact i call rfl
    cases h with
    | undecided hfree hended hnone =>
      refine .undecided hfree hended fun j _ _ _ _ hbusy deed hmem => ?_
      rcases Activity.busy_of_update hbusy with ⟨-, hnew⟩ | ⟨-, hold⟩
      · cases hnew
        cases hmem
      · exact hnone j _ _ _ _ hold deed hmem
    | @decided k _ _ _ _ howned hwins hk hnot hall =>
      have hki : k ≠ i := by
        rintro rfl
        rw [hidle] at hk
        cases hk
      refine .decided howned hwins ((Function.update_of_ne hki ..).trans hk) hnot ?_
      intro j _ _ _ _ hjk hbusy
      rcases Activity.busy_of_update hbusy with ⟨-, hnew⟩ | ⟨-, hold⟩
      · cases hnew
        exact Site.allQuiet_nil
      · exact hall j _ _ _ _ hjk hold
    | told howned hwins hall =>
      refine .told howned hwins fun j _ _ _ _ hbusy => ?_
      rcases Activity.busy_of_update hbusy with ⟨-, hnew⟩ | ⟨-, hold⟩
      · cases hnew
        exact Site.allQuiet_nil
      · exact hall j _ _ _ _ hold
  | @answered _ i call begun deeds r rest reply machine _ hbusy hanswers =>
    obtain rfl := honly.busy i _ _ _ _ hbusy
    rcases (hsound.deed hbusy hanswers).1.claim with hquiet | ⟨hfree, howned⟩ | ⟨hreleasing, -⟩
    · exact h.quiet hbusy hquiet
    · exact h.claimed hfree howned
    · cases hreleasing
  | @finish i call begun deeds answer hbusy =>
    obtain rfl := honly.busy i _ _ _ _ hbusy
    obtain ⟨last, -, -, hpost⟩ := hsound.busy i _ _ _ _ hbusy
    exact h.finished hfaulty hbusy hpost
  | clear hclear => exact absurd hclear hcleared
  | pass =>
    cases h with
    | undecided hfree hended hnone => exact .undecided hfree hended hnone
    | decided howned hwins hk hnot hall => exact .decided howned hwins hk hnot hall
    | told howned hwins hall => exact .told howned hwins hall

omit [DecidableEq ι] in
theorem Contest.claims_eq {more : List (Ended ι Lock.Call Lock.Answer)} (h : Contest s past arena)
    (hidle : ∀ i, arena.activity i = .idle) (hended : arena.ended = past ++ more) (hne : more ≠ []) :
    claims more = 1 := by
  have hcount : claims arena.ended = claims past + claims more := by
    rw [hended]
    exact List.countP_append
  cases h with
  | undecided _ hnone _ =>
    rw [hended] at hnone
    exact absurd (List.append_right_eq_self.1 hnone) hne
  | decided _ _ hk _ _ =>
    rw [hidle] at hk
    cases hk
  | told _ hclaims _ => omega

/-- From a moment at which the lock is free and nobody is in a call, parties that only try to claim the
lock end with one of them having claimed it. -/
theorem Contest.of_play {middle : Arena ι Lock.Call Lock.Answer} (hfaulty : ¬ s.faulty)
    (hcleared : ¬ s.cleared) (hsound : middle.Sound s s.service s.Answered)
    (hfree : s.IsOwned middle.machine.tree none) (hidle : ∀ i, middle.activity i = .idle)
    {group : List (Act ι Lock.Call)} (hallows : ∀ act ∈ group, s.Allows act)
    (hcalls : ∀ i call, .call i call ∈ group → call = .tryClaim)
    (hplay : middle.play s s.service group = some next) (hidle' : ∀ i, next.activity i = .idle) :
    ∃ more, next.ended = middle.ended ++ more ∧ (∀ e ∈ more, e.call = .tryClaim) ∧
      (more ≠ [] → claims more = 1) := by
  have hkept : next.Sound s s.service s.Answered ∧ OnlyClaims middle.ended next ∧
      Contest s middle.ended next := by
    refine play_induction (P := fun arena => arena.Sound s s.service s.Answered ∧
      OnlyClaims middle.ended arena ∧ Contest s middle.ended arena) hallows ?_
      ⟨hsound, .start hidle, .start hfree hidle⟩ hplay
    rintro arena next act hmem ⟨hsound, honly, hcontest⟩ hstep
    have hact : ∀ i call, act = .call i call → call = .tryClaim := by
      rintro i call rfl
      exact hcalls i call hmem
    exact ⟨hsound.step Site.service_ensures hstep, honly.step hact hstep,
      hcontest.step hfaulty hcleared honly hsound hact hstep⟩
  obtain ⟨-, honly, hcontest⟩ := hkept
  obtain ⟨more, hended, hmore⟩ := honly.ended
  exact ⟨more, hended, hmore, hcontest.claims_eq hidle' hended⟩

/-- A lock is an atomic lock. Every call that has ended did what the atomic lock does with one of its
requests, and nothing to the lock with its other requests, and was answered as the atomic lock answers;
and the owner of the lock changes by such requests only. A party that gives the lock back is told that
it did so if and only if it had the lock when it began; if it had not, nothing changed at all. When the
lock is free and nobody is in a call, and from then on parties only try to claim the lock, exactly one
of their attempts gets it once all have their answer. -/
theorem play_atomic (hfaulty : ¬ s.faulty) (hcleared : ¬ s.cleared) (hstart : arena.Start s)
    {acts : List (Act ι Lock.Call)} (hallows : ∀ act ∈ acts, s.Allows act)
    (hplay : arena.play s s.service acts = some next) :
    (∀ e ∈ next.ended, s.IsAtomic e.party e.call e.deeds e.answer) ∧
      (∀ before act after middle last owner owner', acts = before ++ act :: after →
        arena.play s s.service before = some middle → middle.act? s s.service act = some last →
        s.IsOwned middle.machine.tree owner → s.IsOwned last.machine.tree owner' →
        owner' = owner ∨ ∃ i call begun deeds rest, act = .request i ∧
          middle.activity i = .busy call begun deeds rest ∧ s.AllQuiet deeds ∧
          owner' = (s.atomic i call owner).2) ∧
      (∀ e ∈ next.ended, e.call = .unlock →
        (s.IsOwned e.begun (some e.party) ∧ e.answer = .unlocked (.ok ())) ∨
          (¬ s.IsOwned e.begun (some e.party) ∧
            e.answer = .unlocked (.error (.notHeld s.name.text)) ∧ AllLooks e.deeds)) ∧
      (∀ before group middle, acts = before ++ group → arena.play s s.service before = some middle →
        s.IsOwned middle.machine.tree none → (∀ i, middle.activity i = .idle) →
        (∀ i call, .call i call ∈ group → call = .tryClaim) → (∀ i, next.activity i = .idle) →
        ∃ more, next.ended = middle.ended ++ more ∧ (more ≠ [] → claims more = 1 ∧
          ∀ e ∈ more, e.answer = .claimed (.ok true) ∨ e.answer = .claimed (.ok false))) := by
  have hsound : next.Sound s s.service s.Answered :=
    (Sound.start hstart).play Site.service_ensures hallows hplay
  have hatomic : ∀ e ∈ next.ended, s.IsAtomic e.party e.call e.deeds e.answer := by
    intro e he
    obtain ⟨after, hpost⟩ := hsound.ended e he
    exact hpost.isAtomic hfaulty hcleared
  refine ⟨hatomic, ?_, ?_, ?_⟩
  · rintro before act after middle last owner owner' rfl hbefore hact howned howned'
    have hmiddle : middle.Sound s s.service s.Answered :=
      (Sound.start hstart).play Site.service_ensures
        (fun act hmem => hallows act (List.mem_append_left _ hmem)) hbefore
    have hallowed := hallows act (List.mem_append_right _ List.mem_cons_self)
    exact hmiddle.owner_step hfaulty hcleared hallowed (step_of_act hallowed hact) howned howned'
  · intro e he hcall
    obtain ⟨after, hpost⟩ := hsound.ended e he
    rw [hcall] at hpost
    cases hanswer : e.answer with
    | unlocked result =>
      rw [hanswer] at hpost
      rcases hpost.unlocked hfaulty hcleared with ⟨hbegun, rfl⟩ | ⟨hbegun, rfl, hlooks⟩
      · exact .inl ⟨hbegun, rfl⟩
      · exact .inr ⟨hbegun, rfl, hlooks⟩
    | _ =>
      rw [hanswer] at hpost
      exact hpost.elim
  · rintro before group middle rfl hbefore hfree hidle hcalls hidle'
    have hlater : ∀ act ∈ group, s.Allows act :=
      fun act hmem => hallows act (List.mem_append_right _ hmem)
    have hmiddle : middle.Sound s s.service s.Answered :=
      (Sound.start hstart).play Site.service_ensures
        (fun act hmem => hallows act (List.mem_append_left _ hmem)) hbefore
    have hgroup : middle.play s s.service group = some next := by
      rw [play_append, hbefore] at hplay
      exact hplay
    obtain ⟨more, hended, hmore, hclaims⟩ :=
      Contest.of_play hfaulty hcleared hmiddle hfree hidle hlater hcalls hgroup hidle'
    refine ⟨more, hended, fun hne => ⟨hclaims hne, fun e he => ?_⟩⟩
    have hmem : e ∈ next.ended := by
      rw [hended]
      exact List.mem_append_right _ he
    obtain ⟨owner, -, hanswer⟩ := hatomic e hmem
    rw [hmore e he] at hanswer
    cases owner with
    | none => exact .inl hanswer
    | some j => exact .inr hanswer

/-- After the race the second party loses what it has begun to stage, and then the first one gives the
lock back. -/
def rematch : List (Act Bool Lock.Call) :=
  race ++ List.replicate 11 (.request true) ++ [.finish true, .call false .unlock] ++
    List.replicate 7 (.request false) ++ [.finish false]

/-- Both attempts and the release are steps of the atomic lock. -/
theorem rematch_atomic : ∃ next,
    (ofGround Site.pair ⟨0, 0⟩).play Site.pair Site.pair.service rematch = some next ∧
      next.ended.map (fun e => (e.party, e.answer)) =
        [(false, .claimed (.ok true)), (true, .claimed (.ok false)), (false, .unlocked (.ok ()))] ∧
      ∀ e ∈ next.ended, Site.pair.IsAtomic e.party e.call e.deeds e.answer := by
  have hrun : ((ofGround Site.pair ⟨0, 0⟩).play Site.pair Site.pair.service rematch).map
      (fun next => next.ended.map fun e => (e.party, e.answer)) =
        some [(false, .claimed (.ok true)), (true, .claimed (.ok false)),
          (false, .unlocked (.ok ()))] := by decide +kernel
  obtain ⟨next, hplay, hended⟩ := Option.map_eq_some_iff.1 hrun
  have hallows : ∀ act ∈ rematch, Site.pair.Allows act :=
    Site.allows_of_plain (by simp [rematch, race]) (by simp [rematch, race])
  obtain ⟨hatomic, -⟩ := play_atomic (s := Site.pair) not_false not_false
    (start_ofGround Site.pair ⟨0, 0⟩) hallows hplay
  exact ⟨next, hplay, hended, hatomic⟩

end Arena

end DirLock
