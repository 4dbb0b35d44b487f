import DirLock.Proofs.Arena.Call

/-!
# Mutual exclusion

Where claims are not removed by hand, at most one party is inside at any time, and a claim is never
seen half made or half deleted: whatever stands at the claim's place is the complete claim of one
party, and of the party that is inside if there is one.

The invariant is that a party that is inside owns the lock and is in no call that gives it back. The
deeds of the others keep the claim of an owner, and its own deeds keep it until it releases.
-/

namespace DirLock

open Disk (Tree Entry)
open Disk.Tree (filesView noView)

variable {ι : Type} {s : Site ι} {tree after : Tree} {i j : ι} {releasing : Prop}

namespace Site

/-- A claim of the party stands at the claim's place: a directory with the party's nonce in its held
marker and the party's description, and with nothing else. -/
structure Marked (s : Site ι) (tree : Tree) (i : ι) : Prop where
  directory : tree.get? s.claim = some .directory
  held : tree.get? (s.claim ++ [heldBytes]) = some (.file (s.lock i).nonce.bytes)
  holder : ∃ now, tree.get? (s.claim ++ [holderBytes]) =
    some (.file (Text.utf8Encode (Holder.ofClaimant (s.claimant i) now).render))
  nothing_else : ∀ rest, rest ≠ [] → rest ≠ [heldBytes] → rest ≠ [holderBytes] →
    tree.get? (s.claim ++ rest) = none

theorem IsOwned.marked (h : s.IsOwned tree (some i)) : s.Marked tree i := by
  obtain ⟨now, hview⟩ := h
  have hget : ∀ rest, tree.get? (s.claim ++ rest) = filesView (s.claimFiles i now) rest :=
    fun rest => congrFun hview rest
  have hne : (holderBytes == heldBytes) = false := by decide
  refine ⟨?_, ?_, ⟨now, ?_⟩, fun rest hnil hheld hholder => ?_⟩
  · have hdir := hget []
    rwa [List.append_nil] at hdir
  · rw [hget, filesView, claimFiles, List.lookup_cons_self, Option.map_some]
  · rw [hget, filesView, claimFiles, List.lookup_cons, hne, List.lookup_cons_self,
      Option.map_some]
  · rw [hget]
    rcases rest with _ | ⟨name, _ | ⟨next, rest⟩⟩
    · exact absurd rfl hnil
    · have hheld : (name == heldBytes) = false := by simpa using hheld
      have hholder : (name == holderBytes) = false := by simpa using hholder
      rw [filesView, claimFiles, List.lookup_cons, hheld, List.lookup_cons, hholder]
      rfl
    · rfl

theorem Deed.keeps (h : s.Deed i releasing tree after) (hnot : ¬ releasing)
    (howned : s.IsOwned tree (some j)) : s.IsOwned after (some j) := by
  rcases h.claim with heq | ⟨hfree, -⟩ | ⟨hreleasing, -⟩
  · exact (isOwned_congr heq).2 howned
  · cases isOwned_unique hfree howned
  · exact absurd hreleasing hnot

theorem Others.keeps (h : s.Others i tree after) (hcleared : ¬ s.cleared)
    (howned : s.IsOwned tree (some i)) : s.IsOwned after (some i) :=
  (isOwned_congr (h.kept hcleared howned)).2 howned

theorem Answered.isOwned {call : Lock.Call} {begun : Tree} {deeds : Deeds} {answer : Lock.Answer}
    (h : s.Answered i call begun deeds answer after) (hcleared : ¬ s.cleared)
    (hwins : answer.wins = true) : s.IsOwned after (some i) := by
  have hattempted : ∀ {result}, s.Attempted i deeds after result → result = .ok true →
      s.IsOwned after (some i) := by
    rintro result (⟨-, howned⟩ | _ | ⟨-, -, hne⟩) hresult
    · exact howned hcleared
    · cases hresult
    · exact absurd hresult hne
  unfold Answered at h
  split at h
  · rename_i result
    rcases result with error | (_ | _)
    · cases hwins
    · cases hwins
    · exact hattempted h rfl
  · rename_i result
    rcases result with _ | (error | _)
    · cases hwins
    · cases hwins
    · exact hattempted h rfl
  · rename_i result
    rcases result with _ | (error | guard)
    · cases hwins
    · cases hwins
    · exact hattempted h.1 rfl
  all_goals first | exact h.elim | cases hwins

end Site

namespace Arena

open Site (Deeds)

variable [DecidableEq ι] {arena next : Arena ι Lock.Call Lock.Answer} {act : Act ι Lock.Call}

/-- Every party that is inside owns the lock and is in no call that gives it back. -/
structure Exclusive (s : Site ι) (arena : Arena ι Lock.Call Lock.Answer) : Prop where
  owned : ∀ i, arena.inside i = true → s.IsOwned arena.machine.tree (some i)
  keeping : ∀ i call begun deeds rest, arena.activity i = .busy call begun deeds rest →
    arena.inside i = true → call.releasing = false

omit [DecidableEq ι] in
theorem Exclusive.start (h : arena.Start s) : arena.Exclusive s where
  owned := fun i hi => by
    rw [h.outside i] at hi
    cases hi
  keeping := fun i _ _ _ _ _ hi => by
    rw [h.outside i] at hi
    cases hi

theorem Exclusive.step (hcleared : ¬ s.cleared) (h : arena.Exclusive s)
    (hsound : arena.Sound s s.service s.Answered) (hstep : arena.Step s s.service act next) :
    next.Exclusive s := by
  cases hstep with
  | @call i call hidle =>
    refine ⟨fun j hj => ?_, fun j call' begun deeds rest hbusy hj => ?_⟩
    · dsimp only at hj
      by_cases hji : j = i
      · subst hji
        rw [Function.update_self, Bool.and_eq_true] at hj
        exact h.owned j hj.1
      · rw [Function.update_of_ne hji] at hj
        exact h.owned j hj
    · rcases Activity.busy_of_update hbusy with ⟨rfl, hnew⟩ | ⟨hji, hold⟩
      · dsimp only at hj
        cases hnew
        rw [Function.update_self, Bool.and_eq_true, Bool.not_eq_true'] at hj
        exact hj.2
      · dsimp only at hj
        rw [Function.update_of_ne hji] at hj
        exact h.keeping j call' begun deeds rest hold hj
  | @answered _ i call begun deeds r rest reply machine _ hbusy hanswers =>
    obtain ⟨hdeed, -⟩ := hsound.deed hbusy hanswers
    refine ⟨fun j hj => ?_, fun j call' begun' deeds' rest' hbusy' hj => ?_⟩
    · have howned := h.owned j hj
      by_cases hji : j = i
      · subst hji
        have hkeeping : s.service.releasing call = false := h.keeping j _ _ _ _ hbusy hj
        exact hdeed.keeps (by rw [hkeeping]; exact Bool.false_ne_true) howned
      · exact (hdeed.others (Ne.symm hji)).keeps hcleared howned
    · rcases Activity.busy_of_update hbusy' with ⟨rfl, hnew⟩ | ⟨-, hold⟩
      · cases hnew
        exact h.keeping j _ _ _ _ hbusy hj
      · exact h.keeping j _ _ _ _ hold hj
  | @finish i call begun deeds answer hbusy =>
    refine ⟨fun j hj => ?_, fun j call' begun' deeds' rest' hbusy' hj => ?_⟩
    · dsimp only at hj
      by_cases hji : j = i
      · subst hji
        rw [Function.update_self, Bool.or_eq_true] at hj
        rcases hj with hj | hwins
        · exact h.owned j hj
        · obtain ⟨last, hlast, -, hpost⟩ := hsound.busy j call begun deeds _ hbusy
          exact hlast.keeps hcleared (hpost.isOwned hcleared hwins)
      · rw [Function.update_of_ne hji] at hj
        exact h.owned j hj
    · rcases Activity.busy_of_update hbusy' with ⟨-, hnew⟩ | ⟨hji, hold⟩
      · cases hnew
      · dsimp only at hj
        rw [Function.update_of_ne hji] at hj
        exact h.keeping j _ _ _ _ hold hj
  | clear hclear => exact absurd hclear hcleared
  | pass => exact ⟨h.owned, h.keeping⟩

/-- What stands at the claim's place is the complete claim of one party, at every time of every play,
whether or not requests fail and claims are removed by hand. -/
theorem play_marked (hstart : arena.Start s) {acts : List (Act ι Lock.Call)}
    (hallows : ∀ act ∈ acts, s.Allows act) (hplay : arena.play s s.service acts = some next)
    {entry : Entry} (hentry : next.machine.tree.get? s.claim = some entry) :
    ∃ i, s.Marked next.machine.tree i := by
  have hsound : next.Sound s s.service s.Answered :=
    (Sound.start hstart).play Site.service_ensures hallows hplay
  obtain ⟨owner, howned⟩ := hsound.good.owned
  cases owner with
  | none =>
    have hnone := congrFun howned []
    rw [Tree.below, List.append_nil, hentry] at hnone
    cases hnone
  | some i => exact ⟨i, howned.marked⟩

/-- Where claims are not removed by hand, at every time of every play: what stands at the claim's place
is the complete claim of one party, a party that is inside is the one whose claim it is, and no two
parties are inside. -/
theorem play_exclusive (hcleared : ¬ s.cleared) (hstart : arena.Start s)
    {acts : List (Act ι Lock.Call)} (hallows : ∀ act ∈ acts, s.Allows act)
    (hplay : arena.play s s.service acts = some next) :
    (∀ entry, next.machine.tree.get? s.claim = some entry → ∃ i, s.Marked next.machine.tree i) ∧
      (∀ i, next.inside i = true → s.Marked next.machine.tree i) ∧
      ∀ i j, next.inside i = true → next.inside j = true → i = j := by
  have hkept : next.Sound s s.service s.Answered ∧ next.Exclusive s := by
    refine play_induction (P := fun arena => arena.Sound s s.service s.Answered ∧ arena.Exclusive s)
      hallows (fun _ h hstep => ?_) ⟨.start hstart, .start hstart⟩ hplay
    exact ⟨h.1.step Site.service_ensures hstep, h.2.step hcleared h.1 hstep⟩
  obtain ⟨hsound, hexclusive⟩ := hkept
  refine ⟨fun entry hentry => play_marked hstart hallows hplay hentry, fun i hi => ?_,
    fun i j hi hj => ?_⟩
  · exact (hexclusive.owned i hi).marked
  · exact Option.some.inj (Site.isOwned_unique (hexclusive.owned i hi) (hexclusive.owned j hj))

/-- Both parties see that the lock is free, and then the first one claims it. -/
def race : List (Act Bool Lock.Call) :=
  [.call false .tryClaim, .call true .tryClaim, .request false, .request true] ++
    List.replicate 7 (.request false) ++ [.finish false]

/-- After the race the first party is inside, the claim is its claim, and the other is not inside. -/
theorem race_exclusive : ∃ next,
    (ofGround Site.pair ⟨0, 0⟩).play Site.pair Site.pair.service race = some next ∧
      next.inside false = true ∧ Site.pair.Marked next.machine.tree false ∧
      next.inside true = false := by
  have hrun : ((ofGround Site.pair ⟨0, 0⟩).play Site.pair Site.pair.service race).map
      (fun next => next.inside false) = some true := by decide +kernel
  obtain ⟨next, hplay, hinside⟩ := Option.map_eq_some_iff.1 hrun
  have hallows : ∀ act ∈ race, Site.pair.Allows act :=
    Site.allows_of_plain (by simp [race]) (by simp [race])
  obtain ⟨-, hmarked, hunique⟩ := play_exclusive (s := Site.pair) not_false
    (start_ofGround Site.pair ⟨0, 0⟩) hallows hplay
  refine ⟨next, hplay, hinside, hmarked false hinside, ?_⟩
  by_contra htrue
  exact absurd (hunique false true hinside (by simpa using htrue)) Bool.false_ne_true

/-- The first party has seen its own held marker when its claim is removed by hand and the other party
claims the lock; then the first one goes on with its release. -/
def staleRelease : List (Act Bool Lock.Call) :=
  [.call false .tryClaim] ++ List.replicate 8 (.request false) ++
    [.finish false, .call false .unlock, .request false, .clear, .call true .tryClaim] ++
    List.replicate 8 (.request true) ++ [.finish true, .request false]

-- Where claims are removed by hand there is no such law: a party can be inside without a claim.
example :
    let site := { Site.pair with cleared := True }
    ((ofGround site ⟨0, 0⟩).play site site.service staleRelease).map
      (fun next => (next.inside true, next.machine.tree.get? site.claim)) = some (true, none) := by
  decide +kernel

end Arena

end DirLock
