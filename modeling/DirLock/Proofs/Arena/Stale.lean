import DirLock.Proofs.Arena.Crash
import DirLock.Proofs.Lock.Spare
import Mathlib.Data.List.Basic

/-!
# Releases that come too late

A release looks at the held marker and then moves aside what stands at the claim's place. Where claims are removed by
hand, its claim can be removed between these two requests, and another party can claim the lock: then the release moves
the other party's claim aside and deletes it.

This is the only way in which a release takes what is not its own. As long as it has not happened, every party in a
release has last been answered at a tree with which its routine minds the others (`Watched`), and a party that is about
to move its claim aside has the lock still, or was interrupted. An interruption without another party's claim does no
harm, for then there is nothing to be moved.
-/

namespace DirLock

open Disk (Tree Place)

variable {ι : Type} {s : Site ι} {i j : ι}

def Act.party? {Call : Type} : Act ι Call → Option ι
  | .call i _ => some i
  | .request i => some i
  | .refuse i _ => some i
  | .finish i => some i
  | .clear => none
  | .pass _ => none

theorem Site.timedService_minds {call : Lock.TimedCall} (hreleasing : call.releasing = true) {tree : Tree}
    (hclear : s.Clear i none tree) : s.Minds i (s.timedService.routine i call) tree := by
  rcases call with call | _ | _
  · cases call with
    | unlock =>
      refine ((minds_unlock hclear).bind fun _ _ => ?_).bind fun _ _ => ?_
      · trivial
      · trivial
    | release =>
      refine ((minds_release hclear).bind fun _ _ => ?_).bind fun _ _ => ?_
      · trivial
      · trivial
    | drop =>
      refine ((minds_drop hclear).bind fun _ _ => ?_).bind fun _ _ => ?_
      · trivial
      · trivial
    | _ => cases hreleasing
  · cases hreleasing
  · cases hreleasing

namespace Arena

section

variable [DecidableEq ι] (s : Site ι) (arena : Arena ι Lock.TimedCall Lock.TimedAnswer)
  (acts : List (Act ι Lock.TimedCall))

omit [DecidableEq ι] in
/-- Whether the party is in a call that gives the lock back. -/
def releases (i : ι) : Bool :=
  match arena.activity i with
  | .idle => false
  | .busy call _ _ _ => call.releasing

omit [DecidableEq ι] in
/-- The party is in a call that gives the lock back, and its next request moves the claim aside. -/
def AboutToMove (i : ι) : Prop :=
  ∃ call begun deeds rest, arena.activity i = .busy call begun deeds (.ask (s.lock i).moveAside rest) ∧
    call.releasing = true

/-- The claim of the party was removed by hand when the party was about to move it aside, and the party has not gone on
since. -/
def Interrupted (i : ι) : Prop :=
  ∃ front back past, acts = front ++ .clear :: back ∧ (∀ act ∈ back, act.party? ≠ some i) ∧
    arena.play s s.timedService front = some past ∧ past.AboutToMove s i ∧
    s.HeldBy past.machine.tree s.claim i

/-- An interrupted party goes on when another party's claim stands at the claim's place. -/
def Overtaken : Prop :=
  ∃ before after middle i j, acts = before ++ .request i :: after ∧ arena.Interrupted s before i ∧
    arena.play s s.timedService before = some middle ∧ j ≠ i ∧ s.HeldBy middle.machine.tree s.claim j

/-- A request of a party that gives the lock back changes a claim, at the claim's place or where a party has it, whose
held marker at that moment is another party's nonce. -/
def Robs : Prop :=
  ∃ before after middle last i j place, acts = before ++ .request i :: after ∧
    arena.play s s.timedService before = some middle ∧ middle.releases i = true ∧
    middle.act? s s.timedService (.request i) = some last ∧
    s.Keeps place ∧ j ≠ i ∧ s.HeldBy middle.machine.tree place j ∧
    last.machine.tree.below place ≠ middle.machine.tree.below place

/-- A party that is in a release has last been answered at a tree with which what is left of its routine minds the
others. If it owned the lock then and is about to move its claim aside, it owns the lock still or was interrupted. -/
def Watched (middle : Arena ι Lock.TimedCall Lock.TimedAnswer) (i : ι) : Prop :=
  ∀ call begun deeds rest, middle.activity i = .busy call begun deeds rest → call.releasing = true →
    ∃ tree, s.Others i tree middle.machine.tree ∧ s.Minds i rest tree ∧
      (middle.AboutToMove s i → s.IsOwned tree (some i) →
        s.IsOwned middle.machine.tree (some i) ∨ arena.Interrupted s acts i)

end

variable [DecidableEq ι] {arena middle next : Arena ι Lock.TimedCall Lock.TimedAnswer}
  {act : Act ι Lock.TimedCall} {acts : List (Act ι Lock.TimedCall)}

/-! ## Longer schedules -/

theorem Interrupted.concat (h : arena.Interrupted s acts i) (hparty : act.party? ≠ some i) :
    arena.Interrupted s (acts ++ [act]) i := by
  obtain ⟨front, back, past, rfl, hback, hplay, habout, hheld⟩ := h
  refine ⟨front, back ++ [act], past, by simp, fun other hmem => ?_, hplay, habout, hheld⟩
  rcases List.mem_append.1 hmem with hmem | hmem
  · exact hback other hmem
  · obtain rfl := List.mem_singleton.1 hmem
    exact hparty

theorem Overtaken.append (h : arena.Overtaken s acts) (more : List (Act ι Lock.TimedCall)) :
    arena.Overtaken s (acts ++ more) := by
  obtain ⟨before, after, middle, i, j, rfl, hrest⟩ := h
  exact ⟨before, after ++ more, middle, i, j, by simp, hrest⟩

theorem Robs.append (h : arena.Robs s acts) (more : List (Act ι Lock.TimedCall)) :
    arena.Robs s (acts ++ more) := by
  obtain ⟨before, after, middle, last, i, j, place, rfl, hrest⟩ := h
  exact ⟨before, after ++ more, middle, last, i, j, place, by simp, hrest⟩

theorem Step.activity_eq (hparty : act.party? ≠ some i) (h : arena.Step s s.timedService act next) :
    next.activity i = arena.activity i := by
  cases h with
  | call _ => exact Function.update_of_ne (fun heq => hparty (congrArg some heq.symm)) ..
  | answered hact _ _ =>
    refine Function.update_of_ne (fun heq => hparty ?_) ..
    rcases hact with rfl | ⟨fault, rfl⟩
    · exact congrArg some heq.symm
    · exact congrArg some heq.symm
  | finish _ => exact Function.update_of_ne (fun heq => hparty (congrArg some heq.symm)) ..
  | clear _ => rfl
  | pass => rfl

theorem Step.request_cases (h : arena.Step s s.timedService (.request i) next) :
    ∃ call begun deeds, ∃ (r : Request) (rest : r.Reply → Routine Lock.TimedAnswer) (reply : r.Reply),
      arena.activity i = .busy call begun deeds (.ask r rest) ∧
        s.Answers i arena.machine.tree r reply next.machine.tree := by
  cases h with
  | @answered _ k call begun deeds r rest reply machine hact hbusy hanswers =>
    rcases hact with hact | ⟨fault, hact⟩
    · cases hact
      exact ⟨call, begun, deeds, r, rest, reply, hbusy, hanswers⟩
    · cases hact

theorem activity_eq_of_play (hallows : ∀ act ∈ acts, s.Allows act) (hother : ∀ act ∈ acts, act.party? ≠ some i)
    (hplay : arena.play s s.timedService acts = some next) : next.activity i = arena.activity i :=
  play_induction (P := fun middle => middle.activity i = arena.activity i) hallows
    (fun hmem hsame hstep => (hstep.activity_eq (hother _ hmem)).trans hsame) rfl hplay

theorem tree_eq_of_refuse {fault : Disk.Fault}
    (hact : middle.act? s s.timedService (.refuse i fault) = some next) :
    next.machine.tree = middle.machine.tree := by
  cases hactivity : middle.activity i with
  | idle => simp [act?, hactivity] at hact
  | busy call begun deeds rest =>
    cases rest with
    | done answer => simp [act?, hactivity] at hact
    | ask r rest =>
      simp only [act?, hactivity, Option.map_eq_some_iff] at hact
      obtain ⟨reply, -, rfl⟩ := hact
      rfl

/-! ## Parties that are watched -/

/-- The next request of a party in a release takes no claim but its own and spares the others, or the party was
interrupted and the request takes another party's claim. -/
theorem Watched.answered (h : arena.Watched s acts middle i) {call : Lock.TimedCall} {begun after : Tree}
    {deeds : Site.Deeds} {r : Request} {rest : r.Reply → Routine Lock.TimedAnswer} {reply : r.Reply}
    (hbusy : middle.activity i = .busy call begun deeds (.ask r rest)) (hreleasing : call.releasing = true)
    (hanswers : s.Answers i middle.machine.tree r reply after) :
    (s.TakesOwn i middle.machine.tree after ∧ s.Spares i middle.machine.tree after ∧
        s.Minds i (rest reply) after) ∨
      (arena.Interrupted s acts i ∧ ∃ j, j ≠ i ∧ s.IsOwned middle.machine.tree (some j) ∧
        s.IsOwned after none) := by
  obtain ⟨tree, hothers, ⟨-, hminds⟩, hstill⟩ := h call begun deeds _ hbusy hreleasing
  obtain ⟨htakes, hrest⟩ := hminds _ hothers reply after hanswers
  by_cases hown : s.TakesOwn i middle.machine.tree after
  · exact .inl ⟨hown, hrest hown⟩
  · unfold Site.TakesOwn at hown
    push Not at hown
    obtain ⟨j, hj, hfree, hne⟩ := hown
    obtain ⟨rfl, howned⟩ := htakes j hj hfree
    rcases hstill ⟨call, begun, deeds, rest, hbusy, hreleasing⟩ howned with hmine | hinterrupted
    · exact absurd (Option.some.inj (Site.isOwned_unique hj hmine)) hne
    · exact .inr ⟨hinterrupted, j, hne, hj, hfree⟩

theorem Watched.others (h : arena.Watched s acts middle i) (hparty : act.party? ≠ some i)
    (hstep : middle.Step s s.timedService act next)
    (hothers : s.Others i middle.machine.tree next.machine.tree)
    (hstill : middle.AboutToMove s i → s.IsOwned middle.machine.tree (some i) →
      s.IsOwned next.machine.tree (some i) ∨ arena.Interrupted s (acts ++ [act]) i) :
    arena.Watched s (acts ++ [act]) next i := by
  intro call begun deeds rest hbusy hreleasing
  have hactivity := hstep.activity_eq hparty
  rw [hactivity] at hbusy
  obtain ⟨tree, htree, hminds, howns⟩ := h call begun deeds rest hbusy hreleasing
  refine ⟨tree, htree.trans hothers, hminds, fun habout howned => ?_⟩
  unfold AboutToMove at habout
  rw [hactivity] at habout
  rcases howns habout howned with hmine | hinterrupted
  · exact hstill habout hmine
  · exact .inr (hinterrupted.concat hparty)

theorem takesOwn_of_watched (hsound : middle.Sound s s.timedService s.TimedAnswered)
    (hplay : arena.play s s.timedService acts = some middle) (h : arena.Watched s acts middle i)
    {call : Lock.TimedCall} {begun : Tree} {deeds : Site.Deeds} {r : Request}
    {rest : r.Reply → Routine Lock.TimedAnswer} {reply : r.Reply} {machine : Machine}
    (hact : middle.act? s s.timedService act = some (middle.answered i call begun deeds machine (rest reply)))
    (hwho : act = .request i ∨ ∃ fault, act = .refuse i fault)
    (hbusy : middle.activity i = .busy call begun deeds (.ask r rest))
    (hanswers : s.Answers i middle.machine.tree r reply machine.tree) :
    arena.Overtaken s (acts ++ [act]) ∨
      ((call.releasing = true → s.Minds i (rest reply) machine.tree) ∧
        s.TakesOwn i middle.machine.tree machine.tree) := by
  by_cases hreleasing : call.releasing = true
  · rcases h.answered hbusy hreleasing hanswers with ⟨htakes, -, hminds⟩ | ⟨hinterrupted, j, hne, hj, hfree⟩
    · exact .inr ⟨fun _ => hminds, htakes⟩
    · left
      rcases hwho with rfl | ⟨fault, rfl⟩
      · exact ⟨acts, [], middle, i, j, rfl, hinterrupted, hplay, hne, hj.heldBy⟩
      · have htree : machine.tree = middle.machine.tree := tree_eq_of_refuse hact
        rw [htree] at hfree
        cases Site.isOwned_unique hj hfree
  · refine .inr ⟨fun h => absurd h hreleasing, fun j hj hfree => ?_⟩
    cases Site.isOwned_unique hfree ((hsound.deed hbusy hanswers).1.keeps hreleasing hj)

/-- Every act leaves all parties watched, unless an interrupted party goes on over another party's claim. -/
theorem watched_step (hsound : middle.Sound s s.timedService s.TimedAnswered)
    (hplay : arena.play s s.timedService acts = some middle) (h : ∀ i, arena.Watched s acts middle i)
    (hallows : s.Allows act) (hact : middle.act? s s.timedService act = some next) :
    arena.Overtaken s (acts ++ [act]) ∨ ∀ i, arena.Watched s (acts ++ [act]) next i := by
  have hstep := step_of_act hallows hact
  have hquiet : ∀ {i}, act.party? ≠ some i → next.machine.tree = middle.machine.tree →
      arena.Watched s (acts ++ [act]) next i := by
    intro i hparty htree
    refine (h i).others hparty hstep ?_ fun _ howned => .inl ?_
    · rw [htree]
      exact .refl hsound.good
    · rwa [htree]
  cases id hstep with
  | @call k call hidle =>
    refine .inr fun i => ?_
    by_cases hik : i = k
    · subst hik
      intro call' begun deeds rest hbusy hreleasing
      rcases Activity.busy_of_update hbusy with ⟨-, hnew⟩ | ⟨hne, -⟩
      · cases hnew
        exact ⟨_, .refl hsound.good, Site.timedService_minds hreleasing (hsound.idle i hidle),
          fun _ howned => .inl howned⟩
      · exact absurd rfl hne
    · exact hquiet (fun heq => hik (Option.some.inj heq).symm) rfl
  | @answered _ k call begun deeds r rest reply machine hwho hbusy hanswers =>
    have hdeed := (hsound.deed hbusy hanswers).1
    refine (takesOwn_of_watched hsound hplay (h k) hact hwho hbusy hanswers).imp_right fun ⟨hminds, htakes⟩ i => ?_
    by_cases hik : i = k
    · subst hik
      intro call' begun' deeds' rest' hbusy' hreleasing
      rcases Activity.busy_of_update hbusy' with ⟨-, hnew⟩ | ⟨hne, -⟩
      · cases hnew
        exact ⟨_, .refl hdeed.good, hminds hreleasing, fun _ howned => .inl howned⟩
      · exact absurd rfl hne
    · have hparty : act.party? ≠ some i := by
        rcases hwho with rfl | ⟨fault, rfl⟩
        · exact fun heq => hik (Option.some.inj heq).symm
        · exact fun heq => hik (Option.some.inj heq).symm
      refine (h i).others hparty hstep (hdeed.others (Ne.symm hik)) fun _ howned => .inl ?_
      rcases hdeed.claim with hsame | ⟨hfree, -⟩ | ⟨-, hfree, -⟩
      · exact (Site.isOwned_congr hsame).2 howned
      · cases Site.isOwned_unique hfree howned
      · exact absurd (htakes i howned hfree) hik
  | @finish k call begun deeds answer hbusy =>
    refine .inr fun i => ?_
    by_cases hik : i = k
    · subst hik
      intro call' begun' deeds' rest' hbusy' _
      rcases Activity.busy_of_update hbusy' with ⟨-, hnew⟩ | ⟨hne, -⟩
      · cases hnew
      · exact absurd rfl hne
    · exact hquiet (fun heq => hik (Option.some.inj heq).symm) rfl
  | clear hcleared =>
    refine .inr fun i => ?_
    refine (h i).others nofun hstep (.of_clear hcleared hsound.good) fun habout howned => .inr ?_
    exact ⟨acts, [], middle, rfl, nofun, hplay, habout, howned.heldBy⟩
  | pass => exact .inr fun i => hquiet nofun rfl

theorem watched_play (hvalid : ∀ i, (s.lock i).config.validate = .ok ()) (hstart : arena.Start s)
    (hallows : ∀ act ∈ acts, s.Allows act) (hplay : arena.play s s.timedService acts = some next) :
    arena.Overtaken s acts ∨ ∀ i, arena.Watched s acts next i := by
  induction acts using List.reverseRecOn generalizing next with
  | nil =>
    obtain rfl := Option.some.inj hplay
    refine .inr fun i call begun deeds rest hbusy => ?_
    rw [hstart.idle i] at hbusy
    cases hbusy
  | append_singleton acts act ih =>
    rw [play_append] at hplay
    obtain ⟨middle, hmiddle, hlast⟩ := Option.bind_eq_some_iff.1 hplay
    obtain ⟨last, hact, hend⟩ := Option.bind_eq_some_iff.1 hlast
    obtain rfl := Option.some.inj hend
    have hbefore : ∀ act ∈ acts, s.Allows act := fun act hmem => hallows act (List.mem_append_left _ hmem)
    rcases ih hbefore hmiddle with hearlier | hwatched
    · exact .inl (hearlier.append _)
    · have hsound := (Sound.start hstart).play (Site.timedService_ensures hvalid) hbefore hmiddle
      exact watched_step hsound hmiddle hwatched (hallows act (by simp)) hact

/-! ## What is taken -/

theorem Robs.overtaken (hvalid : ∀ i, (s.lock i).config.validate = .ok ()) (hstart : arena.Start s)
    (hallows : ∀ act ∈ acts, s.Allows act) (h : arena.Robs s acts) : arena.Overtaken s acts := by
  obtain ⟨before, after, middle, last, i, j, place, rfl, hbefore, hreleases, hact, hkeeps, hne, hheld, hchanged⟩ := h
  rcases watched_play hvalid hstart (fun act hmem => hallows act (List.mem_append_left _ hmem)) hbefore with
    hearlier | hwatched
  · exact hearlier.append _
  · obtain ⟨call, begun, deeds, r, rest, reply, hbusy, hanswers⟩ :=
      (step_of_act (hallows (.request i) (by simp)) hact).request_cases
    rw [releases, hbusy] at hreleases
    rcases (hwatched i).answered hbusy hreleases hanswers with ⟨-, hspares, -⟩ | ⟨hinterrupted, j, hne, hj, -⟩
    · exact absurd (hspares place j hkeeps hne hheld) hchanged
    · exact ⟨before, after, middle, i, j, rfl, hinterrupted, hbefore, hne, hj.heldBy⟩

theorem Overtaken.robs (hfaulty : ¬ s.faulty) (hvalid : ∀ i, (s.lock i).config.validate = .ok ())
    (hstart : arena.Start s) (hallows : ∀ act ∈ acts, s.Allows act)
    (hplay : arena.play s s.timedService acts = some next) (h : arena.Overtaken s acts) : arena.Robs s acts := by
  induction hlength : acts.length using Nat.strong_induction_on generalizing acts next with
  | _ n ih =>
    obtain ⟨before, after, middle, i, j, rfl, hinterrupted, hbefore, hne, hj⟩ := h
    have hfirst : ∀ act ∈ before, s.Allows act := fun act hmem => hallows act (List.mem_append_left _ hmem)
    rcases watched_play hvalid hstart hfirst hbefore with hearlier | hwatched
    · -- It was not the first to go on over another party's claim.
      have hshorter : before.length < n := by
        rw [← hlength, List.length_append, List.length_cons]
        omega
      exact (ih _ hshorter hfirst hbefore hearlier rfl).append _
    · have hmiddle := (Sound.start hstart).play (Site.timedService_ensures hvalid) hfirst hbefore
      obtain ⟨front, back, past, rfl, hback, hfront, ⟨call, begun, deeds, rest, hbusy, hreleasing⟩, -⟩ := hinterrupted
      -- The party has not gone on, so it is still about to move its claim aside.
      have hstill : middle.activity i = .busy call begun deeds (.ask (s.lock i).moveAside rest) := by
        rw [play_append, hfront] at hbefore
        have hgone : past.play s s.timedService (.clear :: back) = some middle := hbefore
        obtain ⟨cleared, hclear, hplayed⟩ := Option.bind_eq_some_iff.1 hgone
        obtain rfl := Option.some.inj hclear
        have hsame := activity_eq_of_play (fun act hmem => hfirst act (by simp [hmem])) hback hplayed
        exact hsame.trans hbusy
      obtain ⟨tree, hothers, ⟨hclear, -⟩, -⟩ := hwatched i call begun deeds _ hstill hreleasing
      rw [play_append, hbefore] at hplay
      have hgoes : middle.play s s.timedService (.request i :: after) = some next := hplay
      obtain ⟨last, hact, -⟩ := Option.bind_eq_some_iff.1 hgoes
      have hreleases : middle.releases i = true := by rwa [releases, hstill]
      refine ⟨_, after, middle, last, i, j, s.claim, rfl, hbefore, hreleases, hact, .inl rfl, hne, hj,
        fun hsame => ?_⟩
      obtain ⟨_, _, _, r, rest', reply, hbusy', hanswers⟩ :=
        (step_of_act (hallows (.request i) (by simp)) hact).request_cases
      rw [hstill] at hbusy'
      cases hbusy'
      have howned := hmiddle.good.isOwned_of_held hj
      rcases (s.works_released i).rename_from_claim hmiddle.good .released hanswers with
        ⟨-, -, hmoves⟩ | ⟨fault, -, -, hfails | hfree | htaken⟩
      · have hfree : s.IsOwned last.machine.tree none := hmoves.at_source
        cases Site.isOwned_unique hfree ((Site.isOwned_congr hsame).2 howned)
      · exact hfaulty hfails
      · cases Site.isOwned_unique hfree howned
      · exact htaken (Tree.get?_of_below (((hclear rfl).others hothers) hfaulty _ .released nofun))

/-- Where claims are not removed by hand, no release takes another party's claim. -/
theorem not_robs (hcleared : ¬ s.cleared) (hvalid : ∀ i, (s.lock i).config.validate = .ok ())
    (hstart : arena.Start s) (hallows : ∀ act ∈ acts, s.Allows act) : ¬ arena.Robs s acts := by
  intro h
  obtain ⟨before, after, middle, i, j, rfl, ⟨front, back, past, rfl, -⟩, -⟩ := h.overtaken hvalid hstart hallows
  exact hcleared (hallows .clear (by simp))

/-- A release moves aside or deletes another party's claim only in plays in which the claim of a party that was about to
move it aside was removed by hand, and the party went on when another party's claim stood in its place. Where requests
do not fail, in all of these plays a release does. -/
theorem play_robs_iff (hvalid : ∀ i, (s.lock i).config.validate = .ok ()) (hstart : arena.Start s)
    (hallows : ∀ act ∈ acts, s.Allows act) (hplay : arena.play s s.timedService acts = some next) :
    (arena.Robs s acts → arena.Overtaken s acts) ∧
      (¬ s.faulty → (arena.Robs s acts ↔ arena.Overtaken s acts)) :=
  ⟨fun h => h.overtaken hvalid hstart hallows,
    fun hfaulty => ⟨fun h => h.overtaken hvalid hstart hallows,
      fun h => h.robs hfaulty hvalid hstart hallows hplay⟩⟩

end Arena

/-! ## Two parties and a hand -/

/-- Two parties that share a lock whose claims are removed by hand. -/
def Site.clearedPair : Site Bool := { Site.pair with cleared := True }

namespace Arena

/-- A party claims the lock and gets it. -/
def gained (i : Bool) : List (Act Bool Lock.TimedCall) :=
  .call i (.plain .tryClaim) :: List.replicate 8 (.request i) ++ [.finish i]

/-- The claim of the first party is removed by hand and the second one claims the lock; then the first one releases
it. -/
def lateRelease : List (Act Bool Lock.TimedCall) :=
  gained false ++ .clear :: (gained true ++ [.call false (.plain .unlock), .request false, .finish false])

/-- A release that begins when the claim has already been removed leaves the other party's claim alone. -/
theorem lateRelease_not_robs : ∃ next,
    (ofGround Site.clearedPair ⟨0, 0⟩).play Site.clearedPair Site.clearedPair.timedService lateRelease = some next ∧
      Site.clearedPair.HeldBy next.machine.tree Site.clearedPair.claim true ∧
      ¬ (ofGround Site.clearedPair ⟨0, 0⟩).Robs Site.clearedPair lateRelease := by
  have hrun : ((ofGround Site.clearedPair ⟨0, 0⟩).play Site.clearedPair Site.clearedPair.timedService
      lateRelease).map (fun next => next.machine.tree.get? (Site.clearedPair.claim ++ [heldBytes])) =
        some (some (.file (Site.clearedPair.lock true).nonce.bytes)) := by decide +kernel
  have hrest : ((ofGround Site.clearedPair ⟨0, 0⟩).play Site.clearedPair Site.clearedPair.timedService
      (gained false)).map (fun past => (past.isAtRest false, past.isAtRest true)) = some (true, true) := by
    decide +kernel
  obtain ⟨next, hplay, hheld⟩ := Option.map_eq_some_iff.1 hrun
  have hallows : ∀ act ∈ lateRelease, Site.clearedPair.Allows act := by
    intro act hact
    cases act with
    | refuse i fault => simp [lateRelease, gained] at hact
    | _ => trivial
  refine ⟨next, hplay, hheld, fun hrobs => ?_⟩
  obtain ⟨before, after, middle, i, j, hacts, ⟨front, back, past, rfl, -, hfront, habout, -⟩, -⟩ :=
    (play_robs_iff (s := Site.clearedPair) (fun i => by cases i <;> rfl) (start_ofGround _ _) hallows hplay).1 hrobs
  -- The claim is removed once, and nobody is in a call then.
  rw [List.append_assoc, List.cons_append, lateRelease] at hacts
  obtain ⟨rfl, -⟩ := (List.append_cons_inj_of_notMem (by simp [gained]) (by simp [gained])).1 hacts
  rw [hfront] at hrest
  obtain ⟨hfalse, htrue⟩ := Prod.mk.inj (Option.some.inj hrest)
  obtain ⟨call, begun, deeds, rest, hbusy, -⟩ := habout
  have hidle : past.activity i = .idle := idle_of_isAtRest (by cases i <;> assumption)
  rw [hidle] at hbusy
  cases hbusy

/-- The first party has seen its own held marker when its claim is removed by hand and the second one claims the lock;
then it goes on. -/
def overtakenRelease : List (Act Bool Lock.TimedCall) :=
  gained false ++ [.call false (.plain .unlock), .request false] ++ .clear :: gained true ++ [.request false]

/-- A release may move aside a claim whose held marker is at that moment another party's nonce. -/
theorem not_spares : ¬ ∀ (acts : List (Act Bool Lock.TimedCall)) next,
    (∀ act ∈ acts, Site.clearedPair.Allows act) →
    (ofGround Site.clearedPair ⟨0, 0⟩).play Site.clearedPair Site.clearedPair.timedService acts = some next →
      ¬ (ofGround Site.clearedPair ⟨0, 0⟩).Robs Site.clearedPair acts := by
  intro hall
  have hrun : ((ofGround Site.clearedPair ⟨0, 0⟩).play Site.clearedPair Site.clearedPair.timedService
      (gained false ++ [.call false (.plain .unlock), .request false] ++ .clear :: gained true)).map
        (fun middle => (middle.releases false,
          middle.machine.tree.get? (Site.clearedPair.claim ++ [heldBytes]),
          (middle.act? Site.clearedPair Site.clearedPair.timedService (.request false)).map
            fun last => last.machine.tree.get? (Site.clearedPair.claim ++ [heldBytes]))) =
      some (true, some (.file (Site.clearedPair.lock true).nonce.bytes), some none) := by decide +kernel
  obtain ⟨middle, hmiddle, hend⟩ := Option.map_eq_some_iff.1 hrun
  simp only [Prod.mk.injEq, Option.map_eq_some_iff] at hend
  obtain ⟨hreleases, hheld, last, hact, hgone⟩ := hend
  have hplay : (ofGround Site.clearedPair ⟨0, 0⟩).play Site.clearedPair Site.clearedPair.timedService
      overtakenRelease = some last := by
    rw [overtakenRelease, play_append, hmiddle]
    show (middle.act? _ _ _).bind _ = _
    rw [hact]
    rfl
  have hallows : ∀ act ∈ overtakenRelease, Site.clearedPair.Allows act := by
    intro act hact
    cases act with
    | refuse i fault => simp [overtakenRelease, gained] at hact
    | _ => trivial
  refine hall overtakenRelease last hallows hplay
    ⟨_, [], middle, last, false, true, _, rfl, hmiddle, hreleases, hact, .inl rfl, nofun, hheld, fun hsame => ?_⟩
  have hmarker := congrFun hsame [heldBytes]
  rw [Tree.below, Tree.below, hheld, hgone] at hmarker
  cases hmarker

end Arena

end DirLock
