import DirLock.Proofs.Lock.Release

/-!
# Arenas

An arena is a site at work. Each party is a sequential caller: it begins a call when it is not in the
middle of one, makes the requests of the call one after the other, and ends the call when it has its
answer. A schedule of acts says who does what next, so every interleaving of the parties' requests is
the play of some schedule. A request may be refused for reasons of its own and claims may be removed
by hand, at the sites where that happens.

What a party relies on is kept by the acts of all the others (`Sound.step`), so every call ends as its
routine ensures, in every play.
-/

namespace DirLock

open Disk (Tree Place Path Fault)
open Disk.Tree (noView)

variable {ι Call Answer : Type}

inductive Activity (Call Answer : Type) where
  | idle
  /-- In a call, with the tree at its begin, the deeds so far and what is left to do. -/
  | busy (call : Call) (begun : Tree) (deeds : Site.Deeds) (rest : Routine Answer)

structure Ended (ι Call Answer : Type) where
  party : ι
  call : Call
  /-- The tree when the call began. -/
  begun : Tree
  /-- The trees before and after each request of the call. -/
  deeds : Site.Deeds
  answer : Answer

/-- What the parties can call, and what that means for the lock. -/
structure Service (ι Call Answer : Type) where
  routine : ι → Call → Routine Answer
  /-- Whether the call is to give the lock back. -/
  releasing : Call → Bool
  /-- Whether the answer says that the party has the lock. -/
  wins : Answer → Bool

structure Arena (ι Call Answer : Type) where
  machine : Machine
  activity : ι → Activity Call Answer
  /-- Whether the party was told that it has the lock and has not begun to give it back. -/
  inside : ι → Bool
  /-- The calls that have ended, the first one first. -/
  ended : List (Ended ι Call Answer)

inductive Act (ι Call : Type) where
  /-- The party begins a call. -/
  | call (party : ι) (call : Call)
  /-- The party makes its next request. -/
  | request (party : ι)
  /-- The party's next request is refused. -/
  | refuse (party : ι) (fault : Fault)
  /-- The party's call ends. -/
  | finish (party : ι)
  /-- The claim is removed by hand. -/
  | clear
  /-- Time passes. -/
  | pass (nanos : Nat)

namespace Site

/-- Whether the act can happen at the site. -/
def Allows (s : Site ι) : Act ι Call → Prop
  | .refuse _ _ => s.faulty
  | .clear => s.cleared
  | _ => True

theorem allows_of_plain {s : Site ι} {acts : List (Act ι Call)}
    (hrefuse : ∀ i fault, .refuse i fault ∉ acts) (hclear : .clear ∉ acts) :
    ∀ act ∈ acts, s.Allows act := by
  intro act hact
  cases act with
  | refuse i fault => exact absurd hact (hrefuse i fault)
  | clear => exact absurd hact hclear
  | _ => trivial

end Site

namespace Arena

variable [DecidableEq ι] (s : Site ι) (service : Service ι Call Answer)

/-- The arena after a request of a party was answered. -/
def answered (arena : Arena ι Call Answer) (i : ι) (call : Call) (begun : Tree)
    (deeds : Site.Deeds) (machine : Machine) (rest : Routine Answer) : Arena ι Call Answer :=
  { arena with
    machine := machine
    activity := Function.update arena.activity i
      (.busy call begun (deeds ++ [(arena.machine.tree, machine.tree)]) rest) }

/-- What an act leads to, if it can happen. -/
def act? (arena : Arena ι Call Answer) : Act ι Call → Option (Arena ι Call Answer)
  | .call i call =>
    match arena.activity i with
    | .idle => some { arena with
        activity := Function.update arena.activity i
          (.busy call arena.machine.tree [] (service.routine i call))
        inside := Function.update arena.inside i (arena.inside i && !service.releasing call) }
    | .busy _ _ _ _ => none
  | .request i =>
    match arena.activity i with
    | .busy call begun deeds (.ask r next) =>
      let (reply, machine) := Machine.answerPlain s.supply r
        { arena.machine with directory := s.directory i }
      some (arena.answered i call begun deeds machine (next reply))
    | _ => none
  | .refuse i fault =>
    match arena.activity i with
    | .busy call begun deeds (.ask r next) => (r.refusal? fault).map fun reply =>
      arena.answered i call begun deeds arena.machine (next reply)
    | _ => none
  | .finish i =>
    match arena.activity i with
    | .busy call begun deeds (.done answer) => some { arena with
        activity := Function.update arena.activity i .idle
        inside := Function.update arena.inside i (arena.inside i || service.wins answer)
        ended := arena.ended ++ [⟨i, call, begun, deeds, answer⟩] }
    | _ => none
  | .clear => some { arena with
      machine := { arena.machine with tree := arena.machine.tree.prune s.claim } }
  | .pass nanos => some { arena with machine := arena.machine.pass nanos }

/-- What a schedule leads to, if all its acts can happen. -/
def play (arena : Arena ι Call Answer) : List (Act ι Call) → Option (Arena ι Call Answer)
  | [] => some arena
  | act :: acts => (arena.act? s service act).bind fun next => next.play acts

/-- The parties before they begin: nobody is in a call, nothing stands at the claim's place, and
nothing on the parties' plots unless requests may fail. -/
structure Start (arena : Arena ι Call Answer) : Prop where
  good : s.Good arena.machine.tree
  free : s.IsOwned arena.machine.tree none
  clear : ∀ i, s.Clear i none arena.machine.tree
  idle : ∀ i, arena.activity i = .idle
  outside : ∀ i, arena.inside i = false
  none_ended : arena.ended = []

/-- The arena in which nothing has happened. -/
def ofGround (clock : Time.Instant) : Arena ι Call Answer where
  machine := .ofTree s.ground [] clock
  activity _ := .idle
  inside _ := false
  ended := []

omit [DecidableEq ι] in
theorem start_ofGround (clock : Time.Instant) :
    (ofGround s clock : Arena ι Call Answer).Start s where
  good := ⟨s.sound, fun _ _ _ => rfl, none, s.sound.below_eq_none s.claim_free⟩
  free := s.sound.below_eq_none s.claim_free
  clear := fun _ _ _ hown _ => s.sound.below_eq_none hown.plot.free
  idle := fun _ => rfl
  outside := fun _ => rfl
  none_ended := rfl

end Arena

/-! ## Steps -/

/-- What an act can do to an arena. -/
inductive Arena.Step [DecidableEq ι] (s : Site ι) (service : Service ι Call Answer)
    (arena : Arena ι Call Answer) : Act ι Call → Arena ι Call Answer → Prop
  | call {i : ι} {call : Call} : arena.activity i = .idle →
    Step s service arena (.call i call) { arena with
      activity := Function.update arena.activity i
        (.busy call arena.machine.tree [] (service.routine i call))
      inside := Function.update arena.inside i (arena.inside i && !service.releasing call) }
  | answered {act : Act ι Call} {i : ι} {call : Call} {begun : Tree} {deeds : Site.Deeds}
    {r : Request} {rest : r.Reply → Routine Answer} {reply : r.Reply} {machine : Machine} :
    act = .request i ∨ (∃ fault, act = .refuse i fault) →
    arena.activity i = .busy call begun deeds (.ask r rest) →
    s.Answers i arena.machine.tree r reply machine.tree →
    Step s service arena act (arena.answered i call begun deeds machine (rest reply))
  | finish {i : ι} {call : Call} {begun : Tree} {deeds : Site.Deeds} {answer : Answer} :
    arena.activity i = .busy call begun deeds (.done answer) →
    Step s service arena (.finish i) { arena with
      activity := Function.update arena.activity i .idle
      inside := Function.update arena.inside i (arena.inside i || service.wins answer)
      ended := arena.ended ++ [⟨i, call, begun, deeds, answer⟩] }
  | clear : s.cleared → Step s service arena .clear { arena with
      machine := { arena.machine with tree := arena.machine.tree.prune s.claim } }
  | pass {nanos : Nat} : Step s service arena (.pass nanos) { arena with
      machine := arena.machine.pass nanos }

theorem Arena.step_of_act [DecidableEq ι] {s : Site ι} {service : Service ι Call Answer}
    {arena next : Arena ι Call Answer} {act : Act ι Call} (hallows : s.Allows act)
    (hact : arena.act? s service act = some next) : arena.Step s service act next := by
  cases act with
  | call i call =>
    cases hactivity : arena.activity i with
    | idle =>
      simp only [act?, hactivity] at hact
      obtain rfl := Option.some.inj hact
      exact .call hactivity
    | busy call' begun deeds rest => simp [act?, hactivity] at hact
  | request i =>
    cases hactivity : arena.activity i with
    | idle => simp [act?, hactivity] at hact
    | busy call begun deeds rest =>
      cases rest with
      | done answer => simp [act?, hactivity] at hact
      | ask r rest =>
        simp only [act?, hactivity] at hact
        obtain rfl := Option.some.inj hact
        exact .answered (.inl rfl) hactivity
          (.inl ⟨{ arena.machine with directory := s.directory i }, rfl, rfl, rfl, rfl⟩)
  | refuse i fault =>
    cases hactivity : arena.activity i with
    | idle => simp [act?, hactivity] at hact
    | busy call begun deeds rest =>
      cases rest with
      | done answer => simp [act?, hactivity] at hact
      | ask r rest =>
        simp only [act?, hactivity, Option.map_eq_some_iff] at hact
        obtain ⟨reply, hreply, rfl⟩ := hact
        exact .answered (.inr ⟨fault, rfl⟩) hactivity (.inr ⟨hallows, rfl, fault, hreply⟩)
  | finish i =>
    cases hactivity : arena.activity i with
    | idle => simp [act?, hactivity] at hact
    | busy call begun deeds rest =>
      cases rest with
      | done answer =>
        simp only [act?, hactivity] at hact
        obtain rfl := Option.some.inj hact
        exact .finish hactivity
      | ask r rest => simp [act?, hactivity] at hact
  | clear =>
    obtain rfl := Option.some.inj hact
    exact .clear hallows
  | pass nanos =>
    obtain rfl := Option.some.inj hact
    exact .pass

/-! ## What every act keeps -/

/-- What each call of a service ensures: that it is clear of leftovers and what `post` says of the
party, the call, the tree at its begin, its deeds, its answer and the tree at its end. -/
def Service.Ensures (s : Site ι) (service : Service ι Call Answer)
    (post : ι → Call → Tree → Site.Deeds → Answer → Tree → Prop) : Prop :=
  ∀ i call tree, s.Clear i none tree →
    s.Ensures i (service.releasing call = true) (service.routine i call) [] tree
      fun deeds answer after => s.Clear i none after ∧ post i call tree deeds answer after

theorem Activity.busy_of_update [DecidableEq ι] {activity : ι → Activity Call Answer} {i j : ι}
    {new : Activity Call Answer} {call : Call} {begun : Tree} {deeds : Site.Deeds}
    {rest : Routine Answer}
    (h : Function.update activity i new j = .busy call begun deeds rest) :
    (j = i ∧ new = .busy call begun deeds rest) ∨
      (j ≠ i ∧ activity j = .busy call begun deeds rest) := by
  by_cases hji : j = i
  · subst hji
    rw [Function.update_self] at h
    exact .inl ⟨rfl, h⟩
  · rw [Function.update_of_ne hji] at h
    exact .inr ⟨hji, h⟩

namespace Arena

variable {s : Site ι} {service : Service ι Call Answer}
  {post : ι → Call → Tree → Site.Deeds → Answer → Tree → Prop}

/-- What holds in an arena at any time: the tree is one that the parties can make, every party is
where it can rely on what its routine relies on, and every call that ended did so as ensured. -/
structure Sound (s : Site ι) (service : Service ι Call Answer)
    (post : ι → Call → Tree → Site.Deeds → Answer → Tree → Prop) (arena : Arena ι Call Answer) :
    Prop where
  good : s.Good arena.machine.tree
  idle : ∀ i, arena.activity i = .idle → s.Clear i none arena.machine.tree
  busy : ∀ i call begun deeds rest, arena.activity i = .busy call begun deeds rest →
    ∃ last, s.Others i last arena.machine.tree ∧
      s.Ensures i (service.releasing call = true) rest deeds last fun deeds answer after =>
        s.Clear i none after ∧ post i call begun deeds answer after
  ended : ∀ e ∈ arena.ended, ∃ after, post e.party e.call e.begun e.deeds e.answer after

theorem Sound.start {arena : Arena ι Call Answer} (h : arena.Start s) :
    arena.Sound s service post where
  good := h.good
  idle := fun i _ => h.clear i
  busy := fun i _ _ _ _ hbusy => by
    rw [h.idle i] at hbusy
    cases hbusy
  ended := fun e he => by
    rw [h.none_ended] at he
    cases he

variable [DecidableEq ι] {arena next : Arena ι Call Answer} {i : ι}

theorem Sound.of_move (h : arena.Sound s service post) (hgood : s.Good next.machine.tree)
    (hactivity : ∀ j, j ≠ i → next.activity j = arena.activity j)
    (hothers : ∀ j, j ≠ i → s.Others j arena.machine.tree next.machine.tree)
    (hended : ∀ e ∈ next.ended, ∃ after, post e.party e.call e.begun e.deeds e.answer after)
    (hidle : next.activity i = .idle → s.Clear i none next.machine.tree)
    (hbusy : ∀ call begun deeds rest, next.activity i = .busy call begun deeds rest →
      ∃ last, s.Others i last next.machine.tree ∧
        s.Ensures i (service.releasing call = true) rest deeds last fun deeds answer after =>
          s.Clear i none after ∧ post i call begun deeds answer after) :
    next.Sound s service post where
  good := hgood
  idle := fun j hj => by
    by_cases hji : j = i
    · subst hji
      exact hidle hj
    · rw [hactivity j hji] at hj
      exact (h.idle j hj).others (hothers j hji)
  busy := fun j call begun deeds rest hj => by
    by_cases hji : j = i
    · subst hji
      exact hbusy call begun deeds rest hj
    · rw [hactivity j hji] at hj
      obtain ⟨last, hlast, hensures⟩ := h.busy j call begun deeds rest hj
      exact ⟨last, hlast.trans (hothers j hji), hensures⟩
  ended := hended

omit [DecidableEq ι] in
theorem Sound.deed (h : arena.Sound s service post) {call : Call} {begun : Tree}
    {deeds : Site.Deeds} {r : Request} {rest : r.Reply → Routine Answer}
    (hbusy : arena.activity i = .busy call begun deeds (.ask r rest)) {reply : r.Reply} {after : Tree}
    (hanswers : s.Answers i arena.machine.tree r reply after) :
    s.Deed i (service.releasing call = true) arena.machine.tree after ∧
      s.Ensures i (service.releasing call = true) (rest reply)
        (deeds ++ [(arena.machine.tree, after)]) after fun deeds answer after =>
          s.Clear i none after ∧ post i call begun deeds answer after := by
  obtain ⟨last, hlast, hensures⟩ := h.busy i call begun deeds _ hbusy
  exact hensures _ hlast reply _ hanswers

theorem Sound.step (hservice : service.Ensures s post) (h : arena.Sound s service post)
    {act : Act ι Call} (hstep : arena.Step s service act next) : next.Sound s service post := by
  cases hstep with
  | @call i call hidle =>
    refine h.of_move (i := i) h.good (fun j hj => Function.update_of_ne hj _ _)
      (fun j _ => .refl h.good) h.ended ?_ ?_
    · intro hactivity
      dsimp only at hactivity
      rw [Function.update_self] at hactivity
      cases hactivity
    · intro call' begun deeds rest hactivity
      dsimp only at hactivity
      rw [Function.update_self] at hactivity
      cases hactivity
      exact ⟨_, .refl h.good, hservice i call _ (h.idle i hidle)⟩
  | @answered _ i call begun deeds r rest reply machine _ hbusy hanswers =>
    obtain ⟨hdeed, hrest⟩ := h.deed hbusy hanswers
    refine h.of_move (i := i) hdeed.good (fun j hj => Function.update_of_ne hj _ _)
      (fun j hj => hdeed.others (Ne.symm hj)) h.ended ?_ ?_
    · intro hactivity
      rw [Arena.answered] at hactivity
      dsimp only at hactivity
      rw [Function.update_self] at hactivity
      cases hactivity
    · intro call' begun' deeds' rest' hactivity
      rw [Arena.answered] at hactivity
      dsimp only at hactivity
      rw [Function.update_self] at hactivity
      cases hactivity
      exact ⟨_, .refl hdeed.good, hrest⟩
  | @finish i call begun deeds answer hbusy =>
    obtain ⟨last, hlast, hclear, hpost⟩ := h.busy i call begun deeds _ hbusy
    refine h.of_move (i := i) h.good (fun j hj => Function.update_of_ne hj _ _)
      (fun j _ => .refl h.good) ?_ (fun _ => hclear.others hlast) ?_
    · intro e he
      rcases List.mem_append.1 he with he | he
      · exact h.ended e he
      · obtain rfl := List.mem_singleton.1 he
        exact ⟨last, hpost⟩
    · intro call' begun' deeds' rest' hactivity
      dsimp only at hactivity
      rw [Function.update_self] at hactivity
      cases hactivity
  | clear hcleared =>
    have hothers : ∀ i, s.Others i arena.machine.tree (arena.machine.tree.prune s.claim) :=
      fun i => .of_clear hcleared h.good
    refine ⟨h.good.prune_claim, fun i hi => (h.idle i hi).others (hothers i), ?_, h.ended⟩
    intro i call begun deeds rest hi
    obtain ⟨last, hlast, hensures⟩ := h.busy i call begun deeds rest hi
    exact ⟨last, hlast.trans (hothers i), hensures⟩
  | pass => exact ⟨h.good, h.idle, h.busy, h.ended⟩

theorem play_append (arena : Arena ι Call Answer) (before after : List (Act ι Call)) :
    arena.play s service (before ++ after) =
      (arena.play s service before).bind fun middle => middle.play s service after := by
  induction before generalizing arena with
  | nil => rfl
  | cons act before ih =>
    rw [List.cons_append, Arena.play, Arena.play, Option.bind_assoc]
    exact congrArg _ (funext ih)

/-- What holds at the start and is kept by every step holds after every play. -/
theorem play_induction {P : Arena ι Call Answer → Prop} {acts : List (Act ι Call)}
    (hallows : ∀ act ∈ acts, s.Allows act)
    (hstep : ∀ {arena next : Arena ι Call Answer} {act : Act ι Call}, act ∈ acts → P arena →
      arena.Step s service act next → P next)
    (h : P arena) (hplay : arena.play s service acts = some next) : P next := by
  induction acts generalizing arena with
  | nil =>
    obtain rfl := Option.some.inj hplay
    exact h
  | cons act acts ih =>
    obtain ⟨middle, hact, hrest⟩ := Option.bind_eq_some_iff.1 hplay
    have hmem : act ∈ act :: acts := List.mem_cons_self
    exact ih (fun act hlater => hallows act (List.mem_cons_of_mem _ hlater))
      (fun hlater => hstep (List.mem_cons_of_mem _ hlater))
      (hstep hmem h (step_of_act (hallows act hmem) hact)) hrest

theorem Sound.play (hservice : service.Ensures s post) {acts : List (Act ι Call)}
    (hallows : ∀ act ∈ acts, s.Allows act) (h : arena.Sound s service post)
    (hplay : arena.play s service acts = some next) : next.Sound s service post :=
  play_induction hallows (fun _ h hstep => h.step hservice hstep) h hplay

end Arena

end DirLock
