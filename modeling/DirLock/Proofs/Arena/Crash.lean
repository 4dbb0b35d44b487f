import DirLock.Proofs.Arena.Rest

/-!
# Parties that stop

A party that stops in the middle of a call is one that the schedule does not name any more. Whatever it
leaves behind is on its own plots or is its complete claim, so an attempt of another party goes as if
nothing had been left: it gets the lock if nothing stands at the claim's place, and otherwise it finds
the lock taken and changes nothing. And nobody takes over the claim of an owner that has stopped.
-/

namespace DirLock

open Disk (Tree Entry)

variable {ι : Type} {s : Site ι} {i j : ι} {tree last : Tree} {deeds : Site.Deeds}

namespace Site

/-! ## Calls that nobody interrupts -/

/-- The deeds follow one another from the first tree to the last. -/
def Chained (tree : Tree) : Deeds → Tree → Prop
  | [], last => last = tree
  | deed :: deeds, last => deed.1 = tree ∧ Chained deed.2 deeds last

theorem answerPlain_directory (supply : Supply) (r : Request) (machine : Machine) :
    (Machine.answerPlain supply r machine).2.directory = machine.directory := by
  have hchange : ∀ result, (machine.change result).2.directory = machine.directory := by
    intro result
    cases result <;> rfl
  cases r with
  | makeDirectory path => exact hchange _
  | writeFile path content => exact hchange _
  | makeLink target path => exact hchange _
  | rename source target => exact hchange _
  | remove step => cases step <;> exact hchange _
  | unlink path => exact hchange _
  | _ => rfl

theorem Ensures.run {α : Type} {releasing : Prop} {routine : Routine α}
    {post : Deeds → α → Tree → Prop} {machine : Machine} (hgood : s.Good machine.tree)
    (hdir : machine.directory = s.directory i)
    (h : s.Ensures i releasing routine deeds machine.tree post) :
    ∃ more, Chained machine.tree more (routine.run (Machine.answerPlain s.supply) machine).2.tree ∧
      post (deeds ++ more) (routine.run (Machine.answerPlain s.supply) machine).1
        (routine.run (Machine.answerPlain s.supply) machine).2.tree := by
  induction routine generalizing deeds machine with
  | done value => exact ⟨[], rfl, by rwa [List.append_nil]⟩
  | ask r next ih =>
    obtain ⟨hdeed, hnext⟩ := h machine.tree (.refl hgood) _ _ (.inl ⟨machine, rfl, hdir, rfl, rfl⟩)
    obtain ⟨more, hchained, hpost⟩ := ih _ hdeed.good
      ((answerPlain_directory s.supply r machine).trans hdir) hnext
    exact ⟨(machine.tree, _) :: more, ⟨rfl, hchained⟩, by rwa [List.append_assoc] at hpost⟩

theorem Chained.below_eq {front back : Deeds} {deed : Tree × Tree}
    (h : Chained tree (front ++ deed :: back) last) (hquiet : s.AllQuiet front) :
    deed.1.below s.claim = tree.below s.claim := by
  induction front generalizing tree with
  | nil => rw [h.1]
  | cons first front ih =>
    have hrest := ih h.2 fun d hd => hquiet d (List.mem_cons_of_mem _ hd)
    rw [hrest, hquiet first List.mem_cons_self, h.1]

/-- What a call that nobody interrupts sees of the lock is what was there when it began. -/
theorem Chained.isOwned_of_turns (h : Chained tree deeds last) {owner owner' : Option ι}
    (hturns : s.Turns deeds owner owner') : s.IsOwned tree owner := by
  obtain ⟨front, deed, back, rfl, hfront, -, howned, -⟩ := hturns
  exact (isOwned_congr (h.below_eq hfront)).1 howned

theorem run_tryClaim_of_free (machine : Machine) (hfaulty : ¬ s.faulty) (hcleared : ¬ s.cleared)
    (hgood : s.Good machine.tree) (hclear : s.Clear i none machine.tree)
    (hdir : machine.directory = s.directory i) (hfree : s.IsOwned machine.tree none) :
    (((s.lock i).tryClaim (s.claimant i)).run (Machine.answerPlain s.supply) machine).1 = .ok true ∧
      s.IsOwned (((s.lock i).tryClaim (s.claimant i)).run (Machine.answerPlain s.supply) machine).2.tree
        (some i) := by
  have hensures : s.Ensures i False ((s.lock i).tryClaim (s.claimant i)) [] machine.tree
      fun deeds result after => s.Clear i none after ∧ s.Attempted i deeds after result :=
    ensures_tryClaim hclear
  obtain ⟨more, hchained, -, hattempted⟩ := hensures.run hgood hdir
  rw [List.nil_append] at hattempted
  generalize ((s.lock i).tryClaim (s.claimant i)).run (Machine.answerPlain s.supply) machine = ends
    at hchained hattempted ⊢
  obtain ⟨result, after⟩ := ends
  cases hattempted with
  | acquired _ howned => exact ⟨rfl, howned hcleared⟩
  | lost hsees => cases isOwned_unique hfree (hchained.isOwned_of_turns hsees.turns)
  | failed h _ _ => exact absurd h hfaulty

theorem run_tryClaim_of_owned (machine : Machine) (hfaulty : ¬ s.faulty) (hgood : s.Good machine.tree)
    (hdir : machine.directory = s.directory i) (howned : s.IsOwned machine.tree (some j)) :
    (((s.lock i).tryClaim (s.claimant i)).run (Machine.answerPlain s.supply) machine).1 = .ok false ∧
      (((s.lock i).tryClaim (s.claimant i)).run (Machine.answerPlain s.supply) machine).2.tree =
        machine.tree := by
  have hanswers : s.Answers i machine.tree (.entryKind (s.lock i).claimDir)
      (machine.tree.entryKind machine.directory (s.lock i).claimDir) machine.tree :=
    .inl ⟨machine, rfl, hdir, rfl, rfl⟩
  obtain ⟨-, ⟨kind, k, hkind, -⟩ | ⟨fault, -, -, hfree⟩ | ⟨fault, -, hfailed⟩⟩ :=
    entryKind_claim hgood hanswers
  · rw [Lock.tryClaim, Lock.isLocked]
    simp only [Routine.bind_eq, Routine.request, Routine.ask_bind, Routine.run, Machine.answerPlain,
      Routine.done_bind]
    rw [hkind]
    exact ⟨rfl, rfl⟩
  · cases isOwned_unique hfree howned
  · exact absurd hfailed hfaulty

/-! ## What stands at the claim's place -/

theorem Good.isOwned_none (h : s.Good tree) (hnone : tree.get? s.claim = none) :
    s.IsOwned tree none := by
  obtain ⟨_ | i, howned⟩ := h.owned
  · exact howned
  · have hdir := howned.marked.directory
    rw [hnone] at hdir
    cases hdir

theorem Good.isOwned_some (h : s.Good tree) {entry : Entry} (hentry : tree.get? s.claim = some entry) :
    ∃ i, s.IsOwned tree (some i) := by
  obtain ⟨_ | i, howned⟩ := h.owned
  · have hnone := congrFun howned []
    rw [Tree.below, List.append_nil, hentry] at hnone
    cases hnone
  · exact ⟨i, howned⟩

theorem Good.isOwned_of_held (h : s.Good tree)
    (hheld : tree.get? (s.claim ++ [heldBytes]) = some (.file (s.lock i).nonce.bytes)) :
    s.IsOwned tree (some i) := by
  obtain ⟨_ | j, howned⟩ := h.owned
  · have hnone := congrFun howned [heldBytes]
    rw [Tree.below, hheld] at hnone
    cases hnone
  · have hmarker := howned.marked.held
    rw [hheld] at hmarker
    have hbytes := Entry.file.inj (Option.some.inj hmarker)
    obtain rfl := s.nonce_injective (Nonce.eq_of_bytes hbytes)
    exact howned

end Site

namespace Arena

variable [DecidableEq ι] {arena next : Arena ι Lock.TimedCall Lock.TimedAnswer}
  {act : Act ι Lock.TimedCall} {k : ι}

/-- Only the owner's own request takes its claim away. -/
theorem Sound.claim_kept (hfaulty : ¬ s.faulty) (hcleared : ¬ s.cleared)
    (h : arena.Sound s s.timedService s.TimedAnswered) (hallows : s.Allows act)
    (hother : act ≠ .request k) (howned : s.IsOwned arena.machine.tree (some k))
    (hstep : arena.Step s s.timedService act next) :
    next.machine.tree.below s.claim = arena.machine.tree.below s.claim := by
  cases hstep with
  | call _ => rfl
  | @answered _ i _ _ _ _ _ _ _ hact hbusy hanswers =>
    have hne : i ≠ k := by
      rintro rfl
      rcases hact with rfl | ⟨fault, rfl⟩
      · exact hother rfl
      · exact hfaulty hallows
    exact ((h.deed hbusy hanswers).1.others hne).kept hcleared howned
  | finish _ => rfl
  | clear hclear => exact absurd hclear hcleared
  | pass => rfl

theorem Sound.play_claim_kept (hfaulty : ¬ s.faulty) (hcleared : ¬ s.cleared)
    (hvalid : ∀ i, (s.lock i).config.validate = .ok ())
    (h : arena.Sound s s.timedService s.TimedAnswered) {acts : List (Act ι Lock.TimedCall)}
    (hallows : ∀ act ∈ acts, s.Allows act) (hstopped : .request k ∉ acts)
    (howned : s.IsOwned arena.machine.tree (some k))
    (hplay : arena.play s s.timedService acts = some next) :
    next.machine.tree.below s.claim = arena.machine.tree.below s.claim := by
  have hkept : next.Sound s s.timedService s.TimedAnswered ∧
      next.machine.tree.below s.claim = arena.machine.tree.below s.claim := by
    refine play_induction (P := fun middle => middle.Sound s s.timedService s.TimedAnswered ∧
      middle.machine.tree.below s.claim = arena.machine.tree.below s.claim) hallows ?_ ⟨h, rfl⟩ hplay
    rintro middle next act hmem ⟨hsound, hsame⟩ hstep
    refine ⟨hsound.step (Site.timedService_ensures hvalid) hstep, ?_⟩
    have hother : act ≠ .request k := fun heq => hstopped (heq ▸ hmem)
    rw [← hsame]
    exact hsound.claim_kept hfaulty hcleared (hallows act hmem) hother
      ((Site.isOwned_congr hsame).2 howned) hstep
  exact hkept.2

/-- The second party stops when it has written the held marker into its staging directory. -/
def halfStaged : List (Act Bool Lock.TimedCall) :=
  .call true (.plain .tryClaim) :: List.replicate 4 (.request true)

/-- Then the first party claims the lock and stops. -/
def claimedMeanwhile : List (Act Bool Lock.TimedCall) :=
  halfStaged ++ [.call false (.plain .tryClaim)] ++ List.replicate 8 (.request false) ++ [.finish false]

/-- The second party goes on after all. -/
def resumed : List (Act Bool Lock.TimedCall) := List.replicate 8 (.request true) ++ [.finish true]

end Arena

end DirLock
