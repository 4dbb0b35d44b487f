import DirLock.Proofs.Routine.Run
import Mathlib.Algebra.GroupWithZero.Nat
import Mathlib.Tactic.SplitIfs

/-!
# Requests kept apart

A routine keeps the requests of one kind apart if so many nanoseconds of pauses pass after each of them before
it makes the next, however it is answered. What is still owed before the next one goes through the routine as a
number, so that routines that follow each other can be looked at one by one; what a run has paused is then read
off its trace.
-/

namespace DirLock

/-- The nanoseconds that pass while a request is answered, as the reply says. -/
def Request.time : (r : Request) → r.Reply → Nat
  | .pause _, passed => passed
  | _, _ => 0

/-- No pause is shorter than what was asked for. -/
def Request.Honest : (r : Request) → r.Reply → Prop
  | .pause nanos, passed => nanos ≤ passed
  | _, _ => True

namespace Routine

variable {α β σ : Type} {mark : Request} {gap owed : Nat}

/-- From where so many nanoseconds are owed before the next `mark`, and with a gap after each, the routine goes
through as long as no pause is too short. What holds at its end is said of its value and of what is owed then. -/
def KeepsApart (mark : Request) (gap : Nat) : Routine α → Nat → (α → Nat → Prop) → Prop
  | done value, owed, post => post value owed
  | ask r next, owed, post => (r = mark → owed = 0) ∧ ∀ reply, r.Honest reply →
      (next reply).KeepsApart mark gap (if r = mark then gap else owed - r.time reply) post

theorem KeepsApart.mono {routine : Routine α} {post post' : α → Nat → Prop}
    (h : routine.KeepsApart mark gap owed post) (himp : ∀ value left, post value left → post' value left) :
    routine.KeepsApart mark gap owed post' := by
  induction routine generalizing owed with
  | done value => exact himp _ _ h
  | ask r next ih => exact ⟨h.1, fun reply hreply => ih reply (h.2 reply hreply)⟩

theorem KeepsApart.bind {routine : Routine α} {f : α → Routine β} {post : α → Nat → Prop} {post' : β → Nat → Prop}
    (h : routine.KeepsApart mark gap owed post)
    (hnext : ∀ value left, post value left → (f value).KeepsApart mark gap left post') :
    (routine >>= f).KeepsApart mark gap owed post' := by
  rw [bind_eq]
  induction routine generalizing owed with
  | done value => exact hnext _ _ h
  | ask r next ih => exact ⟨h.1, fun reply hreply => ih reply (h.2 reply hreply)⟩

theorem keepsApart_of_uses {routine : Routine α} (h : routine.Uses (· ≠ mark)) :
    routine.KeepsApart mark gap owed fun _ left => left ≤ owed := by
  induction routine generalizing owed with
  | done value => exact Nat.le_refl _
  | ask r next ih =>
    refine ⟨fun heq => absurd heq h.1, fun reply _ => ?_⟩
    rw [if_neg h.1]
    exact (ih reply (h.2 reply)).mono fun _ left hleft => Nat.le_trans hleft (Nat.sub_le _ _)

/-- A pause takes off what is owed at least what was asked for. -/
theorem keepsApart_pause {nanos : Nat} {f : Nat → Routine β} {post : β → Nat → Prop} (hmark : .pause nanos ≠ mark)
    (hnext : ∀ passed, nanos ≤ passed → (f passed).KeepsApart mark gap (owed - passed) post) :
    (request (.pause nanos) >>= f).KeepsApart mark gap owed post := by
  refine ⟨fun heq => absurd heq hmark, fun passed hpassed => ?_⟩
  rw [if_neg hmark]
  exact hnext passed hpassed

/-! ## Traces -/

variable {answer : (r : Request) → σ → r.Reply × σ}

def paused (answer : (r : Request) → σ → r.Reply × σ) (made : List (Request × σ)) : Nat :=
  (made.map fun one => one.1.time (answer one.1 one.2).1).sum

theorem KeepsApart.owed_le {routine : Routine α} {post : α → Nat → Prop}
    (h : routine.KeepsApart mark gap owed post) (hhonest : ∀ (r : Request) state, r.Honest (answer r state).1)
    {state next : σ} {before after : List (Request × σ)}
    (htrace : routine.trace answer state = before ++ (mark, next) :: after) :
    owed ≤ paused answer before := by
  induction routine generalizing owed state before with
  | done value => exact absurd htrace.symm (by simp [trace])
  | ask r next ih =>
    rcases List.cons_eq_append_iff.1 htrace with ⟨rfl, hhere⟩ | ⟨before, rfl, hlater⟩
    · obtain ⟨hr, -⟩ := List.cons.inj hhere
      rw [h.1 (congrArg Prod.fst hr).symm]
      exact Nat.zero_le _
    · have hrest := ih _ (h.2 _ (hhonest r state)) hlater
      rw [paused, List.map_cons, List.sum_cons, ← paused]
      by_cases hmark : r = mark
      · rw [h.1 hmark]
        exact Nat.zero_le _
      · rw [if_neg hmark] at hrest
        dsimp only
        omega

/-- In the run of a routine that keeps requests apart, the gap lies between any two of them. -/
theorem KeepsApart.gap_le {routine : Routine α} {post : α → Nat → Prop}
    (h : routine.KeepsApart mark gap owed post) (hhonest : ∀ (r : Request) state, r.Honest (answer r state).1)
    {state first second : σ} {before between after : List (Request × σ)}
    (htrace : routine.trace answer state = before ++ (mark, first) :: (between ++ (mark, second) :: after)) :
    gap ≤ paused answer between := by
  induction routine generalizing owed state before with
  | done value => exact absurd htrace.symm (by simp [trace])
  | ask r next ih =>
    rcases List.cons_eq_append_iff.1 htrace with ⟨rfl, hhere⟩ | ⟨before, rfl, hlater⟩
    · obtain ⟨hr, hbetween⟩ := List.cons.inj hhere
      have hrest := h.2 _ (hhonest r state)
      rw [if_pos (congrArg Prod.fst hr).symm] at hrest
      exact hrest.owed_le hhonest hbetween.symm
    · exact ih _ (h.2 _ (hhonest r state)) hlater

end Routine

end DirLock
