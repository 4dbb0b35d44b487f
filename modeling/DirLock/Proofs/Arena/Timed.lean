import DirLock.Proofs.Arena.Exclusion
import DirLock.Proofs.Lock.Await

/-!
# The calls of a lock with waits

All that callers can ask of a lock, waits with a deadline included. Every wait comes with an order in
which its two parties move, so the calls of a wait are all the ways in which it can go.

How a call leaves the lock follows from what its deeds say about its answer (`Settled`): the party got
the lock, or the lock is as it was, or it was the party's and is not any more, or it never was.
-/

namespace DirLock

open Disk (Tree)

/-- What can be asked of a lock, waits with a deadline included. -/
inductive Lock.TimedCall where
  | plain (call : Lock.Call)
  /-- Wait until a deadline, the two parties of the wait moving in this order. -/
  | tryAcquire (limit : Time.Span) (picks : List Wait.Pick)
  /-- Wait for a guard until a deadline. -/
  | tryHold (limit : Time.Span) (picks : List Wait.Pick)
  deriving DecidableEq

inductive Lock.TimedAnswer where
  | plain (answer : Lock.Answer)
  | tried (result : Except LockError Bool)
  | guarded (result : Except LockError (Option Guard))
  deriving DecidableEq

namespace Lock.TimedCall

def routine (lock : Lock) (claimant : Claimant) : TimedCall → Routine TimedAnswer
  | plain call => return .plain (← call.routine lock claimant)
  | tryAcquire limit picks => return .tried (← lock.tryAcquireAlong claimant limit picks)
  | tryHold limit picks => return .guarded (← lock.tryHoldAlong claimant limit picks)

/-- Whether the call is to give the lock back. -/
def releasing : TimedCall → Bool
  | plain call => call.releasing
  | _ => false

end Lock.TimedCall

/-- Whether the answer says that the caller has the lock. -/
def Lock.TimedAnswer.wins : Lock.TimedAnswer → Bool
  | plain answer => answer.wins
  | tried (.ok true) => true
  | guarded (.ok (some _)) => true
  | _ => false

namespace Site

variable {ι : Type} (s : Site ι)

def timedService : Service ι Lock.TimedCall Lock.TimedAnswer where
  routine i call := call.routine (s.lock i) (s.claimant i)
  releasing := Lock.TimedCall.releasing
  wins := Lock.TimedAnswer.wins

/-- What the deeds of a call say about its answer. -/
def TimedAnswered (i : ι) (call : Lock.TimedCall) (begun : Tree) (deeds : Deeds)
    (answer : Lock.TimedAnswer) (after : Tree) : Prop :=
  match call, answer with
  | .plain call, .plain answer => s.Answered i call begun deeds answer after
  | .tryAcquire _ _, .tried result => s.Attempted i deeds after result
  | .tryHold _ _, .guarded result => s.Attempted i deeds after (guardOutcome result) ∧
      ∀ guard, result = .ok (some guard) → guard = Guard.of (s.lock i)
  | _, _ => False

variable {s} {i : ι} {begun tree after : Tree} {deeds : Deeds}

theorem timedService_ensures (hvalid : ∀ i, (s.lock i).config.validate = .ok ()) :
    s.timedService.Ensures s s.TimedAnswered := by
  intro i call tree hclear
  have hdelay := Lock.pauseNanos_pos (hvalid i)
  cases call with
  | plain call =>
    apply (service_ensures i call tree hclear).seq
    rintro deeds answer after ⟨hclear, hanswered⟩
    exact ⟨hclear, by rwa [List.append_nil]⟩
  | tryAcquire limit picks =>
    apply (ensures_tryAcquireAlong hdelay hclear limit picks).seq
    rintro deeds result after ⟨hclear, hattempted⟩
    exact ⟨hclear, by rwa [List.append_nil]⟩
  | tryHold limit picks =>
    apply (ensures_tryHoldAlong hdelay hclear limit picks).seq
    rintro deeds result after ⟨hclear, hattempted⟩
    exact ⟨hclear, by rwa [List.append_nil]⟩

/-! ## How a call leaves the lock -/

/-- How a call leaves the lock, where no request fails for reasons of its own and claims are not removed
by hand. -/
inductive Settled (s : Site ι) (i : ι) (releasing wins : Bool) (deeds : Deeds) (after : Tree) : Prop
  | won : wins = true → s.IsOwned after (some i) → s.Settled i releasing wins deeds after
  | kept : wins = false → releasing = false → s.AllQuiet deeds → s.Settled i releasing wins deeds after
  | gaveBack : wins = false → s.Turns deeds (some i) none → s.Settled i releasing wins deeds after
  | notOwner {owner : Option ι} : wins = false → owner ≠ some i → s.Sees deeds owner →
    s.Settled i releasing wins deeds after

variable {releasing wins : Bool}

theorem Attempted.settled (hfaulty : ¬ s.faulty) (hcleared : ¬ s.cleared)
    {result : Except LockError Bool} (h : s.Attempted i deeds after result)
    (hwins : wins = true ↔ result = .ok true) : s.Settled i false wins deeds after := by
  cases h with
  | acquired hturns howned => exact .won (hwins.2 rfl) (howned hcleared)
  | lost hsees => exact .kept (Bool.eq_false_iff.2 fun h => nomatch hwins.1 h) rfl hsees.1
  | failed h _ _ => exact absurd h hfaulty

theorem Released.settled (hfaulty : ¬ s.faulty) (hcleared : ¬ s.cleared)
    {result : Except LockError Unit} (h : s.Released i begun deeds result) :
    s.Settled i releasing false deeds after := by
  cases h with
  | @released j _ hmine hturns _ _ =>
    obtain rfl := hmine hcleared
    exact .gaveBack rfl hturns
  | notHeld hne hsees _ _ => exact .notOwner rfl hne hsees
  | failed hwhy _ _ => exact absurd hwhy (not_or.2 ⟨hfaulty, hcleared⟩)

theorem Dropped.settled (hfaulty : ¬ s.faulty) (hcleared : ¬ s.cleared)
    (h : s.Dropped i begun deeds) : s.Settled i releasing false deeds after := by
  cases h with
  | @released j hmine hturns =>
    obtain rfl := hmine hcleared
    exact .gaveBack rfl hturns
  | notHeld hne hsees => exact .notOwner rfl hne hsees
  | failed hwhy _ => exact absurd hwhy (not_or.2 ⟨hfaulty, hcleared⟩)

theorem Answered.settled (hfaulty : ¬ s.faulty) (hcleared : ¬ s.cleared) {call : Lock.Call}
    {answer : Lock.Answer} (h : s.Answered i call begun deeds answer after) :
    s.Settled i call.releasing answer.wins deeds after := by
  unfold Answered at h
  split at h
  · rename_i result
    refine h.settled hfaulty hcleared ?_
    rcases result with error | (_ | _) <;> simp [Lock.Answer.wins]
  · rename_i result
    refine h.settled hfaulty hcleared ?_
    rcases result with _ | (error | _) <;> simp [Lock.Answer.wins, lastOutcome]
  · rename_i result
    refine h.1.settled hfaulty hcleared ?_
    rcases result with _ | (error | _) <;> simp [Lock.Answer.wins, lastOutcome]
  · cases h with
    | held hsees _ => exact .kept rfl rfl hsees.1
    | notHeld _ hsees _ => exact .kept rfl rfl hsees.1
    | failed h _ => exact absurd h hfaulty
  · exact .kept rfl rfl h.1
  · exact h.settled hfaulty hcleared
  · exact h.1.settled hfaulty hcleared
  · exact h.settled hfaulty hcleared
  · exact h.elim

theorem TimedAnswered.settled (hfaulty : ¬ s.faulty) (hcleared : ¬ s.cleared)
    {call : Lock.TimedCall} {answer : Lock.TimedAnswer}
    (h : s.TimedAnswered i call begun deeds answer after) :
    s.Settled i call.releasing answer.wins deeds after := by
  unfold TimedAnswered at h
  split at h
  · exact h.settled hfaulty hcleared
  · rename_i result
    refine h.settled hfaulty hcleared ?_
    rcases result with error | (_ | _) <;> simp [Lock.TimedAnswer.wins]
  · rename_i result
    refine h.1.settled hfaulty hcleared ?_
    rcases result with error | (_ | guard) <;>
      simp [Lock.TimedAnswer.wins, guardOutcome, Except.map]
  · exact h.elim

end Site

end DirLock
