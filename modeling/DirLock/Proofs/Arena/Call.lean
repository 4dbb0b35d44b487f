import DirLock.Proofs.Arena.Basic

/-!
# The calls of a lock

What callers can ask of a lock, as a service of a site: to claim it, to wait for it, to ask who holds
it, and to give it back, by hand or through a guard. What the routines ensure is put together here into
what each call ensures.
-/

namespace DirLock

open Disk (Tree Place Path Fault)

/-- What can be asked of a lock. -/
inductive Lock.Call where
  | tryClaim
  /-- Wait without a deadline. A wait that is given up ends after some attempts and at least one. -/
  | acquire (more : Nat)
  /-- Wait without a deadline for a guard. -/
  | hold (more : Nat)
  | isHeld
  | isLocked
  | unlock
  /-- Release the lock through a guard. -/
  | release
  /-- Let a guard that is not spent go away. -/
  | drop
  deriving DecidableEq

inductive Lock.Answer where
  | claimed (result : Except LockError Bool)
  | acquired (result : Option (Except LockError Unit))
  | guarded (result : Option (Except LockError Guard))
  | held (result : Bool)
  | locked (result : Except LockError Bool)
  | unlocked (result : Except LockError Unit)
  | released (guard : Guard) (result : Except LockError Unit)
  | dropped
  deriving DecidableEq

namespace Lock.Call

def routine (lock : Lock) (claimant : Claimant) : Call → Routine Answer
  | tryClaim => return .claimed (← lock.tryClaim claimant)
  | acquire more => return .acquired (← lock.acquire claimant (more + 1))
  | hold more => return .guarded (← lock.hold claimant (more + 1))
  | isHeld => return .held (← lock.isHeld)
  | isLocked => return .locked (← lock.isLocked)
  | unlock => return .unlocked (← lock.unlock)
  | release => do
    let (guard, result) ← (Guard.of lock).release
    return .released guard result
  | drop => do
    (Guard.of lock).drop
    return .dropped

/-- Whether the call is to give the lock back. -/
def releasing : Call → Bool
  | unlock => true
  | release => true
  | drop => true
  | _ => false

end Lock.Call

/-- Whether the answer says that the caller has the lock. -/
def Lock.Answer.wins : Lock.Answer → Bool
  | claimed (.ok true) => true
  | acquired (some (.ok _)) => true
  | guarded (some (.ok _)) => true
  | _ => false

namespace Site

variable {ι : Type} (s : Site ι)

def service : Service ι Lock.Call Lock.Answer where
  routine i call := call.routine (s.lock i) (s.claimant i)
  releasing := Lock.Call.releasing
  wins := Lock.Answer.wins

/-- What the deeds of a call say about its answer. -/
def Answered (i : ι) (call : Lock.Call) (begun : Tree) (deeds : Deeds) (answer : Lock.Answer)
    (after : Tree) : Prop :=
  match call, answer with
  | .tryClaim, .claimed result => s.Attempted i deeds after result
  | .acquire _, .acquired result => s.Attempted i deeds after (lastOutcome result)
  | .hold _, .guarded result => s.Attempted i deeds after (lastOutcome result) ∧
      ∀ guard, result = some (.ok guard) → guard = Guard.of (s.lock i)
  | .isHeld, .held result => s.Looks i deeds after result
  | .isLocked, .locked result => s.AllQuiet deeds ∧
      ((result = .ok true ∧ ∃ j, s.Sees deeds (some j)) ∨ (result = .ok false ∧ s.Sees deeds none) ∨
        s.faulty)
  | .unlock, .unlocked result => s.Released i begun deeds result
  | .release, .released guard result => s.Released i begun deeds result ∧
      guard = { Guard.of (s.lock i) with spent := true }
  | .drop, .dropped => s.Dropped i begun deeds
  | _, _ => False

variable {s} {i : ι} {tree : Tree}

theorem service_ensures : s.service.Ensures s s.Answered := by
  intro i call tree hclear
  have hfalse : ∀ {P : Prop}, (false = true → P) := fun h => nomatch h
  cases call with
  | tryClaim =>
    apply (ensures_tryClaim hclear).seq
    rintro deeds result after ⟨hclear, hattempted⟩
    exact ⟨hclear, by rwa [List.append_nil]⟩
  | acquire more =>
    apply (ensures_acquire hclear more).seq
    rintro deeds result after ⟨hclear, hattempted⟩
    exact ⟨hclear, by rwa [List.append_nil]⟩
  | hold more =>
    apply (ensures_hold hclear more).seq
    rintro deeds result after ⟨hclear, hattempted⟩
    exact ⟨hclear, by rwa [List.append_nil]⟩
  | isHeld =>
    apply ensures_isHeld.seq
    rintro deeds result after ⟨hothers, -, hlooks⟩
    exact ⟨hclear.others hothers, by rwa [List.append_nil]⟩
  | isLocked =>
    apply ensures_isLocked.seq
    rintro deeds result after ⟨hquiet, hothers, hresult⟩
    exact ⟨hclear.others hothers, by rw [List.append_nil]; exact ⟨hquiet, hresult⟩⟩
  | unlock =>
    refine ((ensures_unlock hclear).weaken fun _ => rfl).seq ?_
    rintro deeds result after ⟨hclear, hreleased⟩
    exact ⟨hclear, hreleased.append_nil⟩
  | release =>
    refine ((ensures_release hclear (Guard.of (s.lock i)) rfl).weaken fun _ => rfl).seq ?_
    rintro deeds result after ⟨hclear, hreleased, hguard⟩
    exact ⟨hclear, hreleased.append_nil, hguard⟩
  | drop =>
    refine ((ensures_drop hclear).weaken fun _ => rfl).seq ?_
    rintro deeds result after ⟨hclear, hdropped⟩
    exact ⟨hclear, by rwa [List.append_nil]⟩

end Site

end DirLock
