import DirLock.Proofs.Lock.Blind

/-!
# What a handle is told to do

The operations of a lock that are over at once, and those that wait, each with what it reports. Whatever
attempts respect, waits respect, since a wait is attempts with pauses between them.
-/

namespace DirLock

open Routine (Respects respects_pure)

/-- The operations that do not wait. Those on guards are told whether the guard is spent. -/
inductive Lock.Operation where
  | tryClaim
  | isHeld
  | isLocked
  | holder
  | unlock
  /-- Tell a guard to release the lock. -/
  | release (spent : Bool)
  /-- Let a guard go away. -/
  | drop (spent : Bool)
  deriving DecidableEq

/-- All that a handle can be told to do with the lock. -/
inductive Lock.Task where
  | once (operation : Operation)
  /-- Wait without a deadline, for so many attempts. -/
  | acquire (tries : Nat)
  | tryAcquire (limit : Time.Span)
  /-- Wait for a guard without a deadline, for so many attempts. -/
  | hold (tries : Nat)
  | tryHold (limit : Time.Span)

/-- What an operation or a wait reports when it is over. -/
inductive Lock.Report where
  | claimed (result : Except LockError Bool)
  | held (result : Bool)
  | locked (result : Except LockError Bool)
  | holder (result : Option Holder)
  | unlocked (result : Except LockError Unit)
  | released (guard : Guard) (result : Except LockError Unit)
  | dropped
  | acquired (result : Option (Except LockError Unit))
  | acquiredInTime (result : Except LockError Bool)
  | guarded (result : Option (Except LockError Guard))
  | guardedInTime (result : Except LockError (Option Guard))

def Lock.Operation.routine (lock : Lock) (claimant : Claimant) : Operation → Routine Report
  | tryClaim => return .claimed (← lock.tryClaim claimant)
  | isHeld => return .held (← lock.isHeld)
  | isLocked => return .locked (← lock.isLocked)
  | holder => return .holder (← lock.holder?)
  | unlock => return .unlocked (← lock.unlock)
  | release spent => do
    let (guard, result) ← (Guard.mk lock spent).release
    return .released guard result
  | drop spent => do
    (Guard.mk lock spent).drop
    return .dropped

def Lock.Task.routine (lock : Lock) (claimant : Claimant) : Task → Routine Report
  | once operation => operation.routine lock claimant
  | acquire tries => return .acquired (← lock.acquire claimant tries)
  | tryAcquire limit => return .acquiredInTime (← lock.tryAcquire claimant limit)
  | hold tries => return .guarded (← lock.hold claimant tries)
  | tryHold limit => return .guardedInTime (← lock.tryHold claimant limit)

variable {lock : Lock} {claimant : Claimant}

/-! ## Waiting -/

section Wait

variable {σ : Type} {answer : (r : Request) → σ → r.Reply × σ} {alike : σ → σ → Prop}
  (hclaim : Respects answer alike (lock.tryClaim claimant))
  (hpause : ∀ nanos, Respects answer alike (Routine.request (.pause nanos)))
  (hnote : ∀ event, Respects answer alike (Routine.note event))
include hclaim hpause

theorem respects_untilDecided (tries made : Nat) :
    Respects answer alike
      (Wait.untilDecided (lock.tryClaim claimant) lock.pauseBetween tries made) := by
  induction tries generalizing made with
  | zero => exact respects_pure _
  | succ tries ih =>
    refine hclaim.bind fun outcome => ?_
    rcases outcome with error | (_ | _)
    · exact respects_pure _
    · have hbetween : Respects answer alike lock.pauseBetween :=
        (hpause _).bind fun _ => respects_pure _
      exact hbetween.bind fun _ => ih (made + 1)
    · exact respects_pure _

include hnote

theorem respects_acquire (tries : Nat) : Respects answer alike (lock.acquire claimant tries) := by
  refine (respects_untilDecided hclaim hpause tries 0).bind fun result => ?_
  rcases result with _ | (error | attempts)
  · exact respects_pure _
  · exact respects_pure _
  · exact (hnote _).bind fun _ => respects_pure _

theorem respects_takeTurns (limit : Time.Span) (turns : Nat) (wait : Wait.Handshake LockError) :
    Respects answer alike (lock.takeTurns claimant limit turns wait) := by
  induction turns generalizing wait with
  | zero => exact respects_pure _
  | succ turns ih =>
    rw [Lock.takeTurns]
    cases wait.turn with
    | «over» outcome => exact respects_pure _
    | call next =>
      dsimp only
      split_ifs
      · exact (hnote _).bind fun _ => ih next
      · exact ih next
    | work next => exact ih next
    | attempt => exact hclaim.bind fun outcome => ih _
    | idle nanos => exact (hpause nanos).bind fun passed => ih _

theorem respects_tryAcquire (limit : Time.Span) :
    Respects answer alike (lock.tryAcquire claimant limit) :=
  (respects_takeTurns hclaim hpause hnote limit _ _).bind fun _ => respects_pure _

theorem respects_task {task : Lock.Task}
    (honce : ∀ operation, task = .once operation → Respects answer alike (operation.routine lock claimant)) :
    Respects answer alike (task.routine lock claimant) := by
  cases task with
  | once operation => exact honce operation rfl
  | acquire tries =>
    exact (respects_acquire hclaim hpause hnote tries).bind fun _ => respects_pure _
  | tryAcquire limit =>
    exact (respects_tryAcquire hclaim hpause hnote limit).bind fun _ => respects_pure _
  | hold tries =>
    have hhold : Respects answer alike (lock.hold claimant tries) :=
      (respects_acquire hclaim hpause hnote tries).bind fun _ => respects_pure _
    exact hhold.bind fun _ => respects_pure _
  | tryHold limit =>
    have hhold : Respects answer alike (lock.tryHold claimant limit) :=
      (respects_tryAcquire hclaim hpause hnote limit).bind fun _ => respects_pure _
    exact hhold.bind fun _ => respects_pure _

end Wait

/-! ## Tasks that ask for no holder -/

variable {supply : Supply} {programs : Machine.Programs}

theorem isBlind_operation {operation : Lock.Operation} (h : operation ≠ .holder) :
    (operation.routine lock claimant).IsBlind supply programs := by
  cases operation with
  | holder => exact absurd rfl h
  | tryClaim => exact isBlind_tryClaim.bind fun _ => respects_pure _
  | isHeld => exact isBlind_isHeld.bind fun _ => respects_pure _
  | isLocked => exact isBlind_isLocked.bind fun _ => respects_pure _
  | unlock => exact isBlind_unlock.bind fun _ => respects_pure _
  | release spent => exact (isBlind_release _).bind fun _ => respects_pure _
  | drop spent => exact (isBlind_drop _).bind fun _ => respects_pure _

theorem isBlind_task {task : Lock.Task} (h : task ≠ .once .holder) :
    (task.routine lock claimant).IsBlind supply programs := by
  refine respects_task isBlind_tryClaim (fun _ => respects_of_isBlind trivial)
    (fun _ => respects_of_isBlind trivial) ?_
  rintro operation rfl
  exact isBlind_operation fun hholder => h (congrArg Lock.Task.once hholder)

end DirLock
