import DirLock.Proofs.Lock.Course
import DirLock.Proofs.Wait.Replay

/-!
# Trying again

There are two loops that try again: that of a wait without a deadline, and that of the worker of a wait with one,
which can be cancelled between two attempts. Both stop at the first attempt that decides, and if nobody cancels
before that they are the same run, up to the note that the lock was acquired.

Both are taken apart at the same place. What comes first are the rounds that are lost, and for either loop that takes
one lemma about one round. What comes last is an attempt that decides, or one that is lost and whose wait is
cancelled.

In a wait with a deadline the worker moves in turn with the caller. What it sees in such a run is what its loop asks
for, so its loop can be run again on it.
-/

namespace DirLock

open Routine (SameRun)
open Wait (Handshake Move Outcome Replay Sight outcomes)

/-- Of these outcomes, this one is the first that decides. -/
def Wait.DecidedAt {ε : Type} (outs : Nat → Outcome ε) (n : Nat) : Prop :=
  (∀ i < n, outs i = .ok false) ∧ outs n ≠ .ok false

open Wait (DecidedAt)

namespace Lock

variable {σ : Type} {lock : Lock} {claimant : Claimant} {answer : (r : Request) → σ → r.Reply × σ} {state : σ}
  {n k nanos tries made waited : Nat} {cancelled : Nat → Option Nat}

/-! ## The loop without a deadline -/

/-- What a wait without a deadline does when an attempt has decided. -/
def conclude (lock : Lock) (attempts : Nat) : Option (Outcome LockError) → Routine (Option (Except LockError Unit))
  | none => return none
  | some (.error error) => return some (.error error)
  | some (.ok _) => do
    Routine.note (.acquired lock.name.text attempts)
    return some (.ok ())

theorem sameRun_untilDecided_round (hlost : ((lock.tryClaim claimant).run answer state).1 = .ok false)
    (tries made : Nat) :
    SameRun answer (Wait.untilDecided (lock.tryClaim claimant) lock.pauseBetween (tries + 1) made)
      (lock.round claimant >>= fun _ => Wait.untilDecided (lock.tryClaim claimant) lock.pauseBetween tries (made + 1))
      state := by
  rw [Wait.untilDecided, round, bind_assoc]
  apply SameRun.after
  rw [hlost]
  exact .refl _ _

theorem sameRun_untilDecided (hlost : ∀ i < n, lock.outcomeAfter claimant answer state i = .ok false)
    (htries : n ≤ tries) :
    SameRun answer (Wait.untilDecided (lock.tryClaim claimant) lock.pauseBetween tries 0)
      (lock.rounds claimant n >>= fun _ =>
        Wait.untilDecided (lock.tryClaim claimant) lock.pauseBetween (tries - n) n) state := by
  apply sameRun_rounds (fun i => Wait.untilDecided (lock.tryClaim claimant) lock.pauseBetween (tries - i) i) hlost
  intro i hi after hattempt
  have hleft : tries - i = tries - (i + 1) + 1 := by omega
  rw [hleft]
  exact sameRun_untilDecided_round hattempt _ i

theorem sameRun_untilDecided_last (hdecides : ((lock.tryClaim claimant).run answer state).1 ≠ .ok false)
    (tries made : Nat) :
    SameRun answer (Wait.untilDecided (lock.tryClaim claimant) lock.pauseBetween (tries + 1) made)
      (lock.tryClaim claimant >>= fun outcome => pure (some (outcome.map fun _ => made + 1))) state := by
  rw [Wait.untilDecided]
  apply SameRun.after
  revert hdecides
  rcases ((lock.tryClaim claimant).run answer state).1 with error | (_ | _)
  · exact fun _ => .refl _ _
  · exact fun hdecides => absurd rfl hdecides
  · exact fun _ => .refl _ _

theorem sameRun_acquire (hdecided : DecidedAt (lock.outcomeAfter claimant answer state) n) (htries : n < tries) :
    SameRun answer (lock.acquire claimant tries)
      (lock.attemptAfter claimant n >>= fun outcome => lock.conclude (n + 1) (some outcome)) state := by
  obtain ⟨hlost, hlast⟩ := hdecided
  rw [outcomeAfter_eq] at hlast
  have hleft : tries - n = tries - (n + 1) + 1 := by omega
  apply ((sameRun_untilDecided hlost (Nat.le_of_lt htries)).bind _).trans
  rw [attemptAfter, bind_assoc, bind_assoc, hleft]
  apply SameRun.after
  apply ((sameRun_untilDecided_last hlast _ n).bind _).trans
  rw [bind_assoc]
  apply SameRun.after
  cases ((lock.tryClaim claimant).run answer ((lock.rounds claimant n).run answer state).2).1 <;> exact .refl _ _

theorem sameRun_acquire_lost (hlost : ∀ i < tries, lock.outcomeAfter claimant answer state i = .ok false) :
    SameRun answer (lock.acquire claimant tries) (lock.rounds claimant tries >>= fun _ => pure none) state := by
  apply ((sameRun_untilDecided hlost (Nat.le_refl tries)).bind _).trans
  rw [bind_assoc, Nat.sub_self]
  exact .refl _ _

/-! ## The worker's loop -/

/-- The wait after an attempt. It takes the whole delay unless it is cancelled, after so many nanoseconds. -/
def waitUnless (lock : Lock) : Option Nat → Routine Bool
  | none => do
    lock.pauseBetween
    return false
  | some nanos => do
    let _ ← Routine.request (.pause nanos)
    return true

/-- The worker's loop with so many waits behind it. Which of its waits are cancelled is given, and after how many
nanoseconds. -/
def retry (lock : Lock) (claimant : Claimant) (cancelled : Nat → Option Nat) (tries waited : Nat) :
    Routine (Option (Outcome LockError)) :=
  let wait : StateT Nat Routine Bool := fun waited => do
    return (← lock.waitUnless (cancelled waited), waited + 1)
  (Wait.untilCancelled (StateT.lift (lock.tryClaim claimant)) wait tries).run' waited

/-- The first wait that is cancelled is this one, after so many nanoseconds. -/
def CancelledAt (cancelled : Nat → Option Nat) (k nanos : Nat) : Prop :=
  (∀ i < k, cancelled i = none) ∧ cancelled k = some nanos

theorem retry_succ (tries waited : Nat) : lock.retry claimant cancelled (tries + 1) waited =
    lock.tryClaim claimant >>= fun outcome =>
      match outcome with
      | .ok true => pure (some (.ok true))
      | .error error => pure (some (.error error))
      | .ok false => lock.waitUnless (cancelled waited) >>= fun isCancelled =>
        if isCancelled then pure (some (.ok false)) else lock.retry claimant cancelled tries (waited + 1) := by
  simp only [retry, Wait.untilCancelled, StateT.run'_eq, StateT.run_bind, StateT.run_lift, bind_assoc, pure_bind,
    map_bind]
  congr 1
  funext outcome
  rcases outcome with error | (_ | _)
  · rfl
  · simp only [StateT.run_bind, map_bind]
    rw [StateT.run, bind_assoc]
    congr 1
    funext isCancelled
    cases isCancelled <;> rfl
  · rfl

theorem sameRun_retry_round (hlost : ((lock.tryClaim claimant).run answer state).1 = .ok false)
    (hgoes : cancelled waited = none) (tries : Nat) :
    SameRun answer (lock.retry claimant cancelled (tries + 1) waited)
      (lock.round claimant >>= fun _ => lock.retry claimant cancelled tries (waited + 1)) state := by
  rw [retry_succ, round, bind_assoc, hgoes, waitUnless]
  apply SameRun.after
  rw [hlost]
  exact .refl _ _

theorem sameRun_retry (hlost : ∀ i < n, lock.outcomeAfter claimant answer state i = .ok false)
    (hgoes : ∀ i < n, cancelled i = none) (htries : n ≤ tries) :
    SameRun answer (lock.retry claimant cancelled tries 0)
      (lock.rounds claimant n >>= fun _ => lock.retry claimant cancelled (tries - n) n) state := by
  apply sameRun_rounds (fun i => lock.retry claimant cancelled (tries - i) i) hlost
  intro i hi after hattempt
  have hleft : tries - i = tries - (i + 1) + 1 := by omega
  rw [hleft]
  exact sameRun_retry_round hattempt (hgoes i hi) _

theorem sameRun_retry_last (hdecides : ((lock.tryClaim claimant).run answer state).1 ≠ .ok false)
    (tries waited : Nat) :
    SameRun answer (lock.retry claimant cancelled (tries + 1) waited)
      (lock.tryClaim claimant >>= fun outcome => pure (some outcome)) state := by
  rw [retry_succ]
  apply SameRun.after
  revert hdecides
  rcases ((lock.tryClaim claimant).run answer state).1 with error | (_ | _)
  · exact fun _ => .refl _ _
  · exact fun hdecides => absurd rfl hdecides
  · exact fun _ => .refl _ _

theorem sameRun_retry_decided (hdecided : DecidedAt (lock.outcomeAfter claimant answer state) n)
    (hgoes : ∀ i < n, cancelled i = none) (htries : n < tries) :
    SameRun answer (lock.retry claimant cancelled tries 0)
      (lock.attemptAfter claimant n >>= fun outcome => pure (some outcome)) state := by
  obtain ⟨hlost, hlast⟩ := hdecided
  rw [outcomeAfter_eq] at hlast
  have hleft : tries - n = tries - (n + 1) + 1 := by omega
  apply (sameRun_retry hlost hgoes (Nat.le_of_lt htries)).trans
  rw [attemptAfter, bind_assoc, hleft]
  apply SameRun.after
  exact sameRun_retry_last hlast _ n

theorem sameRun_retry_cancelled (hlost : ∀ i ≤ k, lock.outcomeAfter claimant answer state i = .ok false)
    (hcancelled : CancelledAt cancelled k nanos) (htries : k < tries) :
    SameRun answer (lock.retry claimant cancelled tries 0)
      (lock.attemptAfter claimant k >>= fun outcome =>
        Routine.request (.pause nanos) >>= fun _ => pure (some outcome)) state := by
  obtain ⟨hgoes, hhere⟩ := hcancelled
  have hlast := hlost k (Nat.le_refl k)
  rw [outcomeAfter_eq] at hlast
  have hleft : tries - k = tries - (k + 1) + 1 := by omega
  apply (sameRun_retry (fun i hi => hlost i (Nat.le_of_lt hi)) hgoes (Nat.le_of_lt htries)).trans
  rw [attemptAfter, bind_assoc, hleft, retry_succ, hhere, waitUnless]
  apply SameRun.after
  apply SameRun.after
  rw [hlast]
  exact .refl _ _

theorem sameRun_retry_lost (hlost : ∀ i < tries, lock.outcomeAfter claimant answer state i = .ok false)
    (hgoes : ∀ i < tries, cancelled i = none) :
    SameRun answer (lock.retry claimant cancelled tries 0)
      (lock.rounds claimant tries >>= fun _ => pure none) state := by
  have hrounds := sameRun_retry hlost hgoes (Nat.le_refl tries)
  rw [Nat.sub_self] at hrounds
  exact hrounds

/-! ## The worker as it runs -/

/-- The run is that of a wait that comes to its end, by moves of its two parties that make the attempts of the run. -/
def Plays (lock : Lock) (claimant : Claimant) (answer : (r : Request) → σ → r.Reply × σ)
    (wait : Handshake LockError) (routine : Routine (Option (Outcome LockError))) (state : σ) : Prop :=
  ∃ moves last outcome, wait.play moves = some last ∧ last.caller = .returned outcome ∧
    (routine.run answer state).1 = some outcome ∧ outcomes moves = lock.attempts claimant answer routine state

variable {wait next : Handshake LockError} {move : Move LockError} {past : List (Move LockError)} {maxWait : Nat}
  {limit : Time.Span} {routine : Routine (Option (Outcome LockError))}

theorem Plays.silent {α : Type} {first : Routine α} {f : α → Routine (Option (Outcome LockError))}
    (hnone : lock.attempts claimant answer first state = [])
    (h : lock.Plays claimant answer wait (f (first.run answer state).1) (first.run answer state).2) :
    lock.Plays claimant answer wait (first >>= f) state := by
  obtain ⟨moves, last, outcome, hplay, hreturned, hrun, houts⟩ := h
  refine ⟨moves, last, outcome, hplay, hreturned, ?_, ?_⟩
  · rw [Routine.bind_eq, Routine.run_bind]
    exact hrun
  · rw [attempts_bind, hnone, houts, List.nil_append]

theorem Plays.of_move (hmove : wait.move? move = some next) (hout : move.outcome? = none)
    (h : lock.Plays claimant answer next routine state) : lock.Plays claimant answer wait routine state := by
  obtain ⟨moves, last, outcome, hplay, hreturned, hrun, houts⟩ := h
  refine ⟨move :: moves, last, outcome, ?_, hreturned, hrun, ?_⟩
  · rw [Handshake.play, hmove]
    exact hplay
  · rw [outcomes, List.filterMap_cons_none hout]
    exact houts

theorem Plays.attempt {f : Outcome LockError → Routine (Option (Outcome LockError))}
    (hworker : wait.worker = .attempting)
    (h : lock.Plays claimant answer (wait.afterAttempt ((lock.tryClaim claimant).run answer state).1)
      (f ((lock.tryClaim claimant).run answer state).1) ((lock.tryClaim claimant).run answer state).2) :
    lock.Plays claimant answer wait (lock.tryClaim claimant >>= f) state := by
  obtain ⟨moves, last, outcome, hplay, hreturned, hrun, houts⟩ := h
  refine ⟨.attempted ((lock.tryClaim claimant).run answer state).1 :: moves, last, outcome, ?_, hreturned, ?_, ?_⟩
  · rw [Handshake.play, Handshake.move_of_attempting hworker]
    exact hplay
  · rw [Routine.bind_eq, Routine.run_bind]
    exact hrun
  · have hone : lock.attempts claimant answer (lock.tryClaim claimant) state =
        [((lock.tryClaim claimant).run answer state).1] := by
      rw [attempts, beats_tryClaim]
      rfl
    rw [attempts_bind, hone, ← houts]
    rfl

theorem plays_takeTurns (hdelay : 0 < lock.pauseNanos)
    (hpauses : ∀ nanos state, nanos ≤ (answer (.pause nanos) state).1) {turns : Nat}
    (hpaced : wait.Paced lock.pauseNanos maxWait past) (hturns : wait.turnsLeft ≤ turns) :
    lock.Plays claimant answer wait (lock.takeTurns claimant limit turns wait) state := by
  -- Every turn is a move and leaves fewer turns to go, so the turns that are given do not run out.
  induction turns generalizing state wait past with
  | zero =>
    have hpos := wait.turnsLeft_pos
    omega
  | succ turns ih =>
    have hspec := wait.turnOf_turn
    rw [takeTurns]
    cases hturn : wait.turn with
    | «over» outcome =>
      rw [hturn] at hspec
      cases hspec with
      | «over» hreturned => exact ⟨[], wait, outcome, rfl, hreturned, rfl, rfl⟩
    | call next =>
      rw [hturn] at hspec
      cases hspec with
      | call hcall =>
        have hmove : wait.move? .call = some next := hcall
        have hless := Handshake.turnsLeft_of_call hcall
        dsimp only
        split_ifs
        · exact Plays.silent rfl (Plays.of_move hmove rfl (ih (hpaced.move hmove) (by omega)))
        · exact Plays.of_move hmove rfl (ih (hpaced.move hmove) (by omega))
    | work next =>
      rw [hturn] at hspec
      cases hspec with
      | work hcall hwork =>
        have hmove : wait.move? .work = some next := hwork
        have hless := Handshake.turnsLeft_of_work hpaced hcall hwork
        exact Plays.of_move hmove rfl (ih (hpaced.move hmove) (by omega))
    | attempt =>
      rw [hturn] at hspec
      cases hspec with
      | attempt hcall hworker =>
        have hless := Handshake.turnsLeft_of_attempt hpaced hdelay hcall hworker
          ((lock.tryClaim claimant).run answer state).1
        exact Plays.attempt hworker
          (ih (hpaced.move (Handshake.move_of_attempting hworker _)) (by omega))
    | idle nanos =>
      rw [hturn] at hspec
      cases hspec with
      | idle hreturned hcall hwork hattempting =>
        have hless := Handshake.turnsLeft_of_idle hpaced hreturned hcall hwork hattempting
          (hpauses wait.timeLeft state)
        have hmove : wait.move? (.tick (answer (.pause wait.timeLeft) state).1) =
            some { wait with clock := wait.clock + (answer (.pause wait.timeLeft) state).1 } := rfl
        exact Plays.silent rfl (Plays.of_move hmove rfl (ih (hpaced.move hmove) (by omega)))

/-- It does not matter in which order the parties moved before. -/
theorem plays_followPicks {picks : List Wait.Pick} {rest : Handshake LockError → Routine (Option (Outcome LockError))}
    (hrest : ∀ wait past state, wait.Paced lock.pauseNanos maxWait past →
      lock.Plays claimant answer wait (rest wait) state)
    (hpaced : wait.Paced lock.pauseNanos maxWait past) :
    lock.Plays claimant answer wait (lock.followPicks claimant limit picks wait >>= rest) state := by
  induction picks generalizing state wait past with
  | nil => exact hrest wait past state hpaced
  | cons pick picks ih =>
    have hpick : ∀ (move : Move LockError) (state : σ), move.outcome? = none →
        lock.Plays claimant answer wait
          (lock.followPicks claimant limit picks ((wait.move? move).getD wait) >>= rest) state := by
      intro move state hout
      cases hmove : wait.move? move with
      | none => exact ih hpaced
      | some next => exact Plays.of_move hmove hout (ih (hpaced.move hmove))
    cases pick with
    | attempt =>
      rw [followPicks]
      split
      · rename_i hworker
        rw [bind_assoc]
        exact Plays.attempt hworker (ih (hpaced.move (Handshake.move_of_attempting hworker _)))
      · exact ih hpaced
    | work => exact hpick .work state rfl
    | call =>
      rw [followPicks]
      split_ifs
      · rw [bind_assoc]
        exact Plays.silent rfl (hpick .call _ rfl)
      · exact hpick .call state rfl
    | missStop => exact hpick .missStop state rfl
    | missReport => exact hpick .missReport state rfl
    | pass nanos =>
      have hmove : wait.move? (.tick (answer (.pause nanos) state).1) =
          some { wait with clock := wait.clock + (answer (.pause nanos) state).1 } := rfl
      rw [followPicks, bind_assoc]
      exact Plays.silent rfl (Plays.of_move hmove rfl (ih (hpaced.move hmove)))

theorem Plays.getD (h : lock.Plays claimant answer wait routine state) (default : Outcome LockError) :
    ∃ moves last, wait.play moves = some last ∧
      last.caller = .returned ((routine >>= fun result => pure (result.getD default)).run answer state).1 ∧
      outcomes moves =
        lock.attempts claimant answer (routine >>= fun result => pure (result.getD default)) state := by
  obtain ⟨moves, last, outcome, hplay, hreturned, hrun, houts⟩ := h
  refine ⟨moves, last, hplay, ?_, ?_⟩
  · rw [hreturned, Routine.bind_eq, Routine.run_bind, hrun]
    rfl
  · rw [attempts_bind, houts]
    exact (List.append_nil _).symm

theorem play_tryAcquireAlong (hdelay : 0 < lock.pauseNanos)
    (hpauses : ∀ nanos state, nanos ≤ (answer (.pause nanos) state).1) (limit : Time.Span)
    (picks : List Wait.Pick) (state : σ) :
    ∃ moves last, (Handshake.start lock.pauseNanos limit.toNanos).play moves = some last ∧
      last.caller = .returned ((lock.tryAcquireAlong claimant limit picks).run answer state).1 ∧
      outcomes moves = lock.attempts claimant answer (lock.tryAcquireAlong claimant limit picks) state := by
  have hplays : lock.Plays claimant answer (.start lock.pauseNanos limit.toNanos)
      (lock.followPicks claimant limit picks (.start lock.pauseNanos limit.toNanos) >>= fun wait =>
        lock.takeTurns claimant limit (lock.turnsWithin limit) wait) state := by
    apply plays_followPicks _ (.start lock.pauseNanos limit.toNanos)
    intro wait past state hpaced
    exact plays_takeTurns hdelay hpauses hpaced (turnsLeft_le_turnsWithin hdelay hpaced)
  have hgetD := hplays.getD (.ok false)
  rwa [bind_assoc] at hgetD

/-! ## Both loops -/

theorem course_conclude (attempts : Nat) (outcome : Outcome LockError) :
    lock.Course claimant answer (lock.conclude attempts (some outcome)) state
      (some (outcome.map fun _ => ())) [] := by
  cases outcome <;> exact ⟨rfl, rfl⟩

theorem acquire_decided (hdecided : DecidedAt (lock.outcomeAfter claimant answer state) n) (htries : n < tries) :
    lock.Course claimant answer (lock.acquire claimant tries) state
      (some ((lock.outcomeAfter claimant answer state n).map fun _ => ()))
      (lock.lostRounds n ++ [.attempted (lock.outcomeAfter claimant answer state n)]) := by
  apply Course.of_same (sameRun_acquire hdecided htries)
  exact (course_attemptAfter hdecided.1).bind_nil fun _ => course_conclude _ _

theorem retry_decided (hdecided : DecidedAt (lock.outcomeAfter claimant answer state) n)
    (hgoes : ∀ i < n, cancelled i = none) (htries : n < tries) :
    lock.Course claimant answer (lock.retry claimant cancelled tries 0) state
      (some (lock.outcomeAfter claimant answer state n))
      (lock.lostRounds n ++ [.attempted (lock.outcomeAfter claimant answer state n)]) := by
  apply Course.of_same (sameRun_retry_decided hdecided hgoes htries)
  exact (course_attemptAfter hdecided.1).bind_nil fun _ => course_pure _

theorem retry_cancelled (hlost : ∀ i ≤ k, lock.outcomeAfter claimant answer state i = .ok false)
    (hcancelled : CancelledAt cancelled k nanos) (htries : k < tries) :
    lock.Course claimant answer (lock.retry claimant cancelled tries 0) state (some (.ok false))
      (lock.lostRounds k ++ [.attempted (.ok false), .paused nanos]) := by
  have hcourse := course_attemptAfter fun i hi => hlost i (Nat.le_of_lt hi)
  rw [hlost k (Nat.le_refl k)] at hcourse
  apply Course.of_same (sameRun_retry_cancelled hlost hcancelled htries)
  rw [List.append_cons]
  exact hcourse.bind fun _ => ⟨rfl, rfl⟩

/-- The worker's loop is over with the attempt that decides, or with the wait that is cancelled, whichever comes
first. -/
theorem retry_first (hdecided : DecidedAt (lock.outcomeAfter claimant answer state) n)
    (hcancelled : CancelledAt cancelled k nanos) (htries : min n k < tries) :
    lock.Course claimant answer (lock.retry claimant cancelled tries 0) state
        (some (if n ≤ k then lock.outcomeAfter claimant answer state n else .ok false))
        (if n ≤ k then lock.lostRounds n ++ [.attempted (lock.outcomeAfter claimant answer state n)]
        else lock.lostRounds k ++ [.attempted (.ok false), .paused nanos]) := by
  split_ifs with hle
  · rw [Nat.min_eq_left hle] at htries
    exact retry_decided hdecided (fun i hi => hcancelled.1 i (Nat.lt_of_lt_of_le hi hle)) htries
  · have hlt : k < n := Nat.lt_of_not_le hle
    rw [Nat.min_eq_right (Nat.le_of_lt hlt)] at htries
    exact retry_cancelled (fun i hi => hdecided.1 i (Nat.lt_of_le_of_lt hi hlt)) hcancelled htries

theorem sameRun_acquire_retry (hdecided : DecidedAt (lock.outcomeAfter claimant answer state) n)
    (hgoes : ∀ i < n, cancelled i = none) (htries : n < tries) :
    SameRun answer (lock.acquire claimant tries)
      (lock.retry claimant cancelled tries 0 >>= lock.conclude (n + 1)) state := by
  have hretry := (sameRun_retry_decided hdecided hgoes htries).bind (lock.conclude (n + 1))
  rw [bind_assoc] at hretry
  exact (sameRun_acquire hdecided htries).trans hretry.symm

/-- Both loops stop at the first attempt that decides, and agree. If `n` attempts are lost before it, a wait without a
deadline is over with `n` delays and that attempt, and so is the worker unless it is cancelled in a wait before; as
long as it is not, the two runs are the same. If no attempt decides, a wait without a deadline goes on through whatever
tries it is given, and the worker is over only if it is cancelled. The worker that runs beside the caller, in whatever
order the two move, runs this loop: run again on what it saw, the loop ends with what the wait returns, after the first
attempt that decides or the first wait in which it sees that it is to stop. -/
theorem retries_agree {σ : Type} (lock : Lock) (claimant : Claimant) (answer : (r : Request) → σ → r.Reply × σ)
    (state : σ) (cancelled : Nat → Option Nat) :
    (∀ n, DecidedAt (lock.outcomeAfter claimant answer state) n →
      (∀ tries, n < tries →
        lock.Course claimant answer (lock.acquire claimant tries) state
          (some ((lock.outcomeAfter claimant answer state n).map fun _ => ()))
          (lock.lostRounds n ++ [.attempted (lock.outcomeAfter claimant answer state n)]) ∧
        (lock.attempts claimant answer (lock.acquire claimant tries) state).length = n + 1) ∧
      (∀ k nanos tries, CancelledAt cancelled k nanos → min n k < tries →
        lock.Course claimant answer (lock.retry claimant cancelled tries 0) state
          (some (if n ≤ k then lock.outcomeAfter claimant answer state n else .ok false))
          (if n ≤ k then lock.lostRounds n ++ [.attempted (lock.outcomeAfter claimant answer state n)]
          else lock.lostRounds k ++ [.attempted (.ok false), .paused nanos]) ∧
        (lock.attempts claimant answer (lock.retry claimant cancelled tries 0) state).length = min n k + 1) ∧
      ((∀ i < n, cancelled i = none) → ∀ tries, n < tries →
        ((lock.retry claimant cancelled tries 0).run answer state).1 =
            some (lock.outcomeAfter claimant answer state n) ∧
          SameRun answer (lock.acquire claimant tries)
            (lock.retry claimant cancelled tries 0 >>= lock.conclude (n + 1)) state)) ∧
    ((∀ i, lock.outcomeAfter claimant answer state i = .ok false) → ∀ tries,
      lock.Course claimant answer (lock.acquire claimant tries) state none (lock.lostRounds tries) ∧
      ((∀ i < tries, cancelled i = none) →
        lock.Course claimant answer (lock.retry claimant cancelled tries 0) state none (lock.lostRounds tries)) ∧
      ∀ k nanos, CancelledAt cancelled k nanos → k < tries →
        lock.Course claimant answer (lock.retry claimant cancelled tries 0) state (some (.ok false))
          (lock.lostRounds k ++ [.attempted (.ok false), .paused nanos])) ∧
    (0 < lock.pauseNanos → (∀ nanos state, nanos ≤ (answer (.pause nanos) state).1) → ∀ limit picks,
      ∃ moves last n, (Handshake.start lock.pauseNanos limit.toNanos).play moves = some last ∧
        last.caller = .returned ((lock.tryAcquireAlong claimant limit picks).run answer state).1 ∧
        (Handshake.seen moves (.start lock.pauseNanos limit.toNanos)).filterMap Sight.outcome? =
          lock.attempts claimant answer (lock.tryAcquireAlong claimant limit picks) state ∧
        Replay.loop (n + 1) (Handshake.seen moves (.start lock.pauseNanos limit.toNanos)) =
          some (some ((lock.tryAcquireAlong claimant limit picks).run answer state).1, []) ∧
        Replay.Stops (Handshake.seen moves (.start lock.pauseNanos limit.toNanos)) n
          ((lock.tryAcquireAlong claimant limit picks).run answer state).1) := by
  refine ⟨?_, ?_, ?_⟩
  · intro n hdecided
    refine ⟨?_, ?_, ?_⟩
    · intro tries htries
      have hcourse := lock.acquire_decided hdecided htries
      exact ⟨hcourse, hcourse.length_attempts.trans (lock.length_lostRounds_append n _ rfl)⟩
    · intro k nanos tries hcancelled htries
      have hcourse := lock.retry_first hdecided hcancelled htries
      refine ⟨hcourse, hcourse.length_attempts.trans ?_⟩
      split_ifs with hle
      · rw [Nat.min_eq_left hle]
        exact lock.length_lostRounds_append n _ rfl
      · rw [Nat.min_eq_right (Nat.le_of_not_le hle)]
        exact lock.length_lostRounds_append k _ rfl
    · intro hgoes tries htries
      exact ⟨(retry_decided hdecided hgoes htries).result_eq, sameRun_acquire_retry hdecided hgoes htries⟩
  · intro hlost tries
    have hrounds := course_rounds (n := tries) fun i _ => hlost i
    refine ⟨?_, ?_, ?_⟩
    · apply Course.of_same (sameRun_acquire_lost fun i _ => hlost i)
      exact hrounds.bind_nil fun _ => course_pure _
    · intro hgoes
      apply Course.of_same (sameRun_retry_lost (fun i _ => hlost i) hgoes)
      exact hrounds.bind_nil fun _ => course_pure _
    · intro k nanos hcancelled htries
      exact retry_cancelled (fun i _ => hlost i) hcancelled htries
  · intro hdelay hpauses limit picks
    obtain ⟨moves, last, hplay, hreturned, houts⟩ := lock.play_tryAcquireAlong hdelay hpauses limit picks state
    have hseen := Handshake.outcomes_seen hplay
    have hloop := Handshake.loop_of_returned hplay hreturned
    obtain ⟨n, hstops⟩ := Replay.stops_of_loop hloop
    rw [← hseen, hstops.length_eq] at hloop
    exact ⟨moves, last, n, hplay, hreturned, hseen.trans houts, hloop, hstops⟩

end Lock

namespace Site

/-- The answers of a machine on which whoever holds the lock gives it up while another pauses. -/
def giveUp (r : Request) (machine : Machine) : r.Reply × Machine :=
  match r with
  | .pause nanos => (nanos, { machine.pass nanos with tree := .empty })
  | r => Machine.answer pair.supply noPrograms r machine

def heldMachine : Machine := .ofTree (Disk.Tree.empty.insert [[0x61]] .directory) [] ⟨0, 0⟩

/-- A cancellation that is seen in this wait. -/
def cancelIn (k : Nat) : Nat → Option Nat := fun i => if i = k then some 7 else none

theorem cancelledAt_cancelIn (k : Nat) : Lock.CancelledAt (cancelIn k) k 7 :=
  ⟨fun _ hi => if_neg (Nat.ne_of_lt hi), if_pos rfl⟩

/-- There the second attempt decides. A worker that is cancelled after the first makes no second one. -/
theorem giveUp_agree :
    DecidedAt ((pairLock false).outcomeAfter (pair.claimant false) giveUp heldMachine) 1 ∧
      (((pairLock false).acquire (pair.claimant false) 5).run giveUp heldMachine).1 = some (.ok ()) ∧
      (((pairLock false).retry (pair.claimant false) (cancelIn 1) 5 0).run giveUp heldMachine).1 = some (.ok true) ∧
      SameRun giveUp ((pairLock false).acquire (pair.claimant false) 5)
        ((pairLock false).retry (pair.claimant false) (cancelIn 1) 5 0 >>= (pairLock false).conclude 2)
        heldMachine ∧
      (((pairLock false).retry (pair.claimant false) (cancelIn 0) 5 0).run giveUp heldMachine).1 =
        some (.ok false) ∧
      ((pairLock false).attempts (pair.claimant false) giveUp
        ((pairLock false).retry (pair.claimant false) (cancelIn 0) 5 0) heldMachine).length = 1 ∧
      ∃ seen, Replay.Stops seen 1 (((pairLock false).tryAcquireAlong (pair.claimant false) ⟨60, 0⟩
        []).run giveUp heldMachine).1 := by
  have hlast : (pairLock false).outcomeAfter (pair.claimant false) giveUp heldMachine 1 = .ok true := by
    decide +kernel
  have hdecided : DecidedAt ((pairLock false).outcomeAfter (pair.claimant false) giveUp heldMachine) 1 := by
    refine ⟨fun i hi => ?_, by rw [hlast]; decide⟩
    obtain rfl := Nat.lt_one_iff.1 hi
    decide +kernel
  have htwo : ((pairLock false).attempts (pair.claimant false) giveUp
      ((pairLock false).tryAcquireAlong (pair.claimant false) ⟨60, 0⟩ []) heldMachine).length = 2 := by
    decide +kernel
  obtain ⟨hlate, -, hworker⟩ :=
    Lock.retries_agree (pairLock false) (pair.claimant false) giveUp heldMachine (cancelIn 1)
  obtain ⟨hearly, -⟩ := Lock.retries_agree (pairLock false) (pair.claimant false) giveUp heldMachine (cancelIn 0)
  obtain ⟨hacquire, hretry, hsame⟩ := hlate 1 hdecided
  have hgoes : ∀ i < 1, cancelIn 1 i = none := (cancelledAt_cancelIn 1).1
  obtain ⟨hcut, hone⟩ := (hearly 1 hdecided).2.1 0 7 5 (cancelledAt_cancelIn 0) (by decide)
  obtain ⟨moves, -, n, -, -, hseen, -, hstops⟩ :=
    hworker (by decide) (fun nanos _ => Nat.le_refl nanos) ⟨60, 0⟩ []
  obtain rfl : n = 1 := by
    have hlength := hstops.length_eq
    rw [hseen, htwo] at hlength
    omega
  refine ⟨hdecided, ?_, ?_, (hsame hgoes 5 (by decide)).2, hcut.result_eq, hone, _, hstops⟩
  · rw [(hacquire 5 (by decide)).1.result_eq, hlast]
    rfl
  · rw [(hretry 1 7 5 (cancelledAt_cancelIn 1) (by decide)).1.result_eq, if_pos (Nat.le_refl 1), hlast]

end Site

end DirLock
