import DirLock.Proofs.Lock.Await
import DirLock.Proofs.Routine.Run

/-!
# Attempting again and again

A wait makes attempts, and between them it does nothing but write and let time pass. It goes on as long as
they are lost, so what is known when one attempt is over is known when a wait is over, with the outcome that
the wait reports. That is so in whatever order the two parties of a wait with a deadline move.
-/

namespace DirLock

open Routine (Yields)
open Wait (Handshake Move outcomes)

variable {σ : Type} {answer : (r : Request) → σ → r.Reply × σ} {lock : Lock} {claimant : Claimant}
  {ended : Wait.Outcome LockError → σ → Prop} {state : σ}

/-- What is known of the state when attempts have ended so, in a run that `answer` describes. Nothing was
attempted yet, or all attempts were lost, when the next one is made. -/
structure Lock.Persists (lock : Lock) (claimant : Claimant) (answer : (r : Request) → σ → r.Reply × σ)
    (ended : Wait.Outcome LockError → σ → Prop) : Prop where
  attempt : ∀ {state}, ended (.ok false) state → Yields answer (lock.tryClaim claimant) state ended
  pause : ∀ {outcome state} (nanos : Nat), ended outcome state → ended outcome (answer (.pause nanos) state).2
  note : ∀ {outcome state} (event : Log.Event), ended outcome state →
    ended outcome (answer (.note event) state).2
  passes : ∀ (nanos : Nat) (state : σ), nanos ≤ (answer (.pause nanos) state).1

/-! ## Without a deadline -/

section Acquire

variable (h : lock.Persists claimant answer ended)
include h

theorem yields_untilDecided (hstate : ended (.ok false) state) (tries made : Nat) :
    Yields answer (Wait.untilDecided (lock.tryClaim claimant) lock.pauseBetween tries made) state
      fun result after => ended (Site.lastOutcome result) after := by
  induction tries generalizing state made with
  | zero => exact hstate
  | succ tries ih =>
    refine (h.attempt hstate).bind ?_
    intro outcome after hended
    rcases outcome with error | (_ | _)
    · exact hended
    · have hpause : Yields answer lock.pauseBetween after fun _ => ended (.ok false) := h.pause _ hended
      exact hpause.bind fun _ _ hlost => ih hlost (made + 1)
    · exact hended

theorem yields_acquire (hstate : ended (.ok false) state) (tries : Nat) :
    Yields answer (lock.acquire claimant tries) state
      fun result after => ended (Site.lastOutcome result) after := by
  refine (yields_untilDecided h hstate tries 0).bind ?_
  intro result after hended
  rcases result with _ | (error | attempts)
  · exact hended
  · exact hended
  · exact h.note _ hended

theorem yields_hold (hstate : ended (.ok false) state) (tries : Nat) :
    Yields answer (lock.hold claimant tries) state fun result after =>
      ended (Site.lastOutcome result) after ∧ ∀ guard, result = some (.ok guard) → guard = Guard.of lock := by
  refine (yields_acquire h hstate tries).bind fun result after hended => ?_
  rcases result with _ | (error | _)
  · exact ⟨hended, fun guard h => by cases h⟩
  · exact ⟨hended, fun guard h => by cases h⟩
  · exact ⟨hended, fun guard h => (Except.ok.inj (Option.some.inj h)).symm⟩

end Acquire

/-! ## With a deadline -/

/-- What holds in the middle of a wait: the state is as the last attempt left it. -/
def Lock.Amid (lock : Lock) (ended : Wait.Outcome LockError → σ → Prop) (maxWait : Nat) (state : σ)
    (wait : Handshake LockError) : Prop :=
  ∃ moves, wait.Paced lock.pauseNanos maxWait moves ∧
    ended ((outcomes moves).getLast?.getD (.ok false)) state

namespace Lock.Amid

variable {maxWait : Nat} {wait next : Handshake LockError}

theorem start (hstate : ended (.ok false) state) :
    lock.Amid ended maxWait state (.start lock.pauseNanos maxWait) :=
  ⟨[], .start _ _, hstate⟩

theorem move (h : lock.Amid ended maxWait state wait) {move : Move LockError}
    (hmove : wait.move? move = some next) (hnone : move.outcome? = none) :
    lock.Amid ended maxWait state next := by
  obtain ⟨moves, hpaced, hended⟩ := h
  refine ⟨moves ++ [move], hpaced.move hmove, ?_⟩
  rwa [Handshake.outcomes_concat_of_none moves hnone]

theorem move_getD (h : lock.Amid ended maxWait state wait) (move : Move LockError)
    (hnone : move.outcome? = none) : lock.Amid ended maxWait state ((wait.move? move).getD wait) := by
  cases hmove : wait.move? move with
  | none => exact h
  | some next => exact h.move hmove hnone

theorem lost (h : lock.Amid ended maxWait state wait) (hworker : wait.worker = .attempting) :
    ended (.ok false) state := by
  obtain ⟨moves, hpaced, hended⟩ := h
  have hlost := hpaced.follows.accounted
  rw [Handshake.Accounted, hworker] at hlost
  cases hlast : (outcomes moves).getLast? with
  | none => rwa [hlast] at hended
  | some outcome =>
    obtain rfl := hlost.1 outcome (List.mem_of_getLast? hlast)
    rwa [hlast] at hended

theorem attempted (h : lock.Amid ended maxWait state wait) (hworker : wait.worker = .attempting)
    {outcome : Wait.Outcome LockError} {after : σ} (hended : ended outcome after) :
    lock.Amid ended maxWait after (wait.afterAttempt outcome) := by
  obtain ⟨moves, hpaced, -⟩ := h
  have hmove : wait.move? (.attempted outcome) = some (wait.afterAttempt outcome) := by
    rw [Handshake.move?, hworker]
  refine ⟨moves ++ [.attempted outcome], hpaced.move hmove, ?_⟩
  have houtcomes : outcomes (moves ++ [.attempted outcome]) = outcomes moves ++ [outcome] :=
    Wait.outcomes_append _ _
  rwa [houtcomes, List.getLast?_concat]

theorem returned (h : lock.Amid ended maxWait state wait) {outcome : Wait.Outcome LockError}
    (hreturned : wait.caller = .returned outcome) : ended outcome state := by
  obtain ⟨moves, hpaced, hended⟩ := h
  have hinbox : wait.inbox = some outcome := by rw [Handshake.inbox, hreturned]
  rwa [(hpaced.follows.endsWith hinbox).getLast?_eq] at hended

end Lock.Amid

section Deadline

variable (h : lock.Persists claimant answer ended) {maxWait : Nat} {wait : Handshake LockError}
  {limit : Time.Span}
include h

theorem Lock.Amid.note (hamid : lock.Amid ended maxWait state wait) (event : Log.Event) :
    lock.Amid ended maxWait (answer (.note event) state).2 wait := by
  obtain ⟨moves, hpaced, hended⟩ := hamid
  exact ⟨moves, hpaced, h.note event hended⟩

theorem Lock.Amid.pause (hamid : lock.Amid ended maxWait state wait) (nanos : Nat) :
    lock.Amid ended maxWait (answer (.pause nanos) state).2
      { wait with clock := wait.clock + (answer (.pause nanos) state).1 } := by
  obtain ⟨moves, hpaced, hended⟩ := hamid
  have hpaused : lock.Amid ended maxWait (answer (.pause nanos) state).2 wait :=
    ⟨moves, hpaced, h.pause nanos hended⟩
  have htick : wait.move? (.tick (answer (.pause nanos) state).1) =
      some { wait with clock := wait.clock + (answer (.pause nanos) state).1 } := rfl
  exact hpaused.move htick rfl

theorem yields_followPicks {picks : List Wait.Pick} (hamid : lock.Amid ended maxWait state wait) :
    Yields answer (lock.followPicks claimant limit picks wait) state
      fun wait after => lock.Amid ended maxWait after wait := by
  induction picks generalizing state wait with
  | nil => exact hamid
  | cons pick picks ih =>
    cases pick with
    | attempt =>
      rw [Lock.followPicks]
      split
      · rename_i hworker
        refine (h.attempt (hamid.lost hworker)).bind ?_
        intro outcome after hended
        exact ih (hamid.attempted hworker hended)
      · exact ih hamid
    | work => exact ih (hamid.move_getD .work rfl)
    | call =>
      have hnext := hamid.move_getD .call rfl
      rw [Lock.followPicks]
      split_ifs
      · exact Routine.yields_request (ih (hnext.note h _))
      · exact ih hnext
    | missStop => exact ih (hamid.move_getD .missStop rfl)
    | missReport => exact ih (hamid.move_getD .missReport rfl)
    | pass nanos => exact Routine.yields_request (ih (hamid.pause h nanos))

variable (hdelay : 0 < lock.pauseNanos)
include hdelay

theorem yields_takeTurns {turns : Nat} (hamid : lock.Amid ended maxWait state wait)
    (hturns : wait.turnsLeft ≤ turns) :
    Yields answer (lock.takeTurns claimant limit turns wait) state
      fun result after => ∃ outcome, result = some outcome ∧ ended outcome after := by
  -- Every turn leaves fewer turns to go, and there is always one to go, so the turns do not run out.
  induction turns generalizing state wait with
  | zero =>
    have hpos := wait.turnsLeft_pos
    omega
  | succ turns ih =>
    obtain ⟨moves, hpaced, -⟩ := id hamid
    have hspec := wait.turnOf_turn
    rw [Lock.takeTurns]
    cases hturn : wait.turn with
    | «over» outcome =>
      rw [hturn] at hspec
      cases hspec with
      | «over» hreturned => exact ⟨outcome, rfl, hamid.returned hreturned⟩
    | call next =>
      rw [hturn] at hspec
      cases hspec with
      | call hcall =>
        have hmove : wait.move? .call = some next := hcall
        have hnext := hamid.move hmove rfl
        have hless := Handshake.turnsLeft_of_call hcall
        dsimp only
        split_ifs
        · exact Routine.yields_request (ih (hnext.note h _) (by omega))
        · exact ih hnext (by omega)
    | work next =>
      rw [hturn] at hspec
      cases hspec with
      | work hcall hwork =>
        have hless := Handshake.turnsLeft_of_work hpaced hcall hwork
        have hmove : wait.move? .work = some next := hwork
        exact ih (hamid.move hmove rfl) (by omega)
    | attempt =>
      rw [hturn] at hspec
      cases hspec with
      | attempt hcall hworker =>
        refine (h.attempt (hamid.lost hworker)).bind ?_
        intro outcome after hended
        have hless := Handshake.turnsLeft_of_attempt hpaced hdelay hcall hworker outcome
        exact ih (hamid.attempted hworker hended) (by omega)
    | idle nanos =>
      rw [hturn] at hspec
      cases hspec with
      | idle hreturned hcall hwork hattempting =>
        have hless := Handshake.turnsLeft_of_idle hpaced hreturned hcall hwork hattempting
          (h.passes wait.timeLeft state)
        exact Routine.yields_request (ih (hamid.pause h wait.timeLeft) (by omega))

theorem yields_tryAcquireAlong (hstate : ended (.ok false) state) (picks : List Wait.Pick) :
    Yields answer (lock.tryAcquireAlong claimant limit picks) state ended := by
  refine (yields_followPicks h (.start hstate)).bind fun wait after hamid => ?_
  obtain ⟨moves, hpaced, -⟩ := id hamid
  refine (yields_takeTurns h hdelay hamid (Lock.turnsLeft_le_turnsWithin hdelay hpaced)).bind ?_
  rintro result last ⟨outcome, rfl, hended⟩
  exact hended

theorem yields_tryHoldAlong (hstate : ended (.ok false) state) (picks : List Wait.Pick) :
    Yields answer (lock.tryHoldAlong claimant limit picks) state fun result after =>
      ended (Site.guardOutcome result) after ∧ ∀ guard, result = .ok (some guard) → guard = Guard.of lock := by
  refine (yields_tryAcquireAlong h hdelay hstate picks).bind fun result after hended => ?_
  rcases result with error | (_ | _)
  · exact ⟨hended, fun guard h => by cases h⟩
  · exact ⟨hended, fun guard h => by cases h⟩
  · exact ⟨hended, fun guard h => (Option.some.inj (Except.ok.inj h)).symm⟩

theorem yields_tryAcquire (hstate : ended (.ok false) state) :
    Yields answer (lock.tryAcquire claimant limit) state ended := by
  rw [Lock.tryAcquire_eq]
  exact yields_tryAcquireAlong h hdelay hstate []

theorem yields_tryHold (hstate : ended (.ok false) state) :
    Yields answer (lock.tryHold claimant limit) state fun result after =>
      ended (Site.guardOutcome result) after ∧ ∀ guard, result = .ok (some guard) → guard = Guard.of lock := by
  rw [Lock.tryHold_eq]
  exact yields_tryHoldAlong h hdelay hstate []

end Deadline

end DirLock
