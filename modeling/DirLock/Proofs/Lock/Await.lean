import DirLock.Proofs.Lock.Claim
import DirLock.Proofs.Time.Span
import DirLock.Proofs.Wait.Turns

/-!
# Waiting with a deadline

What a wait with a deadline ensures, in whatever order its two parties move: the outcome that it
returns is that of its last attempt, and what its deeds did to the lock is what that attempt did, since
the attempts before it were all lost. A wait is never cut short.
-/

namespace DirLock

open Wait (Handshake Move outcomes AllLost)

theorem Lock.pauseNanos_eq (lock : Lock) : lock.pauseNanos = lock.config.waitDelay.toNat * 1000000 :=
  Time.Span.toNanos_ofMillis _

theorem Lock.pauseNanos_pos {lock : Lock} (hvalid : lock.config.validate = .ok ()) :
    0 < lock.pauseNanos := by
  have hne : lock.config.waitDelay ≠ 0 := by
    intro hzero
    rw [Config.validate, if_pos hzero] at hvalid
    cases hvalid
  have hpos : 0 < lock.config.waitDelay.toNat :=
    Nat.pos_of_ne_zero fun hzero => hne (UInt64.toNat_inj.1 hzero)
  rw [Lock.pauseNanos_eq]
  omega

/-! ## Orders -/

/-- Which of the two parties of a wait moves next. -/
inductive Wait.Pick where
  /-- The worker makes its attempt. -/
  | attempt
  | work
  | call
  | missStop
  | missReport
  /-- So many nanoseconds pass. -/
  | pass (nanos : Nat)
  deriving DecidableEq

/-- The first part of a wait with a deadline, in which the two parties move in the order that is given.
A pick of a party that cannot move is passed over. -/
def Lock.followPicks (lock : Lock) (claimant : Claimant) (limit : Time.Span) :
    List Wait.Pick → Handshake LockError → Routine (Handshake LockError)
  | [], wait => return wait
  | .attempt :: picks, wait => do
    match wait.worker with
    | .attempting =>
      let outcome ← lock.tryClaim claimant
      lock.followPicks claimant limit picks (wait.afterAttempt outcome)
    | _ => lock.followPicks claimant limit picks wait
  | .work :: picks, wait => lock.followPicks claimant limit picks ((wait.move? .work).getD wait)
  | .call :: picks, wait => do
    if wait.isCancelling then
      Routine.note (.deadlineReached lock.name.text limit)
    lock.followPicks claimant limit picks ((wait.move? .call).getD wait)
  | .missStop :: picks, wait =>
    lock.followPicks claimant limit picks ((wait.move? .missStop).getD wait)
  | .missReport :: picks, wait =>
    lock.followPicks claimant limit picks ((wait.move? .missReport).getD wait)
  | .pass nanos :: picks, wait => do
    let passed ← Routine.request (.pause nanos)
    lock.followPicks claimant limit picks { wait with clock := wait.clock + passed }

/-- A wait with a deadline in which the two parties first move in the order that is given, and then
without dawdling. -/
def Lock.tryAcquireAlong (lock : Lock) (claimant : Claimant) (limit : Time.Span)
    (picks : List Wait.Pick) : Routine (Except LockError Bool) := do
  let wait ← lock.followPicks claimant limit picks (.start lock.pauseNanos limit.toNanos)
  return (← lock.takeTurns claimant limit (lock.turnsWithin limit) wait).getD (.ok false)

/-- A wait for a guard with a deadline, in an order that is given. -/
def Lock.tryHoldAlong (lock : Lock) (claimant : Claimant) (limit : Time.Span)
    (picks : List Wait.Pick) : Routine (Except LockError (Option Guard)) := do
  return (← lock.tryAcquireAlong claimant limit picks).map fun acquired =>
    if acquired then some (Guard.of lock) else none

theorem Lock.tryAcquire_eq (lock : Lock) (claimant : Claimant) (limit : Time.Span) :
    lock.tryAcquire claimant limit = lock.tryAcquireAlong claimant limit [] := by
  rw [tryAcquire, tryAcquireAlong, followPicks, pure_bind]

theorem Lock.tryHold_eq (lock : Lock) (claimant : Claimant) (limit : Time.Span) :
    lock.tryHold claimant limit = lock.tryHoldAlong claimant limit [] := by
  rw [tryHold, tryHoldAlong, tryAcquire_eq]

theorem Lock.turnsLeft_le_turnsWithin {lock : Lock} (hdelay : 0 < lock.pauseNanos) {limit : Time.Span}
    {wait : Handshake LockError} {moves : List (Move LockError)}
    (hpaced : wait.Paced lock.pauseNanos limit.toNanos moves) :
    wait.turnsLeft ≤ lock.turnsWithin limit := by
  have hle := Handshake.turnsLeft_le hpaced
  have hmax : max 1 lock.pauseNanos = lock.pauseNanos := Nat.max_eq_right hdelay
  rw [Lock.turnsWithin, hmax]
  omega

namespace Site

open Disk (Tree)

variable {ι : Type} {s : Site ι} {i : ι} {releasing : Prop} {tree after before : Tree}
  {past more : Deeds} {outs : List (Wait.Outcome LockError)}

/-! ## What the attempts so far did -/

/-- The deeds so far did to the lock what the last attempt did, and nothing if there was none. -/
def AsAttempted (s : Site ι) (i : ι) (past : Deeds) (tree : Tree)
    (outs : List (Wait.Outcome LockError)) : Prop :=
  match outs.getLast? with
  | none => s.AllQuiet past
  | some outcome => s.Attempted i past tree outcome

theorem AsAttempted.quiet (h : s.AsAttempted i past tree outs) (hlost : AllLost outs) :
    s.AllQuiet past := by
  unfold AsAttempted at h
  split at h
  · exact h
  · rename_i outcome hlast
    obtain rfl := hlost outcome (List.mem_of_getLast? hlast)
    exact h.quiet nofun

theorem AsAttempted.attempted (h : s.AsAttempted i past tree outs) (hlost : AllLost outs)
    {outcome : Wait.Outcome LockError} (hattempted : s.Attempted i more after outcome) :
    s.AsAttempted i (past ++ more) after (outs ++ [outcome]) := by
  rw [AsAttempted, List.getLast?_concat]
  exact hattempted.of_quiet_append (h.quiet hlost)

theorem AsAttempted.look (h : s.AsAttempted i past tree outs) (hothers : s.Others i tree before) :
    s.AsAttempted i (past ++ [(before, before)]) before outs := by
  unfold AsAttempted at h ⊢
  split at h
  · exact h.append (allQuiet_nil.look before)
  · exact h.append_look hothers

theorem ensures_ask_look {α : Type} {r : Request} {next : r.Reply → Routine α}
    {post : Deeds → α → Tree → Prop}
    (h : ∀ before, s.Others i tree before → ∀ reply after, s.Answers i before r reply after →
      after = before ∧ s.Ensures i releasing (next reply) (past ++ [(before, before)]) before post) :
    s.Ensures i releasing (Routine.request r >>= next) past tree post := by
  intro before hothers reply after hanswers
  obtain ⟨rfl, hrest⟩ := h before hothers reply after hanswers
  exact ⟨.refl hothers.good, hrest⟩

/-- What holds in the middle of a wait. -/
structure Awaiting (s : Site ι) (i : ι) (maxWait : Nat) (past : Deeds) (tree : Tree)
    (wait : Handshake LockError) : Prop where
  clear : s.Clear i none tree
  goes : ∃ moves, wait.Paced (s.lock i).pauseNanos maxWait moves ∧
    s.AsAttempted i past tree (outcomes moves)

variable {maxWait : Nat} {wait next : Handshake LockError}

theorem Awaiting.start (hclear : s.Clear i none tree) :
    s.Awaiting i maxWait [] tree (.start (s.lock i).pauseNanos maxWait) :=
  ⟨hclear, [], .start _ _, allQuiet_nil⟩

theorem Awaiting.move (h : s.Awaiting i maxWait past tree wait) {move : Move LockError}
    (hmove : wait.move? move = some next) (hnone : move.outcome? = none) :
    s.Awaiting i maxWait past tree next := by
  obtain ⟨hclear, moves, hpaced, has⟩ := h
  refine ⟨hclear, moves ++ [move], hpaced.move hmove, ?_⟩
  rwa [Handshake.outcomes_concat_of_none moves hnone]

theorem Awaiting.move_getD (h : s.Awaiting i maxWait past tree wait) (move : Move LockError)
    (hnone : move.outcome? = none) : s.Awaiting i maxWait past tree ((wait.move? move).getD wait) := by
  cases hmove : wait.move? move with
  | none => exact h
  | some next => exact h.move hmove hnone

theorem Awaiting.look (h : s.Awaiting i maxWait past tree wait) (hothers : s.Others i tree before) :
    s.Awaiting i maxWait (past ++ [(before, before)]) before wait := by
  obtain ⟨hclear, moves, hpaced, has⟩ := h
  exact ⟨hclear.others hothers, moves, hpaced, has.look hothers⟩

theorem Awaiting.attempted (h : s.Awaiting i maxWait past tree wait) (hworker : wait.worker = .attempting)
    {outcome : Wait.Outcome LockError} (hclear : s.Clear i none after)
    (hattempted : s.Attempted i more after outcome) :
    s.Awaiting i maxWait (past ++ more) after (wait.afterAttempt outcome) := by
  obtain ⟨-, moves, hpaced, has⟩ := h
  have hmove : wait.move? (.attempted outcome) = some (wait.afterAttempt outcome) := by
    rw [Handshake.move?, hworker]
  have hlost := hpaced.follows.accounted
  rw [Handshake.Accounted, hworker] at hlost
  refine ⟨hclear, moves ++ [.attempted outcome], hpaced.move hmove, ?_⟩
  rw [Wait.outcomes_append]
  exact has.attempted hlost.1 hattempted

theorem Awaiting.returned (h : s.Awaiting i maxWait past tree wait)
    {outcome : Wait.Outcome LockError} (hreturned : wait.caller = .returned outcome) :
    s.Attempted i past tree outcome := by
  obtain ⟨-, moves, hpaced, has⟩ := h
  have hinbox : wait.inbox = some outcome := by rw [Handshake.inbox, hreturned]
  rw [AsAttempted, (hpaced.follows.endsWith hinbox).getLast?_eq] at has
  exact has

/-! ## The wait -/

theorem ensures_attempt {α : Type} {f : Wait.Outcome LockError → Routine α}
    {post : Deeds → α → Tree → Prop} (h : s.Awaiting i maxWait past tree wait)
    (hworker : wait.worker = .attempting)
    (hnext : ∀ past tree outcome, s.Awaiting i maxWait past tree (wait.afterAttempt outcome) →
      s.Ensures i releasing (f outcome) past tree post) :
    s.Ensures i releasing ((s.lock i).tryClaim (s.claimant i) >>= f) past tree post := by
  apply Ensures.bind
  apply ensures_of_nil past
  apply (ensures_tryClaim h.clear).mono
  rintro more outcome after ⟨hclear, hattempted⟩
  exact hnext _ _ _ (h.attempted hworker hclear hattempted)

theorem ensures_pause {α : Type} {nanos : Nat} {f : Nat → Routine α} {post : Deeds → α → Tree → Prop}
    (h : s.Awaiting i maxWait past tree wait)
    (hnext : ∀ past tree, s.Awaiting i maxWait past tree { wait with clock := wait.clock + nanos } →
      s.Ensures i releasing (f nanos) past tree post) :
    s.Ensures i releasing (Routine.request (.pause nanos) >>= f) past tree post := by
  refine ensures_ask_look fun before hothers reply after hanswers => ?_
  obtain ⟨rfl, hpassed⟩ := answers_pause hanswers
  rw [hpassed]
  have htick : wait.move? (.tick nanos) = some { wait with clock := wait.clock + nanos } := rfl
  exact ⟨rfl, hnext _ _ ((h.look hothers).move htick rfl)⟩

theorem ensures_note_awaiting {α : Type} {event : Log.Event} {f : Unit → Routine α}
    {post : Deeds → α → Tree → Prop} (h : s.Awaiting i maxWait past tree wait)
    (hnext : ∀ past tree, s.Awaiting i maxWait past tree wait →
      s.Ensures i releasing (f ()) past tree post) :
    s.Ensures i releasing (Routine.note event >>= f) past tree post := by
  refine ensures_ask_look fun before hothers reply after hanswers => ?_
  obtain rfl := answers_plain (fun _ => rfl) hanswers
  exact ⟨rfl, hnext _ _ (h.look hothers)⟩

theorem ensures_followPicks {limit : Time.Span} {picks : List Wait.Pick}
    (h : s.Awaiting i maxWait past tree wait) :
    s.Ensures i releasing ((s.lock i).followPicks (s.claimant i) limit picks wait) past tree
      fun deeds wait' after => s.Awaiting i maxWait deeds after wait' := by
  induction picks generalizing past tree wait with
  | nil => exact h
  | cons pick picks ih =>
    cases pick with
    | attempt =>
      rw [Lock.followPicks]
      split
      · exact ensures_attempt h ‹_› fun _ _ _ => ih
      · exact ih h
    | work => exact ih (h.move_getD .work rfl)
    | call =>
      have hnext := h.move_getD .call rfl
      rw [Lock.followPicks]
      split_ifs
      · exact ensures_note_awaiting hnext fun _ _ => ih
      · exact ih hnext
    | missStop => exact ih (h.move_getD .missStop rfl)
    | missReport => exact ih (h.move_getD .missReport rfl)
    | pass nanos => exact ensures_pause h fun _ _ => ih

theorem ensures_takeTurns (hdelay : 0 < (s.lock i).pauseNanos) {limit : Time.Span} {turns : Nat}
    (h : s.Awaiting i maxWait past tree wait) (hturns : wait.turnsLeft ≤ turns) :
    s.Ensures i releasing ((s.lock i).takeTurns (s.claimant i) limit turns wait) past tree
      fun deeds result after => s.Clear i none after ∧
        ∃ outcome, result = some outcome ∧ s.Attempted i deeds after outcome := by
  induction turns generalizing past tree wait with
  | zero =>
    have hpos := wait.turnsLeft_pos
    omega
  | succ turns ih =>
    obtain ⟨moves, hpaced, -⟩ := h.goes
    have hspec := wait.turnOf_turn
    rw [Lock.takeTurns]
    cases hturn : wait.turn with
    | «over» outcome =>
      rw [hturn] at hspec
      cases hspec with
      | «over» hreturned => exact ⟨h.clear, outcome, rfl, h.returned hreturned⟩
    | call next =>
      rw [hturn] at hspec
      cases hspec with
      | call hcall =>
        have hmove : wait.move? .call = some next := hcall
        have hnext := h.move hmove rfl
        have hless := Handshake.turnsLeft_of_call hcall
        dsimp only
        split_ifs
        · exact ensures_note_awaiting hnext fun _ _ hnext => ih hnext (by omega)
        · exact ih hnext (by omega)
    | work next =>
      rw [hturn] at hspec
      cases hspec with
      | work hcall hwork =>
        have hless := Handshake.turnsLeft_of_work hpaced hcall hwork
        have hmove : wait.move? .work = some next := hwork
        exact ih (h.move hmove rfl) (by omega)
    | attempt =>
      rw [hturn] at hspec
      cases hspec with
      | attempt hcall hworker =>
        refine ensures_attempt h hworker fun _ _ outcome hnext => ih hnext ?_
        have hless := Handshake.turnsLeft_of_attempt hpaced hdelay hcall hworker outcome
        omega
    | idle nanos =>
      rw [hturn] at hspec
      cases hspec with
      | idle hreturned hcall hwork hattempting =>
        refine ensures_pause h fun _ _ hnext => ih hnext ?_
        have hless := Handshake.turnsLeft_of_idle hpaced hreturned hcall hwork hattempting (Nat.le_refl _)
        omega

theorem ensures_tryAcquireAlong (hdelay : 0 < (s.lock i).pauseNanos) (hclear : s.Clear i none tree)
    (limit : Time.Span) (picks : List Wait.Pick) :
    s.Ensures i releasing ((s.lock i).tryAcquireAlong (s.claimant i) limit picks) [] tree
      fun deeds result after => s.Clear i none after ∧ s.Attempted i deeds after result := by
  apply Ensures.bind
  apply (ensures_followPicks (.start hclear)).mono
  intro past wait tree h
  apply Ensures.bind
  obtain ⟨moves, hpaced, -⟩ := h.goes
  apply (ensures_takeTurns hdelay h (Lock.turnsLeft_le_turnsWithin hdelay hpaced)).mono
  rintro deeds result after ⟨hclear, outcome, rfl, hattempted⟩
  exact ⟨hclear, hattempted⟩

/-- What a wait for a guard with a deadline says, as the outcome of its last attempt. -/
def guardOutcome (result : Except LockError (Option Guard)) : Except LockError Bool :=
  result.map Option.isSome

theorem ensures_tryHoldAlong (hdelay : 0 < (s.lock i).pauseNanos) (hclear : s.Clear i none tree)
    (limit : Time.Span) (picks : List Wait.Pick) :
    s.Ensures i releasing ((s.lock i).tryHoldAlong (s.claimant i) limit picks) [] tree
      fun deeds result after => s.Clear i none after ∧ s.Attempted i deeds after (guardOutcome result) ∧
        ∀ guard, result = .ok (some guard) → guard = Guard.of (s.lock i) := by
  apply (ensures_tryAcquireAlong hdelay hclear limit picks).seq
  rintro deeds result after ⟨hclear, hattempted⟩
  rw [← List.append_nil deeds] at hattempted
  refine ⟨hclear, ?_, ?_⟩
  · rcases result with error | (_ | _) <;> exact hattempted
  · rintro guard hguard
    rcases result with error | (_ | _) <;> cases hguard
    rfl

end Site

end DirLock
