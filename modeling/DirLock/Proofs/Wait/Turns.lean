import DirLock.Proofs.Wait.Progress

/-!
# How many turns a wait takes

When nobody dawdles, a wait with a deadline is over after a number of turns that depends on the time it
may take and on the delay between two attempts, and on nothing else. Every turn uses up some of what is
left (`turnsLeft`): three turns for every delay that still fits before the deadline, which is an attempt,
the passing of the delay and the worker's return to the next attempt, and the turns in which the two
parties come to their ends. From whatever state a wait has come to, no more turns are left than are
allowed.
-/

namespace DirLock.Wait

variable {ε : Type}

/-! ## Counting -/

/-- The turns that are left to a worker in an attempt, so long before the deadline. -/
def attemptTurns (delay left : Nat) : Nat := 3 * (left / delay) + 5

/-- The turns that are left to a worker between two attempts while the caller waits. If both wait, one
of the turns lets time pass. -/
def pauseTurns (delay clock deadline limit : Nat) : Nat :=
  (if deadline ≤ max limit clock then 3 else attemptTurns delay (deadline - max limit clock) + 1) +
    if clock < min deadline limit then 1 else 0

/-- The turns that are left to a worker once the caller does not wait any more. -/
def Worker.lastTurns : Worker ε → Nat
  | .attempting => 3
  | .waiting _ => 3
  | .finished _ => 2
  | .reported => 1
  | .ended => 0

theorem attemptTurns_mono (delay : Nat) {left more : Nat} (hle : left ≤ more) :
    attemptTurns delay left ≤ attemptTurns delay more := by
  have hdiv : left / delay ≤ more / delay := Nat.div_le_div_right hle
  unfold attemptTurns
  omega

theorem attemptTurns_sub {delay left : Nat} (hdelay : 0 < delay) (hle : delay ≤ left) :
    attemptTurns delay (left - delay) + 3 = attemptTurns delay left := by
  have hdiv : left / delay = (left - delay) / delay + 1 := Nat.div_eq_sub_div hdelay hle
  unfold attemptTurns
  omega

theorem five_le_attemptTurns (delay left : Nat) : 5 ≤ attemptTurns delay left :=
  Nat.le_add_left ..

theorem three_le_pauseTurns (delay clock deadline limit : Nat) :
    3 ≤ pauseTurns delay clock deadline limit := by
  have hfive := five_le_attemptTurns delay (deadline - max limit clock)
  unfold pauseTurns
  split_ifs <;> omega

theorem pauseTurns_le (delay clock deadline limit : Nat) :
    pauseTurns delay clock deadline limit ≤ attemptTurns delay (deadline - clock) + 2 := by
  have hmono : attemptTurns delay (deadline - max limit clock) ≤
      attemptTurns delay (deadline - clock) := attemptTurns_mono delay (by omega)
  have hfive := five_le_attemptTurns delay (deadline - clock)
  unfold pauseTurns
  split_ifs <;> omega

theorem pauseTurns_later {delay clock deadline limit nanos : Nat}
    (hwaits : clock < min deadline limit) (hpassed : min deadline limit - clock ≤ nanos) :
    pauseTurns delay (clock + nanos) deadline limit < pauseTurns delay clock deadline limit := by
  have hmono : attemptTurns delay (deadline - max limit (clock + nanos)) ≤
      attemptTurns delay (deadline - max limit clock) := attemptTurns_mono delay (by omega)
  have hfive := five_le_attemptTurns delay (deadline - max limit clock)
  have hlater : ¬ clock + nanos < min deadline limit := by omega
  unfold pauseTurns
  rw [if_pos hwaits, if_neg hlater]
  split_ifs <;> omega

theorem pauseTurns_attempted {delay clock deadline : Nat} (hdelay : 0 < delay) (hopen : clock < deadline) :
    pauseTurns delay clock deadline (clock + delay) < attemptTurns delay (deadline - clock) := by
  have hfive := five_le_attemptTurns delay (deadline - clock)
  unfold pauseTurns
  rw [Nat.max_eq_left (Nat.le_add_right clock delay)]
  split_ifs with hlate hwaits hwaits
  · omega
  · omega
  · have hfits : delay ≤ deadline - clock := by omega
    have hsub := attemptTurns_sub hdelay hfits
    rw [Nat.sub_sub] at hsub
    omega
  · omega

namespace Handshake

variable {h next : Handshake ε}

def workerTurns (h : Handshake ε) : Nat :=
  match h.caller, h.worker with
  | .starting, .attempting => attemptTurns h.delay h.maxWait
  | .starting, .waiting _ => attemptTurns h.delay h.maxWait + 2
  | .waiting deadline, .attempting => attemptTurns h.delay (deadline - h.clock)
  | .waiting deadline, .waiting limit => pauseTurns h.delay h.clock deadline limit
  | _, worker => worker.lastTurns

def callerTurns (h : Handshake ε) : Nat :=
  match h.caller with
  | .starting => 6
  | .waiting _ => 5
  | .cancelling => 4
  | .collecting => 3
  | .joining _ => 2
  | .returned _ => 1

/-- The turns that are left to a wait in which nobody dawdles. -/
def turnsLeft (h : Handshake ε) : Nat := h.callerTurns + h.workerTurns

theorem turnsLeft_pos (h : Handshake ε) : 0 < h.turnsLeft := by
  unfold turnsLeft callerTurns
  split <;> omega

theorem lastTurns_le (h : Handshake ε) : h.worker.lastTurns ≤ h.workerTurns := by
  unfold workerTurns
  split
  case h_1 hworker =>
    have hfive := five_le_attemptTurns h.delay h.maxWait
    rw [hworker, Worker.lastTurns]
    omega
  case h_2 hworker =>
    have hfive := five_le_attemptTurns h.delay h.maxWait
    rw [hworker, Worker.lastTurns]
    omega
  case h_3 deadline _ hworker =>
    have hfive := five_le_attemptTurns h.delay (deadline - h.clock)
    rw [hworker, Worker.lastTurns]
    omega
  case h_4 hworker =>
    rw [hworker, Worker.lastTurns]
    exact three_le_pauseTurns ..
  case h_5 => exact Nat.le_refl _

theorem workerTurns_of_late (hstarting : h.caller ≠ .starting)
    (hwaiting : ∀ limit, h.caller ≠ .waiting limit) : h.workerTurns = h.worker.lastTurns := by
  unfold workerTurns
  split
  case h_1 hcaller _ => exact absurd hcaller hstarting
  case h_2 hcaller _ => exact absurd hcaller hstarting
  case h_3 hcaller _ => exact absurd hcaller (hwaiting _)
  case h_4 hcaller _ => exact absurd hcaller (hwaiting _)
  case h_5 => rfl

/-! ## Every turn counts -/

theorem turnsLeft_of_late (hworker : next.worker = h.worker) (hstarting : next.caller ≠ .starting)
    (hwaiting : ∀ limit, next.caller ≠ .waiting limit) (hless : next.callerTurns < h.callerTurns) :
    next.turnsLeft < h.turnsLeft := by
  have hlast := h.lastTurns_le
  have hnext := workerTurns_of_late hstarting hwaiting
  rw [hworker] at hnext
  unfold turnsLeft
  omega

theorem turnsLeft_of_call (hcall : h.call? = some next) : next.turnsLeft < h.turnsLeft := by
  unfold call? at hcall
  split at hcall
  case h_1 hcaller =>
    obtain rfl := Option.some.inj hcall
    have hpause := fun limit => pauseTurns_le h.delay h.clock (h.clock + h.maxWait) limit
    rw [Nat.add_sub_cancel_left] at hpause
    cases hworker : h.worker with
    | attempting =>
      simp only [turnsLeft, callerTurns, workerTurns, hcaller, hworker, Nat.add_sub_cancel_left]
      omega
    | waiting limit =>
      simp only [turnsLeft, callerTurns, workerTurns, hcaller, hworker]
      exact Nat.add_lt_add_of_lt_of_le (Nat.lt_succ_self 5) (hpause limit)
    | finished outcome => simp [turnsLeft, callerTurns, workerTurns, hcaller, hworker]
    | reported => simp [turnsLeft, callerTurns, workerTurns, hcaller, hworker]
    | ended => simp [turnsLeft, callerTurns, workerTurns, hcaller, hworker]
  case h_2 hcaller hreport =>
    obtain rfl := Option.some.inj hcall
    exact turnsLeft_of_late rfl (by simp) (by simp) (by simp [callerTurns, hcaller])
  case h_3 hcaller hreport =>
    split_ifs at hcall
    obtain rfl := Option.some.inj hcall
    exact turnsLeft_of_late rfl (by simp) (by simp) (by simp [callerTurns, hcaller])
  case h_4 hcaller =>
    obtain rfl := Option.some.inj hcall
    exact turnsLeft_of_late rfl (by simp) (by simp) (by simp [callerTurns, hcaller])
  case h_5 hcaller hreport =>
    obtain rfl := Option.some.inj hcall
    exact turnsLeft_of_late rfl (by simp) (by simp) (by simp [callerTurns, hcaller])
  case h_6 => cases hcall
  case h_7 hcaller =>
    split at hcall
    · obtain rfl := Option.some.inj hcall
      exact turnsLeft_of_late rfl (by simp) (by simp) (by simp [callerTurns, hcaller])
    · cases hcall
  case h_8 => cases hcall

/-! ## What keeps a wait going -/

/-- What holds of a wait with this delay after these moves: the outcome is where it should be, and a
caller that waits for the outcome of a worker it has told to stop has told it so. -/
structure Paced (h : Handshake ε) (delay maxWait : Nat) (moves : List (Move ε)) : Prop where
  follows : h.Follows maxWait moves
  delay_eq : h.delay = delay
  told : h.caller = .collecting → h.Told

theorem delay_of_move {move : Move ε} (hmove : h.move? move = some next) : next.delay = h.delay := by
  cases move with
  | attempted outcome =>
    cases hworker : h.worker <;> simp only [move?, hworker, reduceCtorEq] at hmove
    obtain rfl := Option.some.inj hmove
    rcases outcome with error | (_ | _)
    · rfl
    · rw [afterAttempt]
      split_ifs <;> rfl
    · rfl
  | work =>
    cases hworker : h.worker <;> simp only [move?, work?, hworker, reduceCtorEq] at hmove
    case waiting limit =>
      split_ifs at hmove <;> obtain rfl := Option.some.inj hmove <;> rfl
    all_goals
      obtain rfl := Option.some.inj hmove
      rfl
  | call => exact (worker_of_call hmove).2.1
  | missStop =>
    cases hworker : h.worker <;> simp only [move?, hworker, reduceCtorEq] at hmove
    split_ifs at hmove
    obtain rfl := Option.some.inj hmove
    rfl
  | missReport =>
    cases hcaller : h.caller <;> simp only [move?, hcaller, reduceCtorEq] at hmove
    split_ifs at hmove
    obtain rfl := Option.some.inj hmove
    rfl
  | tick nanos =>
    obtain rfl := Option.some.inj hmove
    rfl

theorem isCancelling_of_collecting (hcall : h.call? = some next) (hcollecting : next.caller = .collecting) :
    h.isCancelling = true := by
  unfold call? at hcall
  split at hcall
  case h_3 =>
    split_ifs at hcall
    obtain rfl := Option.some.inj hcall
    cases hcollecting
  case h_4 hcaller => rw [isCancelling, hcaller]
  case h_7 =>
    split at hcall <;> cases hcall
    cases hcollecting
  all_goals
    cases hcall
    try cases hcollecting

variable {delay maxWait : Nat} {moves : List (Move ε)}

theorem Paced.start (delay maxWait : Nat) :
    (start delay maxWait : Handshake ε).Paced delay maxWait [] :=
  ⟨.start delay maxWait, rfl, nofun⟩

theorem Paced.move (hp : h.Paced delay maxWait moves) {move : Move ε}
    (hmove : h.move? move = some next) : next.Paced delay maxWait (moves ++ [move]) where
  follows := hp.follows.move hmove
  delay_eq := (delay_of_move hmove).trans hp.delay_eq
  told := fun hcollecting => by
    rcases caller_of_move hmove with hsame | hcall | hcancelling
    · exact ((hp.told (hsame ▸ hcollecting)).step (workerStep_of_move hmove)).1
    · exact told_of_cancelling (isCancelling_of_collecting hcall hcollecting) hcall
    · rw [hcollecting] at hcancelling
      cases hcancelling

/-- A caller that does not wait any more has told a worker that still goes on to stop. -/
theorem Paced.stop (hp : h.Paced delay maxWait moves) (hstarting : h.caller ≠ .starting)
    (hwaiting : ∀ limit, h.caller ≠ .waiting limit) (hcancelling : h.caller ≠ .cancelling)
    (hgoes : h.worker = .attempting ∨ ∃ limit, h.worker = .waiting limit) : h.stop = true := by
  have hinbox : h.inbox = none := by
    have haccounted := hp.follows.accounted
    rcases hgoes with hworker | ⟨limit, hworker⟩
    · rw [Accounted, hworker] at haccounted
      exact haccounted.2
    · rw [Accounted, hworker] at haccounted
      exact haccounted.2.2
  cases hcaller : h.caller with
  | starting => exact absurd hcaller hstarting
  | waiting limit => exact absurd hcaller (hwaiting limit)
  | cancelling => exact absurd hcaller hcancelling
  | collecting => exact hp.told hcaller hgoes
  | joining outcome => simp [inbox, hcaller] at hinbox
  | returned outcome => simp [inbox, hcaller] at hinbox

theorem call_of_passed {limit : Nat} (hcaller : h.caller = .waiting limit) (hpassed : limit ≤ h.clock) :
    h.call? ≠ none := by
  cases hreport : h.report with
  | none => simp [call?, hcaller, hreport, hpassed]
  | some outcome => simp [call?, hcaller, hreport]

/-- A caller that cannot move waits for its deadline, or does not wait any more. -/
theorem waits_of_call_eq_none (hp : h.Paced delay maxWait moves) (hcall : h.call? = none)
    (hgoes : h.worker = .attempting ∨ ∃ limit, h.worker = .waiting limit) (hstop : ¬ h.stop = true) :
    ∃ deadline, h.caller = .waiting deadline ∧ h.clock < deadline := by
  by_cases hwaiting : ∃ limit, h.caller = .waiting limit
  · obtain ⟨deadline, hcaller⟩ := hwaiting
    refine ⟨deadline, hcaller, ?_⟩
    by_contra hpassed
    exact call_of_passed hcaller (Nat.le_of_not_lt hpassed) hcall
  · refine absurd (hp.stop ?_ (fun limit hcaller => hwaiting ⟨limit, hcaller⟩) ?_ hgoes) hstop
    · intro hcaller
      have hmove := call_of_starting hcaller
      rw [move?, hcall] at hmove
      cases hmove
    · intro hcaller
      have hmove := call_of_cancelling hcaller
      rw [move?, hcall] at hmove
      cases hmove

theorem workerTurns_of_decided (hattempting : h.worker ≠ .attempting)
    (hwaiting : ∀ limit, h.worker ≠ .waiting limit) : h.workerTurns = h.worker.lastTurns := by
  unfold workerTurns
  split
  case h_1 hworker => exact absurd hworker hattempting
  case h_2 hworker => exact absurd hworker (hwaiting _)
  case h_3 hworker => exact absurd hworker hattempting
  case h_4 hworker => exact absurd hworker (hwaiting _)
  case h_5 => rfl

theorem turnsLeft_of_decided (hcaller : next.callerTurns = h.callerTurns)
    (hattempting : next.worker ≠ .attempting) (hwaiting : ∀ limit, next.worker ≠ .waiting limit)
    (hless : next.worker.lastTurns < h.worker.lastTurns) : next.turnsLeft < h.turnsLeft := by
  have hlast := h.lastTurns_le
  have hnext := workerTurns_of_decided hattempting hwaiting
  unfold turnsLeft
  omega

theorem turnsLeft_of_work (hp : h.Paced delay maxWait moves) (hcall : h.call? = none)
    (hwork : h.work? = some next) : next.turnsLeft < h.turnsLeft := by
  cases hworker : h.worker with
  | attempting => simp [work?, hworker] at hwork
  | waiting limit =>
    simp only [work?, hworker] at hwork
    split_ifs at hwork with hstop hlimit
    · obtain rfl := Option.some.inj hwork
      exact turnsLeft_of_decided rfl (by simp) (by simp) (by simp [Worker.lastTurns, hworker])
    · obtain rfl := Option.some.inj hwork
      obtain ⟨deadline, hcaller, hopen⟩ := waits_of_call_eq_none hp hcall (.inr ⟨limit, hworker⟩) hstop
      simp only [turnsLeft, callerTurns, workerTurns, hcaller, hworker, pauseTurns]
      rw [Nat.max_eq_right hlimit, if_neg (Nat.not_le_of_lt hopen)]
      omega
  | finished outcome =>
    simp only [work?, hworker] at hwork
    obtain rfl := Option.some.inj hwork
    exact turnsLeft_of_decided rfl (by simp) (by simp) (by simp [Worker.lastTurns, hworker])
  | reported =>
    simp only [work?, hworker] at hwork
    obtain rfl := Option.some.inj hwork
    exact turnsLeft_of_decided rfl (by simp) (by simp) (by simp [Worker.lastTurns, hworker])
  | ended => simp [work?, hworker] at hwork

theorem turnsLeft_of_attempt (hp : h.Paced delay maxWait moves) (hdelay : 0 < delay)
    (hcall : h.call? = none) (hworker : h.worker = .attempting) (outcome : Outcome ε) :
    (h.afterAttempt outcome).turnsLeft < h.turnsLeft := by
  rcases outcome with error | (_ | _)
  · exact turnsLeft_of_decided rfl (by simp [afterAttempt]) (by simp [afterAttempt])
      (by simp [afterAttempt, Worker.lastTurns, hworker])
  · rw [afterAttempt]
    split_ifs with hstop
    · exact turnsLeft_of_decided rfl (by simp) (by simp) (by simp [Worker.lastTurns, hworker])
    · obtain ⟨deadline, hcaller, hopen⟩ := waits_of_call_eq_none hp hcall (.inl hworker) hstop
      rw [← hp.delay_eq] at hdelay
      simp only [turnsLeft, callerTurns, workerTurns, hcaller, hworker]
      exact Nat.add_lt_add_left (pauseTurns_attempted hdelay hopen) 5
  · exact turnsLeft_of_decided rfl (by simp [afterAttempt]) (by simp [afterAttempt])
      (by simp [afterAttempt, Worker.lastTurns, hworker])

theorem turnsLeft_of_idle (hp : h.Paced delay maxWait moves) (hreturned : ∀ outcome, h.caller ≠ .returned outcome)
    (hcall : h.call? = none) (hwork : h.work? = none) (hattempting : h.worker ≠ .attempting)
    {nanos : Nat} (hpassed : h.timeLeft ≤ nanos) :
    ({ h with clock := h.clock + nanos } : Handshake ε).turnsLeft < h.turnsLeft := by
  cases hworker : h.worker with
  | attempting => exact absurd hworker hattempting
  | waiting limit =>
    have hnot : ¬ h.stop = true ∧ ¬ limit ≤ h.clock := by
      simp only [work?, hworker] at hwork
      split_ifs at hwork with hstop hlimit
      exact ⟨hstop, hlimit⟩
    obtain ⟨deadline, hcaller, hopen⟩ := waits_of_call_eq_none hp hcall (.inr ⟨limit, hworker⟩) hnot.1
    simp only [timeLeft, hcaller, hworker] at hpassed
    simp only [turnsLeft, callerTurns, workerTurns, hcaller, hworker]
    exact Nat.add_lt_add_left (pauseTurns_later (by omega) hpassed) 5
  | finished outcome => simp [work?, hworker] at hwork
  | reported => simp [work?, hworker] at hwork
  | ended =>
    obtain ⟨outcome, hinbox⟩ := inbox_of_ended hp.follows hworker
    rcases returned_or_call_of_ended hworker hinbox with ⟨received, hcaller⟩ | ⟨next, hmove⟩
    · exact absurd hcaller (hreturned received)
    · rw [move?, hcall] at hmove
      cases hmove

/-! ## Enough turns -/

/-- What the turn of a wait is, and why it is no other one. -/
inductive TurnOf (h : Handshake ε) : Turn ε → Prop
  | over {outcome : Outcome ε} : h.caller = .returned outcome → h.TurnOf (.over outcome)
  | call {next : Handshake ε} : h.call? = some next → h.TurnOf (.call next)
  | work {next : Handshake ε} : h.call? = none → h.work? = some next → h.TurnOf (.work next)
  | attempt : h.call? = none → h.worker = .attempting → h.TurnOf .attempt
  | idle : (∀ outcome, h.caller ≠ .returned outcome) → h.call? = none → h.work? = none →
    h.worker ≠ .attempting → h.TurnOf (.idle h.timeLeft)

theorem turnOf_turn (h : Handshake ε) : h.TurnOf h.turn := by
  rw [turn.eq_def]
  split
  · exact .over ‹_›
  · rename_i hreturned
    split
    · exact .call ‹_›
    · exact .work ‹_› ‹_›
    · split
      · exact .attempt ‹_› ‹_›
      · exact .idle hreturned ‹_› ‹_› ‹_›

theorem workerTurns_le (hp : h.Paced delay maxWait moves) :
    h.workerTurns ≤ attemptTurns delay maxWait + 2 := by
  have hfive := five_le_attemptTurns delay maxWait
  have hlast : h.worker.lastTurns ≤ 3 := by
    cases h.worker <;> simp [Worker.lastTurns]
  have hleft : ∀ deadline, h.caller = .waiting deadline →
      attemptTurns delay (deadline - h.clock) ≤ attemptTurns delay maxWait := by
    intro deadline hcaller
    obtain ⟨before, after, hmoves, -, rfl⟩ := hp.follows.waiting deadline hcaller
    have hclock := hp.follows.clock_eq
    rw [hmoves, elapsed_append] at hclock
    exact attemptTurns_mono delay (by omega)
  unfold workerTurns
  rw [hp.delay_eq, hp.follows.maxWait_eq]
  split
  case h_1 => omega
  case h_2 => omega
  case h_3 deadline hcaller _ =>
    have hle := hleft deadline hcaller
    omega
  case h_4 deadline limit hcaller _ =>
    have hle := hleft deadline hcaller
    have hpause := pauseTurns_le delay h.clock deadline limit
    omega
  case h_5 => omega

/-- From whatever state a wait has come to, its turns are bounded by the time it may take. -/
theorem turnsLeft_le (hp : h.Paced delay maxWait moves) : h.turnsLeft ≤ 3 * (maxWait / delay) + 13 := by
  have hworker := workerTurns_le hp
  have hcaller : h.callerTurns ≤ 6 := by
    unfold callerTurns
    split <;> omega
  unfold turnsLeft
  unfold attemptTurns at hworker
  omega

end Handshake

end DirLock.Wait
