import DirLock.Proofs.Wait.Deadline

/-!
# How a wait with a deadline goes on

Until the caller has returned and the worker has ended, one of the two can move, at once or when a
timer that runs has run out, and the wait can still come to its end. A worker that was told to stop
begins one more attempt at most, however long it waits between two attempts: it sees the message when
the attempt that is under way ends, and only a message that comes while it waits can escape it. And
the caller returns after the worker has ended.

What the runs keep is said by `Follows`, which tells where the outcome is, and by two properties of
the state alone: a caller that has returned leaves an ended worker behind (`Joined`), and a worker
that was told to stop and still goes on has the message before it (`Told`).
-/

namespace DirLock.Wait.Handshake

variable {ε : Type} {h next last : Handshake ε} {moves : List (Move ε)}

/-- The caller has returned and the worker has ended. -/
def IsOver (h : Handshake ε) : Prop := (∃ outcome, h.caller = .returned outcome) ∧ h.worker = .ended

/-- One of the parties can move at once, or when the next of the timers that run has run out. -/
inductive CanGoOn (h : Handshake ε) : Prop
  | call {next : Handshake ε} : h.move? .call = some next → CanGoOn h
  | work {next : Handshake ε} : h.move? .work = some next → CanGoOn h
  /-- The worker is in an attempt, which may end in any way. -/
  | attempt : (∀ outcome, ∃ next, h.move? (.attempted outcome) = some next) → CanGoOn h
  | timer {later next : Handshake ε} : 0 < h.timeLeft → h.move? (.tick h.timeLeft) = some later →
    later.move? .call = some next ∨ later.move? .work = some next → CanGoOn h

def isAttempting (h : Handshake ε) : Bool :=
  match h.worker with
  | .attempting => true
  | _ => false

/-- How many attempts the worker begins with the moves. -/
def begun : List (Move ε) → Handshake ε → Nat
  | [], _ => 0
  | move :: moves, h =>
    match h.move? move with
    | none => 0
    | some next => (if !h.isAttempting && next.isAttempting then 1 else 0) + begun moves next

/-! ## One move -/

/-- What a move does to the worker and to the message that tells it to stop. -/
inductive WorkerStep (h next : Handshake ε) : Prop
  | stays : next.worker = h.worker → (h.stop = true → next.stop = true) → WorkerStep h next
  | begins {limit : Nat} : h.worker = .waiting limit → next.worker = .attempting →
    next.stop = h.stop → WorkerStep h next
  | waits {limit : Nat} : h.worker = .attempting → next.worker = .waiting limit →
    h.stop = false → WorkerStep h next
  | finishes {outcome : Outcome ε} : h.worker ≠ .ended → next.worker = .finished outcome →
    WorkerStep h next
  | reports {outcome : Outcome ε} : h.worker = .finished outcome → next.worker = .reported →
    WorkerStep h next
  | ends : h.worker = .reported → next.worker = .ended → WorkerStep h next

theorem workerStep_afterAttempt (hworker : h.worker = .attempting) (outcome : Outcome ε) :
    h.WorkerStep (h.afterAttempt outcome) := by
  have hne : h.worker ≠ .ended := by simp [hworker]
  rcases outcome with error | (_ | _)
  · exact .finishes hne rfl
  · rw [afterAttempt]
    split_ifs with hstop
    · exact .finishes hne rfl
    · exact .waits hworker rfl (Bool.eq_false_iff.2 hstop)
  · exact .finishes hne rfl

theorem workerStep_of_work (hwork : h.work? = some next) : h.WorkerStep next := by
  cases hworker : h.worker with
  | attempting => simp [work?, hworker] at hwork
  | waiting limit =>
    simp only [work?, hworker] at hwork
    split_ifs at hwork <;> obtain rfl := Option.some.inj hwork
    · exact .finishes (by simp [hworker]) rfl
    · exact .begins hworker rfl rfl
  | finished outcome =>
    simp only [work?, hworker] at hwork
    obtain rfl := Option.some.inj hwork
    exact .reports hworker rfl
  | reported =>
    simp only [work?, hworker] at hwork
    obtain rfl := Option.some.inj hwork
    exact .ends hworker rfl
  | ended => simp [work?, hworker] at hwork

theorem worker_of_call (hcall : h.call? = some next) :
    next.worker = h.worker ∧ next.delay = h.delay ∧ (h.stop = true → next.stop = true) := by
  unfold call? at hcall
  split at hcall
  · obtain rfl := Option.some.inj hcall
    exact ⟨rfl, rfl, id⟩
  · obtain rfl := Option.some.inj hcall
    exact ⟨rfl, rfl, id⟩
  · split_ifs at hcall
    obtain rfl := Option.some.inj hcall
    exact ⟨rfl, rfl, id⟩
  · obtain rfl := Option.some.inj hcall
    exact ⟨rfl, rfl, fun _ => rfl⟩
  · obtain rfl := Option.some.inj hcall
    exact ⟨rfl, rfl, id⟩
  · cases hcall
  · split at hcall
    · obtain rfl := Option.some.inj hcall
      exact ⟨rfl, rfl, id⟩
    · cases hcall
  · cases hcall

theorem workerStep_of_move {move : Move ε} (hmove : h.move? move = some next) : h.WorkerStep next := by
  cases move with
  | attempted outcome =>
    cases hworker : h.worker <;> simp only [move?, hworker, reduceCtorEq] at hmove
    obtain rfl := Option.some.inj hmove
    exact workerStep_afterAttempt hworker outcome
  | work => exact workerStep_of_work hmove
  | call =>
    obtain ⟨hworker, -, hstop⟩ := worker_of_call hmove
    exact .stays hworker hstop
  | missStop =>
    cases hworker : h.worker <;> simp only [move?, hworker, reduceCtorEq] at hmove
    split_ifs at hmove
    obtain rfl := Option.some.inj hmove
    exact .begins hworker rfl rfl
  | missReport =>
    cases hcaller : h.caller <;> simp only [move?, hcaller, reduceCtorEq] at hmove
    split_ifs at hmove
    obtain rfl := Option.some.inj hmove
    exact .stays rfl id
  | tick nanos =>
    obtain rfl := Option.some.inj hmove
    exact .stays rfl id

theorem play_keeps {P : Handshake ε → Prop}
    (hkeep : ∀ {h next : Handshake ε} {move : Move ε}, P h → h.move? move = some next → P next)
    (hp : P h) (hrun : h.play moves = some last) : P last := by
  induction moves generalizing h with
  | nil =>
    obtain rfl := Option.some.inj hrun
    exact hp
  | cons move moves ih =>
    obtain ⟨next, hnext, hrest⟩ := Option.bind_eq_some_iff.1 hrun
    exact ih (hkeep hp hnext) hrest

/-! ## A worker that was told to stop -/

/-- A worker that still goes on has the message before it. -/
def Told (h : Handshake ε) : Prop :=
  h.worker = .attempting ∨ (∃ limit, h.worker = .waiting limit) → h.stop = true

/-- How many attempts a worker that was told to stop can still begin. -/
def toBegin (h : Handshake ε) : Nat :=
  match h.worker with
  | .waiting _ => 1
  | _ => 0

theorem Told.step (htold : h.Told) (hstep : h.WorkerStep next) :
    next.Told ∧ (if !h.isAttempting && next.isAttempting then 1 else 0) + next.toBegin ≤ h.toBegin := by
  cases hstep with
  | stays hworker hstop =>
    refine ⟨fun hgoes => hstop (htold (by rwa [hworker] at hgoes)), ?_⟩
    unfold isAttempting toBegin
    rw [hworker]
    cases h.worker <;> simp
  | begins hworker hnext hstop =>
    refine ⟨fun _ => hstop.trans (htold (.inr ⟨_, hworker⟩)), ?_⟩
    simp [isAttempting, toBegin, hworker, hnext]
  | waits hworker hnext hstop =>
    rw [htold (.inl hworker)] at hstop
    cases hstop
  | finishes _ hnext => exact ⟨by simp [Told, hnext], by simp [isAttempting, toBegin, hnext]⟩
  | reports _ hnext => exact ⟨by simp [Told, hnext], by simp [isAttempting, toBegin, hnext]⟩
  | ends _ hnext => exact ⟨by simp [Told, hnext], by simp [isAttempting, toBegin, hnext]⟩

theorem Told.begun_le (htold : h.Told) (moves : List (Move ε)) : begun moves h ≤ h.toBegin := by
  induction moves generalizing h with
  | nil => exact Nat.zero_le _
  | cons move moves ih =>
    rw [begun]
    cases hmove : h.move? move with
    | none => exact Nat.zero_le _
    | some next =>
      obtain ⟨hnext, hcount⟩ := htold.step (workerStep_of_move hmove)
      have hrest := ih hnext
      dsimp only
      omega

theorem toBegin_le_one (h : Handshake ε) : h.toBegin ≤ 1 := by
  unfold toBegin
  split
  · exact Nat.le_refl 1
  · exact Nat.zero_le 1

theorem told_of_cancelling (hcancelling : h.isCancelling = true) (hcall : h.move? .call = some next) :
    next.Told := by
  cases hcaller : h.caller <;> simp only [isCancelling, hcaller, reduceCtorEq] at hcancelling
  simp only [move?, call?, hcaller] at hcall
  obtain rfl := Option.some.inj hcall
  exact fun _ => rfl

/-! ## A worker that has ended -/

theorem WorkerStep.ended (hstep : h.WorkerStep next) (hended : h.worker = .ended) :
    next.worker = .ended := by
  cases hstep with
  | stays hworker _ => rw [hworker, hended]
  | begins hworker _ _ => simp [hended] at hworker
  | waits hworker _ _ => simp [hended] at hworker
  | finishes hne _ => exact absurd hended hne
  | reports hworker _ => simp [hended] at hworker
  | ends hworker _ => simp [hended] at hworker

theorem no_attempt_of_ended (hended : h.worker = .ended) (hrun : h.play moves = some last) :
    outcomes moves = [] ∧ begun moves h = 0 := by
  induction moves generalizing h with
  | nil => exact ⟨rfl, rfl⟩
  | cons move moves ih =>
    obtain ⟨next, hmove, hrest⟩ := Option.bind_eq_some_iff.1 hrun
    have hnext := (workerStep_of_move hmove).ended hended
    obtain ⟨houts, hbegun⟩ := ih hnext hrest
    have hnone : move.outcome? = none := by
      cases move with
      | attempted outcome => simp [move?, hended] at hmove
      | _ => rfl
    constructor
    · rwa [outcomes, List.filterMap_cons_none hnone]
    · rw [begun, hmove]
      simp [isAttempting, hended, hnext, hbegun]

theorem caller_of_move {move : Move ε} (hmove : h.move? move = some next) :
    next.caller = h.caller ∨ h.call? = some next ∨ next.caller = .cancelling := by
  cases move with
  | attempted outcome =>
    left
    cases hworker : h.worker <;> simp only [move?, hworker, reduceCtorEq] at hmove
    obtain rfl := Option.some.inj hmove
    rcases outcome with error | (_ | _)
    · rfl
    · rw [afterAttempt]
      split_ifs <;> rfl
    · rfl
  | work =>
    left
    cases hworker : h.worker <;> simp only [move?, work?, hworker, reduceCtorEq] at hmove
    case waiting limit =>
      split_ifs at hmove <;> obtain rfl := Option.some.inj hmove <;> rfl
    all_goals
      obtain rfl := Option.some.inj hmove
      rfl
  | call => exact .inr (.inl hmove)
  | missStop =>
    left
    cases hworker : h.worker <;> simp only [move?, hworker, reduceCtorEq] at hmove
    split_ifs at hmove
    obtain rfl := Option.some.inj hmove
    rfl
  | missReport =>
    cases hcaller : h.caller <;> simp only [move?, hcaller, reduceCtorEq] at hmove
    split_ifs at hmove
    obtain rfl := Option.some.inj hmove
    exact .inr (.inr rfl)
  | tick nanos =>
    obtain rfl := Option.some.inj hmove
    exact .inl rfl

theorem worker_of_returning (hcall : h.call? = some next) {outcome : Outcome ε}
    (hreturned : next.caller = .returned outcome) : h.worker = .ended := by
  cases hcaller : h.caller with
  | joining received =>
    cases hworker : h.worker <;> simp [call?, hcaller, hworker] at hcall
    rfl
  | waiting limit =>
    cases hreport : h.report <;> simp only [call?, hcaller, hreport] at hcall
    · split_ifs at hcall
      obtain rfl := Option.some.inj hcall
      cases hreturned
    · obtain rfl := Option.some.inj hcall
      cases hreturned
  | collecting =>
    cases hreport : h.report <;> simp only [call?, hcaller, hreport, reduceCtorEq] at hcall
    obtain rfl := Option.some.inj hcall
    cases hreturned
  | starting =>
    simp only [call?, hcaller] at hcall
    obtain rfl := Option.some.inj hcall
    cases hreturned
  | cancelling =>
    simp only [call?, hcaller] at hcall
    obtain rfl := Option.some.inj hcall
    cases hreturned
  | returned received => simp [call?, hcaller] at hcall

/-- A caller that has returned leaves an ended worker behind. -/
def Joined (h : Handshake ε) : Prop := (∃ outcome, h.caller = .returned outcome) → h.worker = .ended

theorem Joined.step (hjoined : h.Joined) {move : Move ε} (hmove : h.move? move = some next) :
    next.Joined := by
  rintro ⟨outcome, hreturned⟩
  apply (workerStep_of_move hmove).ended
  rcases caller_of_move hmove with hsame | hcall | hcancelling
  · exact hjoined ⟨outcome, by rw [← hsame, hreturned]⟩
  · exact worker_of_returning hcall hreturned
  · rw [hreturned] at hcancelling
    cases hcancelling

/-! ## Somebody can move -/

theorem inbox_of_ended {maxWait : Nat} (hf : h.Follows maxWait moves) (hended : h.worker = .ended) :
    ∃ outcome, h.inbox = some outcome := by
  have haccounted := hf.accounted
  rw [Accounted, hended] at haccounted
  obtain ⟨outcome, -, hinbox⟩ := haccounted
  exact ⟨outcome, hinbox⟩

theorem call_of_starting (hcaller : h.caller = .starting) :
    h.move? .call = some { h with caller := .waiting (h.clock + h.maxWait) } := by
  simp only [move?, call?, hcaller]

theorem call_of_cancelling (hcaller : h.caller = .cancelling) :
    h.move? .call = some { h with caller := .collecting, stop := true } := by
  simp only [move?, call?, hcaller]

theorem call_of_report {outcome : Outcome ε}
    (hcaller : (∃ limit, h.caller = .waiting limit) ∨ h.caller = .collecting)
    (hreport : h.report = some outcome) :
    h.move? .call = some { h with caller := .joining outcome, report := none } := by
  rcases hcaller with ⟨limit, hcaller⟩ | hcaller
  · simp only [move?, call?, hcaller, hreport]
  · simp only [move?, call?, hcaller, hreport]

theorem call_of_ended {outcome : Outcome ε} (hcaller : h.caller = .joining outcome)
    (hended : h.worker = .ended) :
    h.move? .call = some { h with caller := .returned outcome } := by
  simp only [move?, call?, hcaller, hended]

theorem call_of_deadline {deadline : Nat} (hcaller : h.caller = .waiting deadline)
    (hreport : h.report = none) (hpassed : deadline ≤ h.clock) :
    h.move? .call = some { h with caller := .cancelling } := by
  simp only [move?, call?, hcaller, hreport]
  rw [if_pos hpassed]

theorem move_of_attempting (hworker : h.worker = .attempting) (outcome : Outcome ε) :
    h.move? (.attempted outcome) = some (h.afterAttempt outcome) := by
  rw [move?, hworker]

theorem work_of_stop {limit : Nat} (hworker : h.worker = .waiting limit) (hstop : h.stop = true) :
    h.move? .work = some { h with worker := .finished (.ok false), stop := false } := by
  simp only [move?, work?, hworker]
  rw [if_pos hstop]

theorem work_of_passed {limit : Nat} (hworker : h.worker = .waiting limit) (hstop : ¬ h.stop = true)
    (hpassed : limit ≤ h.clock) : h.move? .work = some { h with worker := .attempting } := by
  simp only [move?, work?, hworker]
  rw [if_neg hstop, if_pos hpassed]

theorem work_of_finished {outcome : Outcome ε} (hworker : h.worker = .finished outcome) :
    h.move? .work = some { h with worker := .reported, report := some outcome } := by
  rw [move?, work?, hworker]

theorem work_of_reported (hworker : h.worker = .reported) :
    h.move? .work = some { h with worker := .ended } := by
  rw [move?, work?, hworker]

theorem returned_or_call_of_ended (hended : h.worker = .ended) {outcome : Outcome ε}
    (hinbox : h.inbox = some outcome) :
    (∃ outcome, h.caller = .returned outcome) ∨ ∃ next, h.move? .call = some next := by
  cases hcaller : h.caller with
  | returned outcome => exact .inl ⟨outcome, rfl⟩
  | starting => exact .inr ⟨_, call_of_starting hcaller⟩
  | cancelling => exact .inr ⟨_, call_of_cancelling hcaller⟩
  | joining received => exact .inr ⟨_, call_of_ended hcaller hended⟩
  | waiting limit =>
    rw [inbox, hcaller] at hinbox
    exact .inr ⟨_, call_of_report (.inl ⟨limit, hcaller⟩) hinbox⟩
  | collecting =>
    rw [inbox, hcaller] at hinbox
    exact .inr ⟨_, call_of_report (.inr hcaller) hinbox⟩

/-- A worker that waits can move, or the caller can, or one of them has a timer that runs. -/
theorem canGoOn_of_waiting {limit : Nat} (hworker : h.worker = .waiting limit)
    (hinbox : h.inbox = none) (hjoined : h.Joined) : h.CanGoOn := by
  by_cases hstop : h.stop = true
  · exact .work (work_of_stop hworker hstop)
  by_cases hlimit : limit ≤ h.clock
  · exact .work (work_of_passed hworker hstop hlimit)
  have hworks : limit ≤ h.clock + h.timeLeft → h.CanGoOn := by
    intro hpassed
    have hwork := work_of_passed (h := { h with clock := h.clock + h.timeLeft }) hworker hstop hpassed
    exact .timer (by omega) rfl (.inr hwork)
  cases hcaller : h.caller with
  | starting => exact .call (call_of_starting hcaller)
  | cancelling => exact .call (call_of_cancelling hcaller)
  | collecting =>
    have hleft : h.timeLeft = limit - h.clock := by simp only [timeLeft, hcaller, hworker]
    exact hworks (by omega)
  | waiting deadline =>
    rw [inbox, hcaller] at hinbox
    have hleft : h.timeLeft = min deadline limit - h.clock := by
      simp only [timeLeft, hcaller, hworker]
    by_cases hpassed : deadline ≤ h.clock
    · exact .call (call_of_deadline hcaller hinbox hpassed)
    by_cases hfirst : deadline ≤ limit
    · have hcall := call_of_deadline (h := { h with clock := h.clock + h.timeLeft }) hcaller hinbox
        (by dsimp only; omega)
      exact .timer (by omega) rfl (.inl hcall)
    · exact hworks (by omega)
  | joining outcome => simp [inbox, hcaller] at hinbox
  | returned outcome => simp [hjoined ⟨outcome, hcaller⟩] at hworker

theorem Follows.isOver_or_canGoOn {maxWait : Nat} (hf : h.Follows maxWait moves)
    (hjoined : h.Joined) : h.IsOver ∨ h.CanGoOn := by
  have haccounted := hf.accounted
  cases hworker : h.worker with
  | attempting => exact .inr (.attempt fun outcome => ⟨_, move_of_attempting hworker outcome⟩)
  | waiting limit =>
    rw [Accounted, hworker] at haccounted
    exact .inr (canGoOn_of_waiting hworker haccounted.2.2 hjoined)
  | finished outcome => exact .inr (.work (work_of_finished hworker))
  | reported => exact .inr (.work (work_of_reported hworker))
  | ended =>
    obtain ⟨outcome, hinbox⟩ := inbox_of_ended hf hworker
    rcases returned_or_call_of_ended hworker hinbox with hreturned | ⟨next, hcall⟩
    · exact .inl ⟨hreturned, hworker⟩
    · exact .inr (.call hcall)

/-! ## The wait can come to its end -/

theorem ends_of_reported (hworker : h.worker = .reported) :
    ∃ more last, h.play more = some last ∧ last.worker = .ended :=
  play_of_move (work_of_reported hworker) ⟨[], _, rfl, rfl⟩

theorem ends_of_finished {outcome : Outcome ε} (hworker : h.worker = .finished outcome) :
    ∃ more last, h.play more = some last ∧ last.worker = .ended :=
  play_of_move (work_of_finished hworker) (ends_of_reported rfl)

theorem ends_of_attempting (hworker : h.worker = .attempting) :
    ∃ more last, h.play more = some last ∧ last.worker = .ended := by
  have hended : (h.afterAttempt (.ok true)).worker = .finished (.ok true) := rfl
  exact play_of_move (move_of_attempting hworker (.ok true)) (ends_of_finished hended)

theorem worker_ends (h : Handshake ε) :
    ∃ more last, h.play more = some last ∧ last.worker = .ended := by
  cases hworker : h.worker with
  | attempting => exact ends_of_attempting hworker
  | finished outcome => exact ends_of_finished hworker
  | reported => exact ends_of_reported hworker
  | ended => exact ⟨[], h, rfl, hworker⟩
  | waiting limit =>
    -- The timer runs out; then the worker sees the message or attempts once more.
    have htick : h.move? (.tick limit) = some { h with clock := h.clock + limit } := rfl
    apply play_of_move htick
    by_cases hstop : h.stop = true
    · exact play_of_move (work_of_stop hworker hstop) (ends_of_finished rfl)
    · have hpassed : limit ≤ h.clock + limit := Nat.le_add_left ..
      exact play_of_move (work_of_passed hworker hstop hpassed) (ends_of_attempting rfl)

theorem returns_of_joining {outcome : Outcome ε} (hcaller : h.caller = .joining outcome)
    (hended : h.worker = .ended) : ∃ more last, h.play more = some last ∧ last.IsOver :=
  play_of_move (call_of_ended hcaller hended) ⟨[], _, rfl, ⟨outcome, rfl⟩, hended⟩

theorem returns_of_report {outcome : Outcome ε}
    (hcaller : (∃ limit, h.caller = .waiting limit) ∨ h.caller = .collecting)
    (hreport : h.report = some outcome) (hended : h.worker = .ended) :
    ∃ more last, h.play more = some last ∧ last.IsOver :=
  play_of_move (call_of_report hcaller hreport) (returns_of_joining rfl hended)

theorem caller_returns (hended : h.worker = .ended) {outcome : Outcome ε}
    (hinbox : h.inbox = some outcome) : ∃ more last, h.play more = some last ∧ last.IsOver := by
  cases hcaller : h.caller with
  | returned received => exact ⟨[], h, rfl, ⟨received, hcaller⟩, hended⟩
  | joining received => exact returns_of_joining hcaller hended
  | waiting limit =>
    rw [inbox, hcaller] at hinbox
    exact returns_of_report (.inl ⟨limit, hcaller⟩) hinbox hended
  | collecting =>
    rw [inbox, hcaller] at hinbox
    exact returns_of_report (.inr hcaller) hinbox hended
  | starting =>
    rw [inbox, hcaller] at hinbox
    exact play_of_move (call_of_starting hcaller) (returns_of_report (.inl ⟨_, rfl⟩) hinbox hended)
  | cancelling =>
    rw [inbox, hcaller] at hinbox
    exact play_of_move (call_of_cancelling hcaller) (returns_of_report (.inr rfl) hinbox hended)

/-- Whatever has happened so far, there are moves with which the wait comes to its end. -/
theorem play_completes {delay maxWait : Nat} (hrun : (start delay maxWait).play moves = some h) :
    ∃ more last, h.play more = some last ∧ last.IsOver := by
  obtain ⟨front, middle, hfront, hended⟩ := worker_ends h
  have hmiddle : (start delay maxWait).play (moves ++ front) = some middle := by
    rw [play_append, hrun]
    exact hfront
  obtain ⟨outcome, hinbox⟩ := inbox_of_ended (follows_play hmiddle) hended
  obtain ⟨back, last, hback, hover⟩ := caller_returns hended hinbox
  refine ⟨front ++ back, last, ?_, hover⟩
  rw [play_append, hfront]
  exact hback

/-! ## All together -/

/-- A wait with a deadline never gets stuck, and nothing of it is left when it returns. After every run,
either the caller has returned and the worker has ended, or one of them can move, at once or when a
timer has run out; and the wait can still come to its end. From the move on with which the caller tells
the worker to stop, at most one attempt begins. When the caller has returned, the worker has ended, and
no attempt ends or begins any more. -/
theorem play_progresses {delay maxWait : Nat} (hrun : (start delay maxWait).play moves = some h) :
    (h.IsOver ∨ h.CanGoOn) ∧ (∃ more last, h.play more = some last ∧ last.IsOver) ∧
    (∀ before after middle, moves = before ++ .call :: after →
      (start delay maxWait).play before = some middle → middle.isCancelling = true →
        begun (.call :: after) middle ≤ 1) ∧
    (∀ outcome, h.caller = .returned outcome → h.worker = .ended ∧
      ∀ more last, h.play more = some last → outcomes more = [] ∧ begun more h = 0) := by
  have hjoined : h.Joined :=
    play_keeps (fun hjoined hmove => hjoined.step hmove) (by rintro ⟨outcome, ⟨⟩⟩) hrun
  refine ⟨(follows_play hrun).isOver_or_canGoOn hjoined, play_completes hrun, ?_, ?_⟩
  · rintro before after middle rfl hbefore hcancelling
    rw [play_append, hbefore] at hrun
    change middle.play (.call :: after) = some h at hrun
    obtain ⟨next, hcall, -⟩ := Option.bind_eq_some_iff.1 hrun
    have htold := told_of_cancelling hcancelling hcall
    -- The worker does not move with the message, so no attempt begins with it.
    have hsame : next.isAttempting = middle.isAttempting := by
      rw [isAttempting, isAttempting, (worker_of_call hcall).1]
    rw [begun, hcall]
    have hrest := htold.begun_le after
    have hone := next.toBegin_le_one
    simp only [hsame, Bool.not_and_self, Bool.false_eq_true, if_false]
    omega
  · intro outcome hreturned
    have hended := hjoined ⟨outcome, hreturned⟩
    exact ⟨hended, fun more last hmore => no_attempt_of_ended hended hmore⟩

/-- The moves up to the one with which the worker is told to stop, while it waits. -/
def untilStop : List (Move LockError) :=
  [.call, .attempted (.ok false), .tick 9, .call]

/-- The moves after it: the worker misses the message and attempts once more. -/
def afterStop : List (Move LockError) :=
  [.missStop, .attempted (.ok false), .work, .call, .work, .call]

/-- The worker begins one attempt after it was told to stop, and has ended when the caller returns. -/
theorem missedStop_progresses : ∃ middle h, (start 5 8).play untilStop = some middle ∧
    middle.isCancelling = true ∧ (start 5 8).play (untilStop ++ .call :: afterStop) = some h ∧
    h.caller = .returned (.ok false) ∧ begun (.call :: afterStop) middle = 1 ∧
    begun (.call :: afterStop) middle ≤ 1 ∧ h.IsOver := by
  have hmiddle : (start 5 8).play untilStop =
      some ⟨5, 8, 9, .waiting 5, .cancelling, none, false, 1⟩ := rfl
  have hrun : (start 5 8).play (untilStop ++ .call :: afterStop) =
      some ⟨5, 8, 9, .ended, .returned (.ok false), none, false, 2⟩ := rfl
  obtain ⟨-, -, hstop, hreturned⟩ := play_progresses hrun
  exact ⟨_, _, hmiddle, rfl, hrun, rfl, rfl, hstop untilStop afterStop _ rfl hmiddle rfl,
    ⟨_, rfl⟩, (hreturned _ rfl).1⟩

end DirLock.Wait.Handshake
