import DirLock.Lock.Acquire
import Mathlib.Data.List.Induction

/-!
# What a wait with a deadline reports

The outcome that the caller returns is that of the worker's last attempt, in whatever order the two
move and however much time passes in between. What carries this through a run is that the outcome is
at every moment in one place only: with the worker, on its way, or with the caller (`Accounted`).
-/

namespace DirLock.Wait

variable {ε : Type}

/-! ## Runs -/

/-- The outcome of the attempt that ends with the move. -/
def Move.outcome? : Move ε → Option (Outcome ε)
  | .attempted outcome => some outcome
  | _ => none

/-- The time that passes with the move. -/
def Move.nanos : Move ε → Nat
  | .tick nanos => nanos
  | _ => 0

/-- Whether the caller does what it does next. -/
def Move.isCall : Move ε → Bool
  | .call => true
  | _ => false

/-- The outcomes of the attempts, in order. -/
def outcomes (moves : List (Move ε)) : List (Outcome ε) := moves.filterMap Move.outcome?

/-- The time that passes with the moves. -/
def elapsed : List (Move ε) → Nat
  | [] => 0
  | move :: moves => move.nanos + elapsed moves

/-- So much time has passed since the caller's first move, with which it starts to wait. -/
def HasWaited (nanos : Nat) (moves : List (Move ε)) : Prop :=
  ∃ before after, moves = before ++ .call :: after ∧ before.any Move.isCall = false ∧
    nanos ≤ elapsed after

/-- Every outcome says that the lock was taken. -/
def AllLost (outs : List (Outcome ε)) : Prop := ∀ o ∈ outs, o = .ok false

/-- The outcome is the last one, and those before it say that the lock was taken. -/
def EndsWith (outs : List (Outcome ε)) (outcome : Outcome ε) : Prop :=
  ∃ before, outs = before ++ [outcome] ∧ AllLost before

@[simp] theorem outcomes_append (moves more : List (Move ε)) :
    outcomes (moves ++ more) = outcomes moves ++ outcomes more :=
  List.filterMap_append

@[simp] theorem elapsed_append (moves more : List (Move ε)) :
    elapsed (moves ++ more) = elapsed moves + elapsed more := by
  induction moves with
  | nil => simp [elapsed]
  | cons move moves ih =>
    rw [List.cons_append, elapsed, elapsed, ih]
    omega

theorem HasWaited.append {nanos : Nat} {moves : List (Move ε)} (h : HasWaited nanos moves)
    (more : List (Move ε)) : HasWaited nanos (moves ++ more) := by
  obtain ⟨before, after, rfl, hfirst, hle⟩ := h
  refine ⟨before, after ++ more, by simp, hfirst, ?_⟩
  rw [elapsed_append]
  omega

theorem AllLost.append {outs : List (Outcome ε)} (h : AllLost outs) :
    AllLost (outs ++ [.ok false]) := by
  intro o ho
  rcases List.mem_append.1 ho with ho | ho
  · exact h o ho
  · exact List.mem_singleton.1 ho

theorem EndsWith.getLast?_eq {outs : List (Outcome ε)} {outcome : Outcome ε}
    (h : EndsWith outs outcome) : outs.getLast? = some outcome := by
  obtain ⟨before, rfl, -⟩ := h
  simp

namespace Handshake

/-- Where moves lead, if they can all be made one after the other. -/
def play : List (Move ε) → Handshake ε → Option (Handshake ε)
  | [], h => some h
  | move :: moves, h => (h.move? move).bind (play moves)

theorem play_append (moves more : List (Move ε)) (h : Handshake ε) :
    h.play (moves ++ more) = (h.play moves).bind (play more) := by
  induction moves generalizing h with
  | nil => rfl
  | cons move moves ih =>
    simp only [List.cons_append, play, Option.bind_assoc]
    exact congrArg _ (funext ih)

theorem play_concat {moves : List (Move ε)} {move : Move ε} {h next : Handshake ε}
    (hrun : h.play (moves ++ [move]) = some next) :
    ∃ before, h.play moves = some before ∧ before.move? move = some next := by
  rw [play_append, Option.bind_eq_some_iff] at hrun
  obtain ⟨before, hbefore, hlast⟩ := hrun
  obtain ⟨last, hmove, hend⟩ := Option.bind_eq_some_iff.1 hlast
  obtain rfl := Option.some.inj hend
  exact ⟨before, hbefore, hmove⟩

theorem play_of_move {move : Move ε} {h next : Handshake ε} {P : Handshake ε → Prop}
    (hmove : h.move? move = some next) (hnext : ∃ moves last, next.play moves = some last ∧ P last) :
    ∃ moves last, h.play moves = some last ∧ P last := by
  obtain ⟨moves, last, hplay, hlast⟩ := hnext
  exact ⟨move :: moves, last, by rw [play, hmove]; exact hplay, hlast⟩

/-! ## What every move keeps -/

/-- The outcome that the caller has received, or that waits to be received. -/
def inbox (h : Handshake ε) : Option (Outcome ε) :=
  match h.caller with
  | .joining outcome => some outcome
  | .returned outcome => some outcome
  | _ => h.report

/-- The outcome is where the worker's part of the wait says it is. -/
def Accounted (h : Handshake ε) (outs : List (Outcome ε)) : Prop :=
  match h.worker with
  | .attempting => AllLost outs ∧ h.inbox = none
  | .waiting _ => outs ≠ [] ∧ AllLost outs ∧ h.inbox = none
  | .finished outcome => EndsWith outs outcome ∧ h.inbox = none
  | .reported => ∃ outcome, EndsWith outs outcome ∧ h.inbox = some outcome
  | .ended => ∃ outcome, EndsWith outs outcome ∧ h.inbox = some outcome

/-- What holds after the moves of any run. -/
structure Follows (h : Handshake ε) (maxWait : Nat) (moves : List (Move ε)) : Prop where
  maxWait_eq : h.maxWait = maxWait
  clock_eq : h.clock = elapsed moves
  accounted : h.Accounted (outcomes moves)
  starting : h.caller = .starting → moves.any Move.isCall = false
  /-- The caller waits until the deadline. -/
  waiting : ∀ limit, h.caller = .waiting limit → ∃ before after,
    moves = before ++ .call :: after ∧ before.any Move.isCall = false ∧
      limit = elapsed before + maxWait
  /-- The caller stops waiting only when the deadline has passed, and only then is the worker told
  to stop. -/
  cancelling : h.caller = .cancelling ∨ h.caller = .collecting ∨ h.stop = true →
    HasWaited maxWait moves
  /-- A wait that was stopped, and no other, ends with an attempt that found the lock taken. -/
  stopped : (h.worker = .finished (.ok false) ∨ h.inbox = some (.ok false)) →
    HasWaited maxWait moves

theorem Follows.start (delay maxWait : Nat) : (start delay maxWait : Handshake ε).Follows maxWait [] where
  maxWait_eq := rfl
  clock_eq := rfl
  accounted := ⟨fun o ho => absurd ho List.not_mem_nil, rfl⟩
  starting := fun _ => rfl
  waiting := fun limit h => nomatch h
  cancelling := by rintro (h | h | h) <;> cases h
  stopped := by rintro (h | h) <;> cases h

section Step

variable {h next : Handshake ε} {maxWait : Nat} {moves : List (Move ε)}

theorem Follows.hasWaited (hf : h.Follows maxWait moves) {limit : Nat} (hcaller : h.caller = .waiting limit)
    (hpassed : limit ≤ h.clock) : HasWaited maxWait moves := by
  obtain ⟨before, after, hmoves, hfirst, rfl⟩ := hf.waiting limit hcaller
  refine ⟨before, after, hmoves, hfirst, ?_⟩
  have hclock := hf.clock_eq
  rw [hmoves, elapsed_append] at hclock
  have hcall : elapsed (Move.call :: after : List (Move ε)) = elapsed after := by
    simp [elapsed, Move.nanos]
  omega

theorem Follows.of_worker (hf : h.Follows maxWait moves) {move : Move ε} (hnanos : move.nanos = 0)
    (hcall : move.isCall = false) (hclock : next.clock = h.clock)
    (hmaxWait : next.maxWait = h.maxWait) (hcaller : next.caller = h.caller)
    (hstop : next.stop = true → h.stop = true)
    (haccounted : next.Accounted (outcomes (moves ++ [move])))
    (hstopped : (next.worker = .finished (.ok false) ∨ next.inbox = some (.ok false)) →
      HasWaited maxWait moves) :
    next.Follows maxWait (moves ++ [move]) where
  maxWait_eq := hmaxWait.trans hf.maxWait_eq
  clock_eq := by simp [hclock, hf.clock_eq, elapsed, hnanos]
  accounted := haccounted
  starting := fun hstarting => by
    rw [List.any_append, hf.starting (hcaller ▸ hstarting)]
    simp [hcall]
  waiting := fun limit hwaiting => by
    obtain ⟨before, after, rfl, hfirst, hlimit⟩ := hf.waiting limit (hcaller ▸ hwaiting)
    exact ⟨before, after ++ [move], by simp, hfirst, hlimit⟩
  cancelling := fun hcancel => by
    rw [hcaller] at hcancel
    exact (hf.cancelling (hcancel.imp_right (Or.imp_right hstop))).append _
  stopped := fun hfalse => (hstopped hfalse).append _

theorem inbox_afterAttempt (h : Handshake ε) (outcome : Outcome ε) :
    (h.afterAttempt outcome).inbox = h.inbox := by
  rcases outcome with error | (_ | _)
  · rfl
  · rw [afterAttempt]
    split_ifs <;> rfl
  · rfl

theorem Follows.attempted (hf : h.Follows maxWait moves) (hworker : h.worker = .attempting)
    (outcome : Outcome ε) :
    (h.afterAttempt outcome).Follows maxWait (moves ++ [.attempted outcome]) := by
  have haccounted := hf.accounted
  rw [Accounted, hworker] at haccounted
  obtain ⟨hlost, hinbox⟩ := haccounted
  have houts : outcomes (moves ++ [.attempted outcome]) = outcomes moves ++ [outcome] := by
    rw [outcomes_append]
    rfl
  have hnone : (h.afterAttempt outcome).inbox = none := by rw [inbox_afterAttempt, hinbox]
  rcases outcome with error | (_ | _)
  · refine hf.of_worker rfl rfl rfl rfl rfl id ?_ ?_
    · exact ⟨⟨_, houts, hlost⟩, hnone⟩
    · rw [hnone]
      rintro (h | h) <;> cases h
  · rw [afterAttempt] at hnone ⊢
    split_ifs at hnone ⊢ with hstop
    · refine hf.of_worker rfl rfl rfl rfl rfl (fun h => nomatch h) ⟨⟨_, houts, hlost⟩, hnone⟩ ?_
      exact fun _ => hf.cancelling (.inr (.inr hstop))
    · refine hf.of_worker rfl rfl rfl rfl rfl id ?_ ?_
      · exact ⟨by simp [houts], by rw [houts]; exact hlost.append, hnone⟩
      · rw [hnone]
        rintro (h | h) <;> cases h
  · refine hf.of_worker rfl rfl rfl rfl rfl id ?_ ?_
    · exact ⟨⟨_, houts, hlost⟩, hnone⟩
    · rw [hnone]
      rintro (h | h) <;> cases h

theorem outcomes_concat_of_none (moves : List (Move ε)) {move : Move ε}
    (hmove : move.outcome? = none) :
    outcomes (moves ++ [move]) = outcomes moves := by
  rw [outcomes_append]
  simp [outcomes, hmove]

theorem inbox_report (hinbox : h.inbox = none) (worker : Worker ε) (outcome : Outcome ε) :
    { h with worker := worker, report := some outcome }.inbox = some outcome := by
  unfold inbox at hinbox ⊢
  cases hcaller : h.caller <;> simp_all

theorem Follows.work (hf : h.Follows maxWait moves) (hwork : h.work? = some next) :
    next.Follows maxWait (moves ++ [.work]) := by
  have houts : outcomes (moves ++ [.work]) = outcomes moves := outcomes_concat_of_none moves rfl
  have haccounted := hf.accounted
  rw [Accounted] at haccounted
  rw [work?] at hwork
  cases hworker : h.worker with
  | attempting => simp [hworker] at hwork
  | waiting limit =>
    rw [hworker] at hwork haccounted
    obtain ⟨hne, hlost, hinbox⟩ := haccounted
    dsimp only at hwork
    split_ifs at hwork with hstop hlimit
    · obtain rfl := Option.some.inj hwork
      refine hf.of_worker rfl rfl rfl rfl rfl (fun h => nomatch h) ?_ fun _ =>
        hf.cancelling (.inr (.inr hstop))
      obtain ⟨before, last, hsplit⟩ : ∃ before last, outcomes moves = before ++ [last] :=
        ⟨_, _, (List.dropLast_concat_getLast hne).symm⟩
      rw [hsplit] at hlost
      have hlast : last = .ok false := hlost last (by simp)
      refine ⟨⟨before, ?_, fun o ho => hlost o (by simp [ho])⟩, hinbox⟩
      rw [houts, hsplit, hlast]
    · obtain rfl := Option.some.inj hwork
      refine hf.of_worker rfl rfl rfl rfl rfl id ?_ ?_
      · exact ⟨by rwa [houts], hinbox⟩
      · rintro (h | h)
        · cases h
        · exact hf.stopped (.inr h)
  | finished outcome =>
    rw [hworker] at hwork haccounted
    obtain ⟨hends, hinbox⟩ := haccounted
    obtain rfl := Option.some.inj hwork
    have hreport := inbox_report hinbox .reported outcome
    refine hf.of_worker rfl rfl rfl rfl rfl id ⟨outcome, by rwa [houts], hreport⟩ ?_
    rintro (h | h)
    · cases h
    · rw [hreport] at h
      exact hf.stopped (.inl (by rw [hworker, Option.some.inj h]))
  | reported =>
    rw [hworker] at hwork haccounted
    obtain rfl := Option.some.inj hwork
    refine hf.of_worker rfl rfl rfl rfl rfl id (by rw [houts]; exact haccounted) ?_
    rintro (h | h)
    · cases h
    · exact hf.stopped (.inr h)
  | ended => simp [hworker] at hwork

theorem Follows.missStop (hf : h.Follows maxWait moves) {limit : Nat} (hworker : h.worker = .waiting limit) :
    ({ h with worker := .attempting } : Handshake ε).Follows maxWait (moves ++ [.missStop]) := by
  have houts : outcomes (moves ++ [.missStop]) = outcomes moves :=
    outcomes_concat_of_none moves rfl
  have haccounted := hf.accounted
  rw [Accounted, hworker] at haccounted
  refine hf.of_worker rfl rfl rfl rfl rfl id ?_ ?_
  · exact ⟨by rw [houts]; exact haccounted.2.1, haccounted.2.2⟩
  · rintro (h | h)
    · cases h
    · exact hf.stopped (.inr h)

/-- A move of the caller's takes no time and leaves alone where the outcome is, unless it is the one
that is received. -/
theorem Follows.of_caller (hf : h.Follows maxWait moves) {move : Move ε} (hnanos : move.nanos = 0)
    (hout : move.outcome? = none) (hclock : next.clock = h.clock)
    (hmaxWait : next.maxWait = h.maxWait) (hworker : next.worker = h.worker)
    (hinbox : next.inbox = h.inbox) (hstarting : next.caller ≠ .starting)
    (hwaiting : ∀ limit, next.caller = .waiting limit → ∃ before after,
      moves ++ [move] = before ++ .call :: after ∧ before.any Move.isCall = false ∧
        limit = elapsed before + maxWait)
    (hcancelling : next.caller = .cancelling ∨ next.caller = .collecting ∨ next.stop = true →
      HasWaited maxWait moves) :
    next.Follows maxWait (moves ++ [move]) where
  maxWait_eq := hmaxWait.trans hf.maxWait_eq
  clock_eq := by simp [hclock, hf.clock_eq, elapsed, hnanos]
  accounted := by
    have haccounted := hf.accounted
    rw [outcomes_concat_of_none moves hout]
    rwa [Accounted, hworker, hinbox]
  starting := fun h => absurd h hstarting
  waiting := hwaiting
  cancelling := fun hcancel => (hcancelling hcancel).append _
  stopped := fun hfalse => by
    rw [hworker, hinbox] at hfalse
    exact (hf.stopped hfalse).append _

theorem Follows.call (hf : h.Follows maxWait moves) (hcall : h.call? = some next) :
    next.Follows maxWait (moves ++ [.call]) := by
  have hstop : h.stop = true → HasWaited maxWait moves := fun hs =>
    hf.cancelling (.inr (.inr hs))
  rw [call?] at hcall
  cases hcaller : h.caller with
  | starting =>
    rw [hcaller] at hcall
    obtain rfl := Option.some.inj hcall
    refine hf.of_caller rfl rfl rfl rfl rfl (by simp [inbox, hcaller]) nofun ?_ ?_
    · intro limit hlimit
      refine ⟨moves, [], rfl, hf.starting hcaller, ?_⟩
      rw [← hf.clock_eq, ← hf.maxWait_eq]
      exact (Caller.waiting.inj hlimit).symm
    · rintro (h | h | h)
      · cases h
      · cases h
      · exact hstop h
  | waiting limit =>
    rw [hcaller] at hcall
    cases hreport : h.report with
    | some outcome =>
      rw [hreport] at hcall
      obtain rfl := Option.some.inj hcall
      refine hf.of_caller rfl rfl rfl rfl rfl (by simp [inbox, hcaller, hreport]) nofun nofun ?_
      rintro (h | h | h)
      · cases h
      · cases h
      · exact hstop h
    | none =>
      rw [hreport] at hcall
      dsimp only at hcall
      split_ifs at hcall with hlimit
      obtain rfl := Option.some.inj hcall
      exact hf.of_caller rfl rfl rfl rfl rfl (by simp [inbox, hcaller, hreport]) nofun nofun
        fun _ => hf.hasWaited hcaller hlimit
  | cancelling =>
    rw [hcaller] at hcall
    obtain rfl := Option.some.inj hcall
    exact hf.of_caller rfl rfl rfl rfl rfl (by simp [inbox, hcaller]) nofun nofun
      fun _ => hf.cancelling (.inl hcaller)
  | collecting =>
    rw [hcaller] at hcall
    cases hreport : h.report with
    | some outcome =>
      rw [hreport] at hcall
      obtain rfl := Option.some.inj hcall
      exact hf.of_caller rfl rfl rfl rfl rfl (by simp [inbox, hcaller, hreport]) nofun nofun
        fun _ => hf.cancelling (.inr (.inl hcaller))
    | none => simp [hreport] at hcall
  | joining outcome =>
    rw [hcaller] at hcall
    cases hworker : h.worker with
    | ended =>
      rw [hworker] at hcall
      obtain rfl := Option.some.inj hcall
      refine hf.of_caller rfl rfl rfl rfl hworker.symm (by simp [inbox, hcaller]) nofun nofun ?_
      rintro (h | h | h)
      · cases h
      · cases h
      · exact hstop h
    | attempting => simp [hworker] at hcall
    | waiting limit => simp [hworker] at hcall
    | finished outcome => simp [hworker] at hcall
    | reported => simp [hworker] at hcall
  | returned outcome => simp [hcaller] at hcall

theorem Follows.missReport (hf : h.Follows maxWait moves) {limit : Nat} (hcaller : h.caller = .waiting limit)
    (hpassed : limit ≤ h.clock) :
    ({ h with caller := .cancelling } : Handshake ε).Follows maxWait (moves ++ [.missReport]) :=
  hf.of_caller rfl rfl rfl rfl rfl (by simp [inbox, hcaller]) nofun nofun
    fun _ => hf.hasWaited hcaller hpassed

theorem Follows.tick (hf : h.Follows maxWait moves) (nanos : Nat) :
    ({ h with clock := h.clock + nanos } : Handshake ε).Follows maxWait (moves ++ [.tick nanos]) where
  maxWait_eq := hf.maxWait_eq
  clock_eq := by simp [hf.clock_eq, elapsed, Move.nanos]
  accounted := by
    rw [outcomes_concat_of_none moves rfl]
    exact hf.accounted
  starting := fun hstarting => by
    rw [List.any_append, hf.starting hstarting]
    rfl
  waiting := fun limit hwaiting => by
    obtain ⟨before, after, rfl, hfirst, hlimit⟩ := hf.waiting limit hwaiting
    exact ⟨before, after ++ [.tick nanos], by simp, hfirst, hlimit⟩
  cancelling := fun hcancel => (hf.cancelling hcancel).append _
  stopped := fun hfalse => (hf.stopped hfalse).append _

theorem Follows.move (hf : h.Follows maxWait moves) {move : Move ε} (hmove : h.move? move = some next) :
    next.Follows maxWait (moves ++ [move]) := by
  rw [move?.eq_def] at hmove
  cases move with
  | attempted outcome =>
    cases hworker : h.worker <;> simp only [hworker, reduceCtorEq] at hmove
    obtain rfl := Option.some.inj hmove
    exact hf.attempted hworker outcome
  | work => exact hf.work hmove
  | call => exact hf.call hmove
  | missStop =>
    cases hworker : h.worker <;> simp only [hworker, reduceCtorEq] at hmove
    split_ifs at hmove
    obtain rfl := Option.some.inj hmove
    exact hf.missStop hworker
  | missReport =>
    cases hcaller : h.caller <;> simp only [hcaller, reduceCtorEq] at hmove
    split_ifs at hmove with hpassed
    obtain rfl := Option.some.inj hmove
    exact hf.missReport hcaller hpassed
  | tick nanos =>
    obtain rfl := Option.some.inj hmove
    exact hf.tick nanos

end Step

/-! ## What the caller returns -/

theorem follows_play {delay maxWait : Nat} {moves : List (Move ε)} {h : Handshake ε}
    (hrun : (start delay maxWait).play moves = some h) : h.Follows maxWait moves := by
  induction moves using List.reverseRecOn generalizing h with
  | nil =>
    obtain rfl := Option.some.inj hrun
    exact .start delay maxWait
  | append_singleton moves move ih =>
    obtain ⟨before, hbefore, hlast⟩ := play_concat hrun
    exact (ih hbefore).move hlast

theorem Follows.endsWith {h : Handshake ε} {maxWait : Nat} {moves : List (Move ε)} (hf : h.Follows maxWait moves)
    {outcome : Outcome ε} (hinbox : h.inbox = some outcome) :
    EndsWith (outcomes moves) outcome := by
  have haccounted := hf.accounted
  rw [Accounted, hinbox] at haccounted
  cases hworker : h.worker <;> simp [hworker] at haccounted <;> exact haccounted

/-- The caller returns that it acquired the lock, or an error, exactly if the worker's last attempt
did. It returns that it did not only after at least one attempt, when every attempt found the lock
taken and the time it was told to wait has passed. -/
theorem returned_iff_last_attempt {delay maxWait : Nat} {moves : List (Move ε)} {h : Handshake ε}
    (hrun : (start delay maxWait).play moves = some h) {outcome : Outcome ε}
    (hreturned : h.caller = .returned outcome) :
    (outcome = .ok true ↔ (outcomes moves).getLast? = some (.ok true)) ∧
    (∀ error, outcome = .error error ↔ (outcomes moves).getLast? = some (.error error)) ∧
    (outcome = .ok false →
      outcomes moves ≠ [] ∧ AllLost (outcomes moves) ∧ HasWaited maxWait moves) ∧
    (.ok true ∈ outcomes moves → outcome = .ok true) := by
  have hf := follows_play hrun
  have hinbox : h.inbox = some outcome := by rw [inbox, hreturned]
  have hends := hf.endsWith hinbox
  have hlast := hends.getLast?_eq
  obtain ⟨before, houts, hlost⟩ := hends
  refine ⟨by rw [hlast, Option.some.injEq], fun error => by rw [hlast, Option.some.injEq], ?_, ?_⟩
  · rintro rfl
    refine ⟨by simp [houts], houts ▸ hlost.append, ?_⟩
    exact hf.stopped (.inr hinbox)
  · intro hmem
    rw [houts] at hmem
    rcases List.mem_append.1 hmem with hmem | hmem
    · exact absurd (hlost _ hmem) (by simp)
    · exact (List.mem_singleton.1 hmem).symm

/-- A run in which the first attempt finds the lock taken and the deadline passes during the second,
which acquires the lock after the worker was told to stop. -/
def lateSuccess : List (Move LockError) :=
  [.call, .attempted (.ok false), .tick 5, .work, .tick 4, .call, .call, .attempted (.ok true),
    .work, .call, .work, .call]

/-- The late success is reported, and no timeout. -/
theorem lateSuccess_returned :
    ∃ h, (start 5 8).play lateSuccess = some h ∧ h.caller = .returned (.ok true) ∧
      (outcomes lateSuccess).getLast? = some (.ok true) := by
  have hrun : (start 5 8).play lateSuccess =
      some ⟨5, 8, 9, .ended, .returned (.ok true), none, true, 2⟩ := rfl
  exact ⟨_, hrun, rfl, (returned_iff_last_attempt hrun rfl).1.1 rfl⟩

/-! ## The schedule in which nobody dawdles -/

theorem turn_over {h : Handshake ε} {outcome : Outcome ε} (hturn : h.turn = .over outcome) :
    h.caller = .returned outcome := by
  rw [turn.eq_def] at hturn
  split at hturn
  · rename_i hcaller
    rw [hcaller, Turn.over.inj hturn]
  · split at hturn
    · cases hturn
    · cases hturn
    · split at hturn <;> cases hturn

theorem turn_move {h next : Handshake ε} (hturn : h.turn = .call next ∨ h.turn = .work next) :
    ∃ move, h.move? move = some next := by
  rw [turn.eq_def] at hturn
  split at hturn
  · rcases hturn with hturn | hturn <;> cases hturn
  · split at hturn
    · rename_i hcall
      refine ⟨.call, ?_⟩
      rcases hturn with hturn | hturn
      · rw [move?, hcall, Turn.call.inj hturn]
      · cases hturn
    · rename_i hwork
      refine ⟨.work, ?_⟩
      rcases hturn with hturn | hturn
      · cases hturn
      · rw [move?, hwork, Turn.work.inj hturn]
    · split at hturn <;> rcases hturn with hturn | hturn <;> cases hturn

theorem turn_attempt {h : Handshake ε} (hturn : h.turn = .attempt) : h.worker = .attempting := by
  rw [turn.eq_def] at hturn
  split at hturn
  · cases hturn
  · split at hturn
    · cases hturn
    · cases hturn
    · split at hturn
      · assumption
      · cases hturn

end Handshake

end DirLock.Wait

namespace DirLock.Lock

open Wait (Move Handshake)

/-- A wait with a deadline that is over has made moves of the two parties, and returns what the
caller returns. -/
theorem takeTurns_play {σ : Type} {answer : (r : Request) → σ → r.Reply × σ} {lock : Lock}
    {claimant : Claimant} {limit : Time.Span} {turns : Nat} {wait : Handshake LockError}
    {state : σ} {outcome : Except LockError Bool}
    (hrun : ((lock.takeTurns claimant limit turns wait).run answer state).1 = some outcome) :
    ∃ moves h, wait.play moves = some h ∧ h.caller = .returned outcome := by
  induction turns generalizing wait state with
  | zero => cases hrun
  | succ turns ih =>
    rw [takeTurns] at hrun
    cases hturn : wait.turn with
    | «over» result =>
      rw [hturn] at hrun
      obtain rfl := Option.some.inj hrun
      exact ⟨[], wait, rfl, Handshake.turn_over hturn⟩
    | call next =>
      obtain ⟨move, hmove⟩ := Handshake.turn_move (.inl hturn)
      rw [hturn] at hrun
      dsimp only at hrun
      split_ifs at hrun
      · exact Handshake.play_of_move hmove (ih hrun)
      · exact Handshake.play_of_move hmove (ih hrun)
    | work next =>
      obtain ⟨move, hmove⟩ := Handshake.turn_move (.inr hturn)
      rw [hturn] at hrun
      exact Handshake.play_of_move hmove (ih hrun)
    | attempt =>
      rw [hturn] at hrun
      dsimp only at hrun
      rw [Routine.bind_eq, Routine.run_bind] at hrun
      have hmove : wait.move? (.attempted ((lock.tryClaim claimant).run answer state).1) =
          some (wait.afterAttempt ((lock.tryClaim claimant).run answer state).1) := by
        rw [Handshake.move?, Handshake.turn_attempt hturn]
      exact Handshake.play_of_move hmove (ih hrun)
    | idle nanos =>
      rw [hturn] at hrun
      have hmove : ∀ passed, wait.move? (.tick passed) =
          some { wait with clock := wait.clock + passed } := fun _ => rfl
      exact Handshake.play_of_move (hmove _) (ih hrun)

end DirLock.Lock
