import DirLock.Proofs.Lock.Pace

/-!
# The course of a wait

A wait is made of attempts and pauses. They are read off its run (`beats`): an attempt begins with the look at the
claim's place, and how it ends depends on nothing but the state in which it begins. A wait that has lost a number of
attempts has gone through as many rounds, each an attempt and the whole delay after it.
-/

namespace DirLock

open Wait (Outcome)

/-! ## Runs that are the same -/

namespace Routine

variable {α β σ : Type}

/-- From this state the two make the same requests, each in the same state, and end alike. -/
structure SameRun (answer : (r : Request) → σ → r.Reply × σ) (routine other : Routine α) (state : σ) : Prop where
  trace_eq : routine.trace answer state = other.trace answer state
  run_eq : routine.run answer state = other.run answer state

variable {answer : (r : Request) → σ → r.Reply × σ} {routine other third : Routine α} {state : σ}

theorem SameRun.refl (routine : Routine α) (state : σ) : SameRun answer routine routine state := ⟨rfl, rfl⟩

theorem SameRun.symm (h : SameRun answer routine other state) : SameRun answer other routine state :=
  ⟨h.trace_eq.symm, h.run_eq.symm⟩

theorem SameRun.trans (h : SameRun answer routine other state) (h' : SameRun answer other third state) :
    SameRun answer routine third state :=
  ⟨h.trace_eq.trans h'.trace_eq, h.run_eq.trans h'.run_eq⟩

theorem SameRun.after (routine : Routine α) {f g : α → Routine β}
    (h : SameRun answer (f (routine.run answer state).1) (g (routine.run answer state).1)
      (routine.run answer state).2) : SameRun answer (routine >>= f) (routine >>= g) state := by
  constructor
  · rw [trace_bind, trace_bind, h.trace_eq]
  · rw [bind_eq, bind_eq, run_bind, run_bind]
    exact h.run_eq

theorem SameRun.bind (h : SameRun answer routine other state) (f : α → Routine β) :
    SameRun answer (routine >>= f) (other >>= f) state := by
  constructor
  · rw [trace_bind, trace_bind, h.trace_eq, h.run_eq]
  · rw [bind_eq, bind_eq, run_bind, run_bind, h.run_eq]

end Routine

open Routine (SameRun)

/-- The nanoseconds that a pause asks for. -/
def Request.pause? : Request → Option Nat
  | .pause nanos => some nanos
  | _ => none

namespace Lock

/-! ## What a wait is made of -/

inductive Beat where
  /-- An attempt, and how it ended. -/
  | attempted (outcome : Outcome LockError)
  /-- A pause of so many nanoseconds. -/
  | paused (nanos : Nat)
  deriving DecidableEq

def Beat.outcome? : Beat → Option (Outcome LockError)
  | attempted outcome => some outcome
  | paused _ => none

variable {σ α β : Type} {lock : Lock} {claimant : Claimant} {answer : (r : Request) → σ → r.Reply × σ} {state : σ}

/-- What begins with a request that was made in this state. -/
def beat? (lock : Lock) (claimant : Claimant) (answer : (r : Request) → σ → r.Reply × σ) :
    Request × σ → Option Beat
  | (r, state) =>
    if r = lock.opening then some (.attempted ((lock.tryClaim claimant).run answer state).1)
    else r.pause?.map .paused

/-- The attempts and pauses of a run. -/
def beats (lock : Lock) (claimant : Claimant) (answer : (r : Request) → σ → r.Reply × σ) (routine : Routine α)
    (state : σ) : List Beat :=
  (routine.trace answer state).filterMap (lock.beat? claimant answer)

/-- How the attempts of a run ended. -/
def attempts (lock : Lock) (claimant : Claimant) (answer : (r : Request) → σ → r.Reply × σ) (routine : Routine α)
    (state : σ) : List (Outcome LockError) :=
  (lock.beats claimant answer routine state).filterMap Beat.outcome?

theorem beat_opening : lock.beat? claimant answer (lock.opening, state) =
    some (.attempted ((lock.tryClaim claimant).run answer state).1) := if_pos rfl

theorem beat_of_stages {dir : Disk.Path} {made : Request × σ} (h : lock.Stages dir made.1) :
    lock.beat? claimant answer made = none := by
  obtain ⟨r, state⟩ := made
  rw [beat?, if_neg h.ne_opening, Option.map_eq_none_iff]
  cases r with
  | pause nanos => exact absurd h id
  | _ => rfl

theorem beats_bind (routine : Routine α) (f : α → Routine β) :
    lock.beats claimant answer (routine >>= f) state = lock.beats claimant answer routine state ++
      lock.beats claimant answer (f (routine.run answer state).1) (routine.run answer state).2 := by
  rw [beats, Routine.trace_bind, List.filterMap_append]
  rfl

theorem attempts_bind (routine : Routine α) (f : α → Routine β) :
    lock.attempts claimant answer (routine >>= f) state = lock.attempts claimant answer routine state ++
      lock.attempts claimant answer (f (routine.run answer state).1) (routine.run answer state).2 := by
  rw [attempts, beats_bind, List.filterMap_append]
  rfl

theorem beats_tryClaim : lock.beats claimant answer (lock.tryClaim claimant) state =
    [.attempted ((lock.tryClaim claimant).run answer state).1] := by
  obtain ⟨rest, htrace, hstages⟩ := lock.trace_tryClaim claimant answer state
  have hrest : rest.filterMap (lock.beat? claimant answer) = [] :=
    List.filterMap_eq_nil_iff.2 fun made hmem => beat_of_stages (hstages made hmem)
  rw [beats, htrace, List.filterMap_cons_some beat_opening, hrest]

theorem beats_pauseBetween :
    lock.beats claimant answer lock.pauseBetween state = [.paused lock.pauseNanos] := rfl

/-! ## Courses -/

/-- How a run went: what came of it, and what it was made of. -/
structure Course (lock : Lock) (claimant : Claimant) (answer : (r : Request) → σ → r.Reply × σ)
    (routine : Routine α) (state : σ) (result : α) (made : List Beat) : Prop where
  result_eq : (routine.run answer state).1 = result
  beats_eq : lock.beats claimant answer routine state = made

variable {routine other : Routine α} {f : α → Routine β} {result : α} {last : β} {made more : List Beat}

theorem Course.of_same (hsame : SameRun answer routine other state)
    (h : lock.Course claimant answer other state result made) :
    lock.Course claimant answer routine state result made := by
  constructor
  · rw [hsame.run_eq, h.result_eq]
  · rw [beats, hsame.trace_eq, ← h.beats_eq, beats]

theorem Course.bind (h : lock.Course claimant answer routine state result made)
    (hnext : ∀ after, lock.Course claimant answer (f result) after last more) :
    lock.Course claimant answer (routine >>= f) state last (made ++ more) := by
  constructor
  · rw [Routine.bind_eq, Routine.run_bind, h.result_eq]
    exact (hnext _).result_eq
  · rw [beats_bind, h.beats_eq, h.result_eq, (hnext _).beats_eq]

theorem Course.bind_nil (h : lock.Course claimant answer routine state result made)
    (hnext : ∀ after, lock.Course claimant answer (f result) after last []) :
    lock.Course claimant answer (routine >>= f) state last made := by
  have hbind := h.bind hnext
  rwa [List.append_nil] at hbind

theorem Course.length_attempts (h : lock.Course claimant answer routine state result made) :
    (lock.attempts claimant answer routine state).length = (made.filterMap Beat.outcome?).length := by
  rw [attempts, h.beats_eq]

theorem course_pure (value : α) : lock.Course claimant answer (pure value) state value [] := ⟨rfl, rfl⟩

/-! ## Rounds -/

/-- An attempt, whatever comes of it, and the delay after it. -/
def round (lock : Lock) (claimant : Claimant) : Routine Unit := do
  let _ ← lock.tryClaim claimant
  lock.pauseBetween

def rounds (lock : Lock) (claimant : Claimant) : Nat → Routine Unit
  | 0 => return ()
  | n + 1 => do
    lock.rounds claimant n
    lock.round claimant

/-- So many rounds, and one attempt more. -/
def attemptAfter (lock : Lock) (claimant : Claimant) (n : Nat) : Routine (Outcome LockError) := do
  lock.rounds claimant n
  lock.tryClaim claimant

/-- How the attempt after so many rounds ends. -/
def outcomeAfter (lock : Lock) (claimant : Claimant) (answer : (r : Request) → σ → r.Reply × σ) (state : σ)
    (n : Nat) : Outcome LockError :=
  ((lock.attemptAfter claimant n).run answer state).1

/-- So many attempts that were lost, with the delay after each. -/
def lostRounds (lock : Lock) (n : Nat) : List Beat :=
  (List.replicate n [Beat.attempted (.ok false), .paused lock.pauseNanos]).flatten

variable {n : Nat}

theorem outcomeAfter_eq : lock.outcomeAfter claimant answer state n =
    ((lock.tryClaim claimant).run answer ((lock.rounds claimant n).run answer state).2).1 := by
  rw [outcomeAfter, attemptAfter, Routine.bind_eq, Routine.run_bind]

theorem lostRounds_succ (lock : Lock) (n : Nat) :
    lock.lostRounds (n + 1) = lock.lostRounds n ++ [.attempted (.ok false), .paused lock.pauseNanos] := by
  simp [lostRounds, List.replicate_succ']

theorem length_lostRounds (lock : Lock) (n : Nat) :
    ((lock.lostRounds n).filterMap Beat.outcome?).length = n := by
  induction n with
  | zero => rfl
  | succ n ih =>
    rw [lostRounds_succ, List.filterMap_append, List.length_append, ih]
    rfl

theorem length_lostRounds_append (lock : Lock) (n : Nat) (outcome : Outcome LockError) {rest : List Beat}
    (hrest : rest.filterMap Beat.outcome? = []) :
    ((lock.lostRounds n ++ .attempted outcome :: rest).filterMap Beat.outcome?).length = n + 1 := by
  have hone : (Beat.attempted outcome :: rest).filterMap Beat.outcome? = [outcome] := by
    simp [Beat.outcome?, hrest]
  rw [List.filterMap_append, hone, List.length_append, length_lostRounds, List.length_singleton]

theorem beats_round : lock.beats claimant answer (lock.round claimant) state =
    [.attempted ((lock.tryClaim claimant).run answer state).1, .paused lock.pauseNanos] := by
  rw [round, beats_bind, beats_tryClaim, beats_pauseBetween]
  rfl

theorem course_rounds (hlost : ∀ i < n, lock.outcomeAfter claimant answer state i = .ok false) :
    lock.Course claimant answer (lock.rounds claimant n) state () (lock.lostRounds n) := by
  refine ⟨rfl, ?_⟩
  induction n with
  | zero => rfl
  | succ n ih =>
    have hlast := hlost n (Nat.lt_succ_self n)
    rw [outcomeAfter_eq] at hlast
    rw [rounds, beats_bind, ih fun i hi => hlost i (Nat.lt_succ_of_lt hi), beats_round, hlast, lostRounds_succ]

theorem course_attemptAfter (hlost : ∀ i < n, lock.outcomeAfter claimant answer state i = .ok false) :
    lock.Course claimant answer (lock.attemptAfter claimant n) state (lock.outcomeAfter claimant answer state n)
      (lock.lostRounds n ++ [.attempted (lock.outcomeAfter claimant answer state n)]) := by
  refine ⟨rfl, ?_⟩
  rw [attemptAfter, beats_bind, (course_rounds hlost).beats_eq, beats_tryClaim, outcomeAfter_eq]

theorem sameRun_rounds (left : Nat → Routine α)
    (hlost : ∀ i < n, lock.outcomeAfter claimant answer state i = .ok false)
    (hround : ∀ i < n, ∀ after, ((lock.tryClaim claimant).run answer after).1 = .ok false →
      SameRun answer (left i) (lock.round claimant >>= fun _ => left (i + 1)) after) :
    SameRun answer (left 0) (lock.rounds claimant n >>= fun _ => left n) state := by
  -- The last round is taken off, since the state in which its attempt is lost is the one behind the others.
  induction n with
  | zero =>
    rw [rounds, pure_bind]
    exact .refl _ _
  | succ n ih =>
    have hlast := hlost n (Nat.lt_succ_self n)
    rw [outcomeAfter_eq] at hlast
    have hfront := ih (fun i hi => hlost i (Nat.lt_succ_of_lt hi)) fun i hi => hround i (Nat.lt_succ_of_lt hi)
    apply hfront.trans
    rw [rounds, bind_assoc]
    apply SameRun.after
    exact hround n (Nat.lt_succ_self n) _ hlast

end Lock

end DirLock
