import DirLock.Proofs.Wait.Progress
import DirLock.Wait.Retry

/-!
# The worker of a wait, replayed

The worker of a wait with a deadline sees how its attempts end and, between them, whether it is told to stop. That
is all the loop that is cancelled asks for. So the loop can be run again on what the worker saw, with nobody else
moving; and in whatever order the parties of the wait moved, it then makes the same attempts and ends with the
outcome that the caller returned.

The induction is over the moves. What carries it is where the worker stands in the loop (`Replayed`): the loop, run
on what was seen so far and on anything more, has come to the beginning of an attempt, or to the wait after one, or
to its end.
-/

namespace DirLock.Wait

variable {ε : Type}

/-! ## Replaying a loop -/

inductive Sight (ε : Type) where
  /-- How an attempt ended. -/
  | attempted (outcome : Outcome ε)
  /-- Whether the wait after an attempt was cancelled. -/
  | waited (cancelled : Bool)

def Sight.outcome? : Sight ε → Option (Outcome ε)
  | attempted outcome => some outcome
  | waited _ => none

/-- A computation that is shown one sight after the other. It fails if it asks for another than comes next. -/
abbrev Replay (ε : Type) := StateT (List (Sight ε)) Option

namespace Replay

def attempt : Replay ε (Outcome ε)
  | .attempted outcome :: rest => some (outcome, rest)
  | _ => none

def waitIsCancelled : Replay ε Bool
  | .waited cancelled :: rest => some (cancelled, rest)
  | _ => none

/-- The loop that is cancelled, run again on what was seen. What it does not ask for is left over. -/
def loop (tries : Nat) (seen : List (Sight ε)) : Option (Option (Outcome ε) × List (Sight ε)) :=
  (untilCancelled attempt waitIsCancelled tries).run seen

variable {tries : Nat} {more : List (Sight ε)}

theorem loop_acquired : loop (tries + 1) (.attempted (.ok true) :: more) = some (some (.ok true), more) := rfl

theorem loop_failed {error : ε} :
    loop (tries + 1) (.attempted (.error error) :: more) = some (some (.error error), more) := rfl

theorem loop_cancelled :
    loop (tries + 1) (.attempted (.ok false) :: .waited true :: more) = some (some (.ok false), more) := rfl

theorem loop_again :
    loop (tries + 1) (.attempted (.ok false) :: .waited false :: more) = loop tries more := rfl

/-- So many attempts that were lost, none of their waits cancelled. -/
def lost (ε : Type) (n : Nat) : List (Sight ε) :=
  (List.replicate n [Sight.attempted (.ok false), .waited false]).flatten

/-- After so many attempts that were lost the worker stops, with this outcome: that of an attempt that decides, or that
of one more that is lost, in whose wait it sees that it is to stop. -/
inductive Stops : List (Sight ε) → Nat → Outcome ε → Prop
  | decided (n : Nat) {outcome : Outcome ε} : outcome ≠ .ok false → Stops (lost ε n ++ [.attempted outcome]) n outcome
  | cancelled (n : Nat) : Stops (lost ε n ++ [.attempted (.ok false), .waited true]) n (.ok false)

variable {seen : List (Sight ε)} {n : Nat} {outcome : Outcome ε}

theorem Stops.again (h : Stops seen n outcome) :
    Stops (.attempted (.ok false) :: .waited false :: seen) (n + 1) outcome := by
  cases h with
  | decided n hdecides => exact .decided (n + 1) hdecides
  | cancelled n => exact .cancelled (n + 1)

theorem length_lost (n : Nat) : ((lost ε n).filterMap Sight.outcome?).length = n := by
  induction n with
  | zero => rfl
  | succ n ih => exact congrArg (· + 1) ih

theorem Stops.length_eq (h : Stops seen n outcome) : (seen.filterMap Sight.outcome?).length = n + 1 := by
  cases h with
  | decided n _ =>
    rw [List.filterMap_append, List.length_append, length_lost]
    rfl
  | cancelled n =>
    rw [List.filterMap_append, List.length_append, length_lost]
    rfl

theorem stops_of_loop (h : loop tries seen = some (some outcome, [])) : ∃ n, Stops seen n outcome := by
  induction tries generalizing seen with
  | zero => cases h
  | succ tries ih =>
    rcases seen with _ | ⟨sight, more⟩
    · cases h
    cases sight with
    | waited cancelled => cases h
    | attempted first =>
      rcases first with error | (_ | _)
      · rw [loop_failed] at h
        cases h
        exact ⟨0, .decided 0 (by simp)⟩
      · rcases more with _ | ⟨sight, more⟩
        · cases h
        cases sight with
        | attempted second => cases h
        | waited cancelled =>
          cases cancelled with
          | true =>
            rw [loop_cancelled] at h
            cases h
            exact ⟨0, .cancelled 0⟩
          | false =>
            obtain ⟨n, hstops⟩ := ih h
            exact ⟨n + 1, hstops.again⟩
      · rw [loop_acquired] at h
        cases h
        exact ⟨0, .decided 0 (by simp)⟩

end Replay

/-! ## What the worker sees -/

namespace Handshake

variable {h next last : Handshake ε} {moves : List (Move ε)} {move : Move ε}

/-- What the worker sees with a move. -/
def sees (h : Handshake ε) : Move ε → List (Sight ε)
  | .attempted (.ok false) => .attempted (.ok false) :: if h.stop then [.waited true] else []
  | .attempted outcome => [.attempted outcome]
  | .work =>
    match h.worker with
    | .waiting _ => [.waited h.stop]
    | _ => []
  | .missStop => [.waited false]
  | _ => []

/-- What the worker sees with moves that are made one after the other. -/
def seen : List (Move ε) → Handshake ε → List (Sight ε)
  | [], _ => []
  | move :: moves, h =>
    match h.move? move with
    | none => []
    | some next => h.sees move ++ seen moves next

theorem seen_concat (hrun : h.play moves = some last) (hmove : last.move? move = some next) :
    seen (moves ++ [move]) h = seen moves h ++ last.sees move := by
  induction moves generalizing h with
  | nil =>
    obtain rfl := Option.some.inj hrun
    simp [seen, hmove]
  | cons first moves ih =>
    obtain ⟨after, hfirst, hrest⟩ := Option.bind_eq_some_iff.1 hrun
    simp only [List.cons_append, seen, hfirst]
    rw [ih hrest, List.append_assoc]

theorem outcomes_sees (h : Handshake ε) (move : Move ε) :
    (h.sees move).filterMap Sight.outcome? = move.outcome?.toList := by
  cases move with
  | attempted outcome =>
    rcases outcome with error | (_ | _)
    · rfl
    · rw [sees]
      split_ifs <;> rfl
    · rfl
  | work =>
    rw [sees]
    split <;> rfl
  | call => rfl
  | missStop => rfl
  | missReport => rfl
  | tick nanos => rfl

/-- The attempts that the worker sees are those of the run. -/
theorem outcomes_seen (hrun : h.play moves = some last) :
    (seen moves h).filterMap Sight.outcome? = outcomes moves := by
  induction moves generalizing h with
  | nil => rfl
  | cons move moves ih =>
    obtain ⟨next, hmove, hrest⟩ := Option.bind_eq_some_iff.1 hrun
    simp only [seen, hmove, List.filterMap_append, outcomes_sees]
    rw [ih hrest, outcomes, outcomes, List.filterMap_cons]
    cases move.outcome? <;> rfl

/-! ## Where the worker stands -/

/-- The loop has made so many attempts with what was seen and is over, with this outcome. -/
def Ends (made : Nat) (seen : List (Sight ε)) (outcome : Outcome ε) : Prop :=
  ∀ tries more, Replay.loop (made + tries) (seen ++ more) = some (some outcome, more)

/-- The loop has made so many attempts with what was seen, and begins another one. -/
def Begins (made : Nat) (seen : List (Sight ε)) : Prop :=
  ∀ tries more, Replay.loop (made + tries) (seen ++ more) = Replay.loop tries more

/-- The loop stands where the worker stands. -/
def Replayed (h : Handshake ε) (made : Nat) (seen : List (Sight ε)) : Prop :=
  match h.worker with
  | .attempting => Begins made seen
  | .waiting _ => ∃ before, seen = before ++ [.attempted (.ok false)] ∧ ∃ lost, made = lost + 1 ∧ Begins lost before
  | .finished outcome => Ends made seen outcome
  | .reported => ∃ outcome, h.inbox = some outcome ∧ Ends made seen outcome
  | .ended => ∃ outcome, h.inbox = some outcome ∧ Ends made seen outcome

variable {made lost maxWait delay : Nat} {sights before : List (Sight ε)} {outcome : Outcome ε}

theorem Begins.decided (hb : Begins made sights) (houtcome : outcome ≠ .ok false) :
    Ends (made + 1) (sights ++ [.attempted outcome]) outcome := by
  intro tries more
  rw [List.append_assoc, Nat.add_assoc, hb, Nat.add_comm 1]
  rcases outcome with error | (_ | _)
  · exact Replay.loop_failed
  · exact absurd rfl houtcome
  · exact Replay.loop_acquired

theorem Begins.cancelled (hb : Begins lost before) :
    Ends (lost + 1) (before ++ [.attempted (.ok false), .waited true]) (.ok false) := by
  intro tries more
  rw [List.append_assoc, Nat.add_assoc, hb, Nat.add_comm 1]
  exact Replay.loop_cancelled

theorem Begins.again (hb : Begins lost before) :
    Begins (lost + 1) (before ++ [.attempted (.ok false), .waited false]) := by
  intro tries more
  rw [List.append_assoc, Nat.add_assoc, hb, Nat.add_comm 1]
  exact Replay.loop_again

theorem Replayed.attempted (hr : h.Replayed made sights) (hworker : h.worker = .attempting) (outcome : Outcome ε) :
    (h.afterAttempt outcome).Replayed (made + 1) (sights ++ h.sees (.attempted outcome)) := by
  rw [Replayed, hworker] at hr
  rcases outcome with error | (_ | _)
  · exact hr.decided (by simp)
  · rw [afterAttempt, sees]
    split_ifs with hstop
    · exact hr.cancelled
    · exact ⟨sights, rfl, made, rfl, hr⟩
  · exact hr.decided (by simp)

theorem Replayed.work (hr : h.Replayed made sights) (hf : h.Follows maxWait moves) (hwork : h.work? = some next) :
    next.Replayed made (sights ++ h.sees .work) := by
  have haccounted := hf.accounted
  rw [Accounted] at haccounted
  cases hworker : h.worker with
  | attempting => simp [work?, hworker] at hwork
  | waiting limit =>
    rw [Replayed, hworker] at hr
    obtain ⟨before, rfl, lost, rfl, hbegins⟩ := hr
    simp only [work?, hworker] at hwork
    rw [sees, hworker, List.append_assoc]
    split_ifs at hwork with hstop hlimit
    · obtain rfl := Option.some.inj hwork
      rw [hstop]
      exact hbegins.cancelled
    · obtain rfl := Option.some.inj hwork
      rw [Bool.eq_false_iff.2 hstop]
      exact hbegins.again
  | finished outcome =>
    rw [hworker] at haccounted
    rw [Replayed, hworker] at hr
    simp only [work?, hworker] at hwork
    obtain rfl := Option.some.inj hwork
    rw [sees, hworker, List.append_nil]
    exact ⟨outcome, inbox_report haccounted.2 .reported outcome, hr⟩
  | reported =>
    rw [Replayed, hworker] at hr
    simp only [work?, hworker] at hwork
    obtain rfl := Option.some.inj hwork
    rw [sees, hworker, List.append_nil]
    exact hr
  | ended => simp [work?, hworker] at hwork

theorem Replayed.stays (hr : h.Replayed made sights) (hworker : next.worker = h.worker)
    (hinbox : next.inbox = h.inbox) : next.Replayed made sights := by
  rw [Replayed, hworker, hinbox]
  exact hr

theorem inbox_of_call (hcall : h.call? = some next) : next.inbox = h.inbox := by
  unfold call? at hcall
  split at hcall
  case h_1 hcaller =>
    obtain rfl := Option.some.inj hcall
    simp [inbox, hcaller]
  case h_2 hcaller hreport =>
    obtain rfl := Option.some.inj hcall
    simp [inbox, hcaller, hreport]
  case h_3 hcaller hreport =>
    split_ifs at hcall
    obtain rfl := Option.some.inj hcall
    simp [inbox, hcaller]
  case h_4 hcaller =>
    obtain rfl := Option.some.inj hcall
    simp [inbox, hcaller]
  case h_5 hcaller hreport =>
    obtain rfl := Option.some.inj hcall
    simp [inbox, hcaller, hreport]
  case h_6 => cases hcall
  case h_7 hcaller =>
    split at hcall
    · obtain rfl := Option.some.inj hcall
      simp [inbox, hcaller]
    · cases hcall
  case h_8 => cases hcall

theorem Replayed.step (hr : h.Replayed (outcomes moves).length sights) (hf : h.Follows maxWait moves)
    (hmove : h.move? move = some next) :
    next.Replayed (outcomes (moves ++ [move])).length (sights ++ h.sees move) := by
  -- Only the worker's own moves show it something; the others leave it and the outcome it has reported alone.
  cases move with
  | attempted outcome =>
    cases hworker : h.worker <;> simp only [move?, hworker, reduceCtorEq] at hmove
    obtain rfl := Option.some.inj hmove
    rw [outcomes_append, List.length_append]
    exact hr.attempted hworker outcome
  | work =>
    rw [outcomes_concat_of_none moves rfl]
    exact hr.work hf hmove
  | call =>
    have hblind : h.sees .call = [] := rfl
    rw [outcomes_concat_of_none moves rfl, hblind, List.append_nil]
    exact hr.stays (worker_of_call hmove).1 (inbox_of_call hmove)
  | missStop =>
    rw [outcomes_concat_of_none moves rfl]
    cases hworker : h.worker <;> simp only [move?, hworker, reduceCtorEq] at hmove
    split_ifs at hmove
    obtain rfl := Option.some.inj hmove
    rw [Replayed, hworker] at hr
    obtain ⟨before, rfl, lost, hmade, hbegins⟩ := hr
    rw [hmade, List.append_assoc]
    exact hbegins.again
  | missReport =>
    have hblind : h.sees .missReport = [] := rfl
    rw [outcomes_concat_of_none moves rfl, hblind, List.append_nil]
    cases hcaller : h.caller <;> simp only [move?, hcaller, reduceCtorEq] at hmove
    split_ifs at hmove
    obtain rfl := Option.some.inj hmove
    exact hr.stays rfl (by simp [inbox, hcaller])
  | tick nanos =>
    have hblind : h.sees (.tick nanos) = [] := rfl
    rw [outcomes_concat_of_none moves rfl, hblind, List.append_nil]
    obtain rfl := Option.some.inj hmove
    exact hr.stays rfl rfl

theorem replayed_play (hrun : (start delay maxWait).play moves = some h) :
    h.Replayed (outcomes moves).length (seen moves (start delay maxWait)) := by
  induction moves using List.reverseRecOn generalizing h with
  | nil =>
    obtain rfl := Option.some.inj hrun
    intro tries more
    rw [outcomes, List.filterMap_nil, List.length_nil, Nat.zero_add]
    rfl
  | append_singleton moves move ih =>
    obtain ⟨before, hbefore, hlast⟩ := play_concat hrun
    rw [seen_concat hbefore hlast]
    exact (ih hbefore).step (follows_play hbefore) hlast

/-- The loop, run again on what the worker saw, ends with the outcome that the caller returned, and asks for nothing
that was not seen and leaves nothing over that was. -/
theorem loop_of_returned (hrun : (start delay maxWait).play moves = some h)
    (hreturned : h.caller = .returned outcome) :
    Replay.loop (outcomes moves).length (seen moves (start delay maxWait)) = some (some outcome, []) := by
  have hr := replayed_play hrun
  have hinbox : h.inbox = some outcome := by rw [inbox, hreturned]
  have haccounted := (follows_play hrun).accounted
  have hends : Ends (outcomes moves).length (seen moves (start delay maxWait)) outcome := by
    rw [Replayed] at hr
    rw [Accounted] at haccounted
    cases hworker : h.worker with
    | attempting => simp [hworker, hinbox] at haccounted
    | waiting limit => simp [hworker, hinbox] at haccounted
    | finished outcome => simp [hworker, hinbox] at haccounted
    | reported =>
      rw [hworker] at hr
      obtain ⟨received, hsame, hends⟩ := hr
      obtain rfl := Option.some.inj (hinbox.symm.trans hsame)
      exact hends
    | ended =>
      rw [hworker] at hr
      obtain ⟨received, hsame, hends⟩ := hr
      obtain rfl := Option.some.inj (hinbox.symm.trans hsame)
      exact hends
  have hall := hends 0 []
  rwa [Nat.add_zero, List.append_nil] at hall

end Handshake

end DirLock.Wait
