import DirLock.Proofs.Wait.Turns

/-!
# How many attempts a wait makes

Between the end of one attempt and the beginning of the next the whole delay passes. So the time that a wait
takes bounds the number of its attempts, in whatever order its parties move. A wait that takes less than one
delay makes a single attempt. How long the caller meant to wait does not matter for that: a caller that is held
up for a delay before it tells the worker to stop has the worker attempt once more.
-/

namespace DirLock.Wait.Handshake

variable {ε : Type} {h next : Handshake ε} {moves : List (Move ε)} {made delay maxWait : Nat}

/-- So many attempts have been made, a delay apart from each other. -/
def Spaced (h : Handshake ε) (made : Nat) : Prop :=
  match h.worker with
  | .attempting => made * h.delay ≤ h.clock
  | .waiting limit => made * h.delay ≤ limit ∧ limit ≤ h.clock + h.delay
  | _ => made * h.delay ≤ h.clock + h.delay

theorem Spaced.le (hs : h.Spaced made) : made * h.delay ≤ h.clock + h.delay := by
  unfold Spaced at hs
  split at hs <;> omega

/-- Whoever leaves the worker alone, and does not turn back the clock, keeps the attempts apart. -/
theorem Spaced.later (hs : h.Spaced made) (hworker : next.worker = h.worker) (hdelay : next.delay = h.delay)
    (hclock : h.clock ≤ next.clock) : next.Spaced made := by
  unfold Spaced at hs ⊢
  rw [hworker, hdelay]
  split at hs <;> omega

theorem Spaced.attempted (hs : h.Spaced made) (hworker : h.worker = .attempting) (outcome : Outcome ε) :
    (h.afterAttempt outcome).Spaced (made + 1) := by
  have hbegun : made * h.delay ≤ h.clock := by rwa [Spaced, hworker] at hs
  have hended : (made + 1) * h.delay ≤ h.clock + h.delay := by
    rw [Nat.succ_mul]
    omega
  rcases outcome with error | (_ | _)
  · exact hended
  · rw [afterAttempt]
    split_ifs
    · exact hended
    · exact ⟨hended, Nat.le_refl _⟩
  · exact hended

theorem Spaced.begins (hs : h.Spaced made) {limit : Nat} (hworker : h.worker = .waiting limit)
    (hpassed : limit ≤ h.clock) : Spaced { h with worker := .attempting } made := by
  rw [Spaced, hworker] at hs
  exact Nat.le_trans hs.1 hpassed

theorem Spaced.work (hs : h.Spaced made) (hwork : h.work? = some next) : next.Spaced made := by
  cases hworker : h.worker with
  | attempting => simp [work?, hworker] at hwork
  | waiting limit =>
    simp only [work?, hworker] at hwork
    split_ifs at hwork with hstop hpassed
    · obtain rfl := Option.some.inj hwork
      exact hs.le
    · obtain rfl := Option.some.inj hwork
      exact hs.begins hworker hpassed
  | finished outcome =>
    simp only [work?, hworker] at hwork
    obtain rfl := Option.some.inj hwork
    exact hs.le
  | reported =>
    simp only [work?, hworker] at hwork
    obtain rfl := Option.some.inj hwork
    exact hs.le
  | ended => simp [work?, hworker] at hwork

theorem Spaced.move (hs : h.Spaced (outcomes moves).length) (hf : h.Follows maxWait moves) {move : Move ε}
    (hmove : h.move? move = some next) : next.Spaced (outcomes (moves ++ [move])).length := by
  cases move with
  | attempted outcome =>
    cases hworker : h.worker <;> simp only [move?, hworker, reduceCtorEq] at hmove
    obtain rfl := Option.some.inj hmove
    rw [outcomes_append, List.length_append]
    exact hs.attempted hworker outcome
  | work =>
    rw [outcomes_concat_of_none moves rfl]
    exact hs.work hmove
  | call =>
    rw [outcomes_concat_of_none moves rfl]
    obtain ⟨hworker, hdelay, -⟩ := worker_of_call hmove
    have hclock : next.clock = h.clock := by
      rw [(hf.move hmove).clock_eq, elapsed_append, hf.clock_eq]
      rfl
    exact hs.later hworker hdelay (Nat.le_of_eq hclock.symm)
  | missStop =>
    rw [outcomes_concat_of_none moves rfl]
    cases hworker : h.worker <;> simp only [move?, hworker, reduceCtorEq] at hmove
    split_ifs at hmove with hpassed
    obtain rfl := Option.some.inj hmove
    exact hs.begins hworker hpassed
  | missReport =>
    rw [outcomes_concat_of_none moves rfl]
    cases hcaller : h.caller <;> simp only [move?, hcaller, reduceCtorEq] at hmove
    split_ifs at hmove
    obtain rfl := Option.some.inj hmove
    exact hs.later rfl rfl (Nat.le_refl _)
  | tick nanos =>
    rw [outcomes_concat_of_none moves rfl]
    obtain rfl := Option.some.inj hmove
    exact hs.later rfl rfl (Nat.le_add_right _ _)

theorem spaced_play (hrun : (start delay maxWait).play moves = some h) :
    h.Paced delay maxWait moves ∧ h.Spaced (outcomes moves).length := by
  induction moves using List.reverseRecOn generalizing h with
  | nil =>
    obtain rfl := Option.some.inj hrun
    exact ⟨.start delay maxWait, Nat.le_of_eq (Nat.zero_mul _)⟩
  | append_singleton moves move ih =>
    obtain ⟨before, hbefore, hlast⟩ := play_concat hrun
    obtain ⟨hp, hs⟩ := ih hbefore
    exact ⟨hp.move hlast, hs.move hp.follows hlast⟩

/-- A wait makes one attempt, and one more for every delay that passes. -/
theorem outcomes_spaced (hrun : (start delay maxWait).play moves = some h) :
    (outcomes moves).length * delay ≤ elapsed moves + delay := by
  obtain ⟨hp, hs⟩ := spaced_play hrun
  rw [← hp.follows.clock_eq, ← hp.delay_eq]
  exact hs.le

/-- A wait that takes less than a delay makes a single attempt, and returns its outcome. -/
theorem outcomes_eq_of_returned (hrun : (start delay maxWait).play moves = some h) {outcome : Outcome ε}
    (hreturned : h.caller = .returned outcome) (hsoon : elapsed moves < delay) : outcomes moves = [outcome] := by
  obtain ⟨before, houts, -⟩ := (follows_play hrun).endsWith (show h.inbox = some outcome by rw [inbox, hreturned])
  have hspaced := outcomes_spaced hrun
  rw [houts, List.length_append, Nat.add_mul, List.length_singleton, Nat.one_mul] at hspaced
  have hnone : before = [] := by
    rw [← List.length_eq_zero_iff, ← Nat.lt_one_iff]
    refine Nat.lt_of_mul_lt_mul_right (a := delay) ?_
    omega
  rw [houts, hnone, List.nil_append]

/-- The caller is to wait for no time at all, but is held up for a delay before it sees that the time has passed. -/
def heldUp : List (Move LockError) :=
  [.call, .attempted (.ok false), .tick 5, .work, .call, .call, .attempted (.ok true), .work, .call, .work, .call]

example : (start 5 0).play heldUp = some ⟨5, 0, 5, .ended, .returned (.ok true), none, true, 2⟩ := rfl

end DirLock.Wait.Handshake
