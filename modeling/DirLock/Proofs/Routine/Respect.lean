import DirLock.Proofs.Routine.Run

/-!
# Runs side by side

One routine is run from two states. The runs agree if they end with the same value, in states that are
related as claimed. If every request is answered the same in states that are alike, and leaves states that
are alike, the routine respects the likeness: it does not tell such states apart.
-/

namespace DirLock.Routine

variable {α β σ : Type} {answer : (r : Request) → σ → r.Reply × σ} {alike : σ → σ → Prop}
  {state state' : σ}

/-- Run from either state, the routine ends with the same value, and with states related as claimed. -/
structure Agree (answer : (r : Request) → σ → r.Reply × σ) (routine : Routine α) (state state' : σ)
    (post : α → σ → σ → Prop) : Prop where
  value_eq : (routine.run answer state).1 = (routine.run answer state').1
  related : post (routine.run answer state).1 (routine.run answer state).2
    (routine.run answer state').2

/-- The routine does not tell states that are alike from each other. -/
def Respects (answer : (r : Request) → σ → r.Reply × σ) (alike : σ → σ → Prop)
    (routine : Routine α) : Prop :=
  ∀ state state', alike state state' → Agree answer routine state state' fun _ => alike

variable {routine : Routine α} {f : α → Routine β} {post : α → σ → σ → Prop}
  {post' : β → σ → σ → Prop}

theorem agree_pure {value : α} (h : post value state state') :
    Agree answer (pure value) state state' post := ⟨rfl, h⟩

theorem Agree.mono {weaker : α → σ → σ → Prop} (h : Agree answer routine state state' post)
    (himp : ∀ value after after', post value after after' → weaker value after after') :
    Agree answer routine state state' weaker := ⟨h.value_eq, himp _ _ _ h.related⟩

theorem Agree.bind (h : Agree answer routine state state' post)
    (hnext : ∀ value after after', post value after after' →
      Agree answer (f value) after after' post') :
    Agree answer (routine >>= f) state state' post' := by
  obtain ⟨hvalue, hrelated⟩ := h
  have hagree := hnext _ _ _ hrelated
  constructor
  · rw [bind_eq, run_bind, run_bind, ← hvalue]
    exact hagree.value_eq
  · rw [bind_eq, run_bind, run_bind, ← hvalue]
    exact hagree.related

/-- Two runs that end as claimed agree, if the claims say so. -/
theorem agree_of_yields {claim claim' : α → σ → Prop} (h : Yields answer routine state claim)
    (h' : Yields answer routine state' claim')
    (himp : ∀ value value' after after', claim value after → claim' value' after' →
      value = value' ∧ post value after after') : Agree answer routine state state' post :=
  ⟨(himp _ _ _ _ h h').1, (himp _ _ _ _ h h').2⟩

theorem agree_request {r : Request} {next : r.Reply → Routine α} {reply : r.Reply} {after after' : σ}
    (h : answer r state = (reply, after)) (h' : answer r state' = (reply, after'))
    (hnext : Agree answer (next reply) after after' post) :
    Agree answer (request r >>= next) state state' post := by
  have hone : Agree answer (request r) state state'
      fun value s s' => value = reply ∧ s = after ∧ s' = after' := by
    constructor
    · show (answer r state).1 = (answer r state').1
      rw [h, h']
    · show (answer r state).1 = reply ∧ (answer r state).2 = after ∧ (answer r state').2 = after'
      rw [h, h']
      exact ⟨rfl, rfl, rfl⟩
  refine hone.bind ?_
  rintro _ _ _ ⟨rfl, rfl, rfl⟩
  exact hnext

/-! ## Respecting a likeness -/

theorem respects_pure (value : α) : Respects answer alike (pure value : Routine α) :=
  fun _ _ h => agree_pure h

theorem Respects.bind (h : Respects answer alike routine)
    (hnext : ∀ value, Respects answer alike (f value)) : Respects answer alike (routine >>= f) :=
  fun state state' halike => (h state state' halike).bind fun value after after' => hnext value after after'

theorem respects_request {r : Request}
    (h : ∀ state state', alike state state' →
      (answer r state).1 = (answer r state').1 ∧ alike (answer r state).2 (answer r state').2) :
    Respects answer alike (request r) := fun state state' halike =>
  ⟨(h state state' halike).1, (h state state' halike).2⟩

end DirLock.Routine
