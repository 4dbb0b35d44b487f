import DirLock.Routine.Basic

/-!
# Runs

A routine that is run alone is answered by one state. `trace` says which requests its run made and in
which state each of them was answered, `Uses` which requests it can make at all, and `Yields` how its run
ends. Each goes through a routine that follows another one.
-/

namespace DirLock.Routine

variable {α β σ : Type} (answer : (r : Request) → σ → r.Reply × σ)

/-- The requests that a run makes, in order, each with the state in which it is answered. -/
def trace : Routine α → σ → List (Request × σ)
  | done _, _ => []
  | ask r next, state => (r, state) :: (next (answer r state).1).trace (answer r state).2

@[simp] theorem trace_pure (value : α) (state : σ) :
    (pure value : Routine α).trace answer state = [] := rfl

theorem trace_bind (routine : Routine α) (f : α → Routine β) (state : σ) :
    (routine >>= f).trace answer state = routine.trace answer state ++
      (f (routine.run answer state).1).trace answer (routine.run answer state).2 := by
  rw [bind_eq]
  induction routine generalizing state with
  | done value => rfl
  | ask r next ih => simp [trace, run, ih]

/-! ## Which requests -/

/-- All requests that the routine can make are of this kind. -/
def Uses (allowed : Request → Prop) : Routine α → Prop
  | done _ => True
  | ask r next => allowed r ∧ ∀ reply, (next reply).Uses allowed

variable {answer} {allowed : Request → Prop}

@[simp] theorem uses_request {r : Request} : (request r).Uses allowed ↔ allowed r := by
  simp [request, Uses]

theorem Uses.mono {allowed' : Request → Prop} {routine : Routine α} (h : routine.Uses allowed)
    (himp : ∀ r, allowed r → allowed' r) : routine.Uses allowed' := by
  induction routine with
  | done value => trivial
  | ask r next ih => exact ⟨himp r h.1, fun reply => ih reply (h.2 reply)⟩

theorem Uses.bind {routine : Routine α} {f : α → Routine β} (h : routine.Uses allowed)
    (hnext : ∀ value, (f value).Uses allowed) : (routine >>= f).Uses allowed := by
  rw [bind_eq]
  induction routine with
  | done value => exact hnext value
  | ask r next ih => exact ⟨h.1, fun reply => ih reply (h.2 reply)⟩

theorem uses_request_bind {r : Request} {next : r.Reply → Routine α} (h : allowed r)
    (hnext : ∀ reply, (next reply).Uses allowed) : (request r >>= next).Uses allowed :=
  Uses.bind (uses_request.2 h) hnext

theorem Uses.of_mem_trace {routine : Routine α} (h : routine.Uses allowed) {state : σ}
    {made : Request × σ} (hmem : made ∈ routine.trace answer state) : allowed made.1 := by
  induction routine generalizing state with
  | done value => exact absurd hmem List.not_mem_nil
  | ask r next ih =>
    rcases List.mem_cons.1 hmem with rfl | hmem
    · exact h.1
    · exact ih _ (h.2 _) hmem

/-! ## How it ends -/

theorem run_induction {kept : σ → Prop} (hstep : ∀ r state, kept state → kept (answer r state).2)
    (routine : Routine α) {state : σ} (h : kept state) : kept (routine.run answer state).2 := by
  induction routine generalizing state with
  | done value => exact h
  | ask r next ih => exact ih _ (hstep r state h)

theorem Uses.run_induction {kept : σ → Prop} {routine : Routine α} (h : routine.Uses allowed)
    (hstep : ∀ r state, allowed r → kept state → kept (answer r state).2) {state : σ} (hkept : kept state) :
    kept (routine.run answer state).2 := by
  induction routine generalizing state with
  | done value => exact hkept
  | ask r next ih => exact ih _ (h.2 _) (hstep r state h.1 hkept)

variable (answer) in
/-- Run from this state, the routine ends as claimed. -/
def Yields (routine : Routine α) (state : σ) (post : α → σ → Prop) : Prop :=
  post (routine.run answer state).1 (routine.run answer state).2

variable {routine : Routine α} {state : σ}

theorem Yields.mono {post post' : α → σ → Prop} (h : Yields answer routine state post)
    (himp : ∀ value after, post value after → post' value after) :
    Yields answer routine state post' := himp _ _ h

theorem Yields.bind {f : α → Routine β} {post : α → σ → Prop} {post' : β → σ → Prop}
    (h : Yields answer routine state post)
    (hnext : ∀ value after, post value after → Yields answer (f value) after post') :
    Yields answer (routine >>= f) state post' := by
  rw [Yields, bind_eq, run_bind]
  exact hnext _ _ h

theorem yields_request {r : Request} {next : r.Reply → Routine α} {post : α → σ → Prop}
    (h : Yields answer (next (answer r state).1) (answer r state).2 post) :
    Yields answer (request r >>= next) state post := h

/-! ## Runs seen from elsewhere -/

/-- States are seen through a view. If every request that the routine can make is answered the same to
whoever sees the view only, the run is the same there. -/
theorem yields_view {τ : Type} {view : σ → τ} {answer' : (r : Request) → τ → r.Reply × τ}
    (huses : routine.Uses allowed)
    (hview : ∀ r state, allowed r → answer' r (view state) = ((answer r state).1, view (answer r state).2))
    {post : α → τ → Prop} :
    Yields answer' routine (view state) post ↔
      Yields answer routine state fun value after => post value (view after) := by
  suffices hrun : routine.run answer' (view state) =
      ((routine.run answer state).1, view (routine.run answer state).2) by
    rw [Yields, Yields, hrun]
  induction routine generalizing state with
  | done value => rfl
  | ask r next ih =>
    rw [run, run, hview r state huses.1]
    exact ih _ (huses.2 _)

end DirLock.Routine
