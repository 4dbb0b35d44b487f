import DirLock.Routine.Basic

/-!
# Interleaving

Several routines that share one state, such as a file tree. A schedule says whose turn it is;
whoever has the turn makes one request. Every interleaving of the requests is the run of some
schedule.
-/

namespace DirLock.Routine

variable {α σ : Type}

/-- Let the routine at the index make its next request. -/
def stepAt (answer : (r : Request) → σ → r.Reply × σ) :
    Nat → List (Routine α) → σ → List (Routine α) × σ
  | _, [], state => ([], state)
  | 0, first :: rest, state =>
    let (first, state) := first.step answer state
    (first :: rest, state)
  | index + 1, first :: rest, state =>
    let (rest, state) := stepAt answer index rest state
    (first :: rest, state)

/-- Give the turns of a schedule, one after the other. -/
def follow (answer : (r : Request) → σ → r.Reply × σ) :
    List Nat → List (Routine α) → σ → List (Routine α) × σ
  | [], routines, state => (routines, state)
  | index :: schedule, routines, state =>
    let (routines, state) := stepAt answer index routines state
    follow answer schedule routines state

/-- Give every routine a turn, again and again, until all are over or the rounds are used up. -/
def takeRounds (answer : (r : Request) → σ → r.Reply × σ) :
    Nat → List (Routine α) → σ → List (Routine α) × σ
  | 0, routines, state => (routines, state)
  | rounds + 1, routines, state =>
    if routines.all fun routine => routine.result?.isSome then (routines, state)
    else
      let (routines, state) := follow answer (List.range routines.length) routines state
      takeRounds answer rounds routines state

end DirLock.Routine
