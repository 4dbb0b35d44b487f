/-!
# Retrying

An attempt either acquires, finds the lock taken, or fails. One that finds the lock taken is made
again after a pause; the other two decide the matter. The two loops here differ in who ends a wait:
nobody, or somebody who cancels it between two attempts.
-/

namespace DirLock.Wait

/-- How an attempt ends: it acquired or found the lock taken, or it failed. -/
abbrev Outcome (ε : Type) := Except ε Bool

variable {m : Type → Type} [Monad m] {ε : Type}

/-- Attempt until one decides, at most `tries` times, with a pause after each that does not. The
result counts the attempts, those made before included; there is none if the tries are used up. -/
def untilDecided (attempt : m (Outcome ε)) (pause : m Unit) :
    (tries made : Nat) → m (Option (Except ε Nat))
  | 0, _ => pure none
  | tries + 1, made => do
    match ← attempt with
    | .ok true => pure (some (.ok (made + 1)))
    | .error error => pure (some (.error error))
    | .ok false =>
      pause
      untilDecided attempt pause tries (made + 1)

/-- Attempt until one decides or the wait after one is cancelled, at most `tries` times. Cancelling
is seen between attempts only, so the last attempt's outcome is the result. -/
def untilCancelled (attempt : m (Outcome ε)) (waitIsCancelled : m Bool) :
    (tries : Nat) → m (Option (Outcome ε))
  | 0 => pure none
  | tries + 1 => do
    match ← attempt with
    | .ok true => pure (some (.ok true))
    | .error error => pure (some (.error error))
    | .ok false =>
      if ← waitIsCancelled then pure (some (.ok false))
      else untilCancelled attempt waitIsCancelled tries

end DirLock.Wait
