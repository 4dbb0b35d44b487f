import DirLock.Lock.Acquire
import DirLock.Lock.Opening
import DirLock.Machine
import DirLock.Routine.Interleave

/-!
# Contests

Several handles for one lock, each driven by a party of its own, whose requests are interleaved. A
party writes down when it enters and when it leaves, so that the order in which this happened can be
read off what was written.
-/

namespace DirLock.Contest

/-- What a party writes when it has the lock. -/
def entering : String := "enter"

/-- What a party writes before it gives the lock back. -/
def leaving : String := "leave"

def attempt (claimant : Claimant) (lock : Lock) : Routine Bool := do
  match ← lock.tryClaim claimant with
  | .ok true =>
    Routine.request (.print entering)
    return true
  | _ => return false

/-- Whoever entered leaves and releases the lock. -/
def leave (lock : Lock) (entered : Bool) : Routine Bool := do
  if entered then
    Routine.request (.print leaving)
    let _ ← lock.unlock
  return entered

/-- Enter and leave so many times, waiting for the lock each time. -/
def visits (claimant : Claimant) (lock : Lock) (tries : Nat) : Nat → Routine Bool
  | 0 => return true
  | times + 1 => do
    match ← lock.acquire claimant tries with
    | some (.ok ()) =>
      Routine.request (.print entering)
      let _ ← leave lock true
      visits claimant lock tries times
    | _ => return false

/-- Turns enough for every party to do its part. -/
def roundsFor (parties visits : Nat) : Nat := 64 * (parties * visits + 1)

/-- What can be counted in what was written: how often somebody entered, and how often somebody was
already inside. -/
structure Tally where
  entries : Nat
  overlaps : Nat
  inside : Nat
  deriving DecidableEq, Repr

def Tally.count (tally : Tally) : Output → Tally
  | .standard text =>
    if text = entering then
      ⟨tally.entries + 1, tally.overlaps + min 1 tally.inside, tally.inside + 1⟩
    else if text = leaving then { tally with inside := tally.inside - 1 }
    else tally
  | _ => tally

def tally (machine : Machine) : Tally := machine.transcript.foldl Tally.count ⟨0, 0, 0⟩

/-- Run routines in turn on a machine and give the values of those that are over. -/
def together (supply : Supply) (rounds : Nat) (routines : List (Routine Bool)) (machine : Machine) :
    List Bool × Machine :=
  let (routines, machine) :=
    Routine.takeRounds (Machine.answerPlain supply) rounds routines machine
  (routines.filterMap Routine.result?, machine)

/-- All parties attempt once, interleaved; then whoever acquired releases. The winners of each round
are counted. -/
def claimRounds (supply : Supply) (claimant : Claimant) (locks : List Lock) :
    Nat → Machine → List Nat × Machine
  | 0, machine => ([], machine)
  | times + 1, machine =>
    let rounds := roundsFor locks.length 1
    let (won, machine) := together supply rounds (locks.map (attempt claimant)) machine
    let (_, machine) := together supply rounds (locks.zipWith leave won) machine
    let (winners, machine) := claimRounds supply claimant locks times machine
    (won.count true :: winners, machine)

/-- All parties wait for the lock, enter and leave so many times, interleaved. -/
def lockRounds (supply : Supply) (claimant : Claimant) (locks : List Lock) (times : Nat)
    (machine : Machine) : Machine :=
  let rounds := roundsFor locks.length times
  (together supply rounds (locks.map fun lock => visits claimant lock rounds times) machine).2

/-- Handles for a lock; none if one of them cannot be made. -/
def openAll (parent : Disk.Path) (name : String) (config : Config) :
    Nat → Routine (Except LockError (List Lock))
  | 0 => return .ok []
  | count + 1 => do
    match ← Lock.openIn parent name config with
    | .error error => return .error error
    | .ok lock => return (← openAll parent name config count).map (lock :: ·)

end DirLock.Contest
