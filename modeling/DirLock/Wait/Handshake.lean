import DirLock.Wait.Retry

/-!
# Waiting with a deadline

A wait with a deadline has two parties. The worker attempts again and again; the caller waits for
the worker's outcome until the deadline, then tells the worker to stop, and in either case returns
the outcome that the worker reports, after the worker has ended. What one tells the other is kept
until it is received. The worker never misses what it was told before its waiting began. A party whose
waiting is over may miss what it was told while it waited; otherwise it receives what is there. The
parties move in any order, and any time may pass between two moves.
-/

namespace DirLock.Wait

inductive Worker (ε : Type) where
  /-- In an attempt. -/
  | attempting
  /-- Between two attempts, until this time. -/
  | waiting (limit : Nat)
  /-- Has an outcome to report. -/
  | finished (outcome : Outcome ε)
  /-- Has reported the outcome. -/
  | reported
  | ended
  deriving Repr

inductive Caller (ε : Type) where
  /-- Has started the worker. -/
  | starting
  /-- Waits for an outcome until this time. -/
  | waiting (limit : Nat)
  /-- Has seen the deadline pass. -/
  | cancelling
  /-- Has told the worker to stop and waits for its outcome. -/
  | collecting
  /-- Has the outcome and waits for the worker's end. -/
  | joining (outcome : Outcome ε)
  | returned (outcome : Outcome ε)
  deriving Repr

/-- A wait with a deadline while it goes on. All times are in nanoseconds. -/
structure Handshake (ε : Type) where
  /-- The time between two attempts. -/
  delay : Nat
  /-- How long the caller waits. -/
  maxWait : Nat
  clock : Nat
  worker : Worker ε
  caller : Caller ε
  /-- The outcome that was reported and not yet received. -/
  report : Option (Outcome ε)
  /-- Whether the worker was told to stop and has not yet seen it. -/
  stop : Bool
  /-- The attempts that have ended. -/
  attempts : Nat

/-- A move of one of the parties, or the passing of time. -/
inductive Move (ε : Type) where
  /-- The worker's attempt ends with this outcome. -/
  | attempted (outcome : Outcome ε)
  /-- The worker does what it does next outside an attempt. -/
  | work
  /-- The caller does what it does next. -/
  | call
  /-- The worker's waiting is over before it sees whether it was told to stop. -/
  | missStop
  /-- The caller's waiting is over before it sees whether there is a report. -/
  | missReport
  /-- Time passes. -/
  | tick (nanos : Nat)

variable {ε : Type}

namespace Handshake

def start (delay maxWait : Nat) : Handshake ε :=
  ⟨delay, maxWait, 0, .attempting, .starting, none, false, 0⟩

/-- The end of the worker's attempt. An outcome that decides is reported; else the worker waits, unless
it was told to stop during the attempt. -/
def afterAttempt (h : Handshake ε) : Outcome ε → Handshake ε
  | .ok false =>
    if h.stop then
      { h with worker := .finished (.ok false), stop := false, attempts := h.attempts + 1 }
    else { h with worker := .waiting (h.clock + h.delay), attempts := h.attempts + 1 }
  | outcome => { h with worker := .finished outcome, attempts := h.attempts + 1 }

/-- The worker's next move outside an attempt, if it can make one. -/
def work? (h : Handshake ε) : Option (Handshake ε) :=
  match h.worker with
  | .waiting limit =>
    if h.stop then some { h with worker := .finished (.ok false), stop := false }
    else if limit ≤ h.clock then some { h with worker := .attempting }
    else none
  | .finished outcome => some { h with worker := .reported, report := some outcome }
  | .reported => some { h with worker := .ended }
  | .attempting => none
  | .ended => none

/-- The caller's next move, if it can make one. -/
def call? (h : Handshake ε) : Option (Handshake ε) :=
  match h.caller, h.report with
  | .starting, _ => some { h with caller := .waiting (h.clock + h.maxWait) }
  | .waiting _, some outcome => some { h with caller := .joining outcome, report := none }
  | .waiting limit, none => if limit ≤ h.clock then some { h with caller := .cancelling } else none
  | .cancelling, _ => some { h with caller := .collecting, stop := true }
  | .collecting, some outcome => some { h with caller := .joining outcome, report := none }
  | .collecting, none => none
  | .joining outcome, _ =>
    match h.worker with
    | .ended => some { h with caller := .returned outcome }
    | _ => none
  | .returned _, _ => none

/-- What a move leads to, if it can be made. -/
def move? (h : Handshake ε) : Move ε → Option (Handshake ε)
  | .attempted outcome =>
    match h.worker with
    | .attempting => some (h.afterAttempt outcome)
    | _ => none
  | .work => h.work?
  | .call => h.call?
  | .missStop =>
    match h.worker with
    | .waiting limit => if limit ≤ h.clock then some { h with worker := .attempting } else none
    | _ => none
  | .missReport =>
    match h.caller with
    | .waiting limit => if limit ≤ h.clock then some { h with caller := .cancelling } else none
    | _ => none
  | .tick nanos => some { h with clock := h.clock + nanos }

/-! ## One schedule -/

inductive Turn (ε : Type) where
  | over (outcome : Outcome ε)
  | call (next : Handshake ε)
  | work (next : Handshake ε)
  | attempt
  /-- Nobody can move before so many nanoseconds have passed. -/
  | idle (nanos : Nat)

/-- The time until the next of the timers that run. -/
def timeLeft (h : Handshake ε) : Nat :=
  match h.caller, h.worker with
  | .waiting a, .waiting b => min a b - h.clock
  | .waiting a, _ => a - h.clock
  | _, .waiting b => b - h.clock
  | _, _ => 0

/-- The caller moves before the worker, and time passes only when neither can move. -/
def turn (h : Handshake ε) : Turn ε :=
  match h.caller with
  | .returned outcome => .over outcome
  | _ =>
    match h.call?, h.work? with
    | some next, _ => .call next
    | none, some next => .work next
    | none, none =>
      match h.worker with
      | .attempting => .attempt
      | _ => .idle h.timeLeft

/-- Whether the caller is about to tell the worker to stop. -/
def isCancelling (h : Handshake ε) : Bool :=
  match h.caller with
  | .cancelling => true
  | _ => false

end Handshake

end DirLock.Wait
