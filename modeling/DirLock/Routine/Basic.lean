import DirLock.Disk.Operation
import DirLock.Lock.Nonce
import DirLock.Log.Event
import DirLock.Time.Instant

/-!
# Routines

A routine is a computation that makes requests, one after the other: of the file system, of the
random source, of the clock. It says which request comes next and how it goes on after each reply,
and nothing about who replies. Run alone it is answered by one machine; interleaved with others,
whoever answers may let the others make requests in between; a reply may also be a fault that was
put there. Every request is one indivisible step.
-/

namespace DirLock

open Disk (Path EntryKind Fault)

inductive ChildEnd where
  | exited (status : Nat)
  | killed (signal : Nat)
  deriving DecidableEq, Repr

/-- Something that is asked of the machine. -/
inductive Request where
  /-- The kind of the entry at the path, a last link not followed. -/
  | entryKind (path : Path)
  /-- Whether the path leads to a directory. -/
  | isDirectory (path : Path)
  /-- The content of a file. -/
  | readFile (path : Path)
  | makeDirectory (path : Path)
  | writeFile (path : Path) (content : List UInt8)
  | makeLink (target path : Path)
  | rename (source target : Path)
  /-- The names in a directory. -/
  | list (path : Path)
  /-- What stands below a directory that is to be removed. -/
  | removals (path : Path)
  /-- One step of a removal. -/
  | remove (step : Disk.Tree.Removal)
  | unlink (path : Path)
  /-- Where relative paths start. -/
  | workingDirectory
  | randomNonce
  /-- The random end of a staging directory's name. -/
  | randomSuffix
  | now
  /-- Let so many nanoseconds pass. The reply says how many did, which may be more. -/
  | pause (nanos : Nat)
  /-- Start a program and wait for its end. -/
  | runProgram (program : String) (arguments : List String)
  /-- Report an event. -/
  | note (event : Log.Event)
  /-- Write to the standard output. -/
  | print (text : String)
  /-- Write to the standard error output. -/
  | complain (text : String)
  deriving DecidableEq, Repr

abbrev Request.Reply : Request → Type
  | entryKind _ => Except Fault EntryKind
  | isDirectory _ => Bool
  | readFile _ => Except Fault (List UInt8)
  | makeDirectory _ => Except Fault Unit
  | writeFile _ _ => Except Fault Unit
  | makeLink _ _ => Except Fault Unit
  | rename _ _ => Except Fault Unit
  | list _ => Except Fault (List Disk.Name)
  | removals _ => Except Fault (List Disk.Tree.Removal)
  | remove _ => Except Fault Unit
  | unlink _ => Except Fault Unit
  | workingDirectory => Path
  | randomNonce => Except String Nonce
  | randomSuffix => List Char
  | now => Time.Instant
  | pause _ => Nat
  | runProgram _ _ => Except Fault ChildEnd
  | note _ => Unit
  | print _ => Unit
  | complain _ => Unit

inductive Routine (α : Type) where
  /-- The computation is over. -/
  | done (value : α)
  /-- A request, and how to go on after each reply. -/
  | ask (request : Request) (next : request.Reply → Routine α)

namespace Routine

variable {α β : Type}

def bind : Routine α → (α → Routine β) → Routine β
  | done value, f => f value
  | ask request next, f => ask request fun reply => (next reply).bind f

instance : Monad Routine where
  pure := done
  bind := bind

def request (r : Request) : Routine r.Reply := ask r done

def note (event : Log.Event) : Routine Unit := request (.note event)

/-- Run to the end; every request is answered out of a state that changes with it. -/
def run {σ : Type} (answer : (r : Request) → σ → r.Reply × σ) : Routine α → σ → α × σ
  | done value, state => (value, state)
  | ask r next, state =>
    let (reply, state) := answer r state
    (next reply).run answer state

/-- Make the next request only. A routine that is over stays as it is. -/
def step {σ : Type} (answer : (r : Request) → σ → r.Reply × σ) : Routine α → σ → Routine α × σ
  | done value, state => (done value, state)
  | ask r next, state =>
    let (reply, state) := answer r state
    (next reply, state)

/-- The value of a routine that is over. -/
def result? : Routine α → Option α
  | done value => some value
  | ask _ _ => none

theorem pure_eq (value : α) : (pure value : Routine α) = done value := rfl

theorem bind_eq (routine : Routine α) (f : α → Routine β) : routine >>= f = routine.bind f := rfl

@[simp] theorem done_bind (value : α) (f : α → Routine β) : (done value).bind f = f value := rfl

@[simp] theorem ask_bind (r : Request) (next : r.Reply → Routine α) (f : α → Routine β) :
    (ask r next).bind f = ask r fun reply => (next reply).bind f := rfl

theorem bind_done (routine : Routine α) : routine.bind done = routine := by
  induction routine with
  | done value => rfl
  | ask r next ih => simp [ih]

theorem bind_assoc {γ : Type} (routine : Routine α) (f : α → Routine β) (g : β → Routine γ) :
    (routine.bind f).bind g = routine.bind fun value => (f value).bind g := by
  induction routine with
  | done value => rfl
  | ask r next ih => simp [ih]

instance : LawfulMonad Routine :=
  LawfulMonad.mk' Routine bind_done (fun _ _ => rfl) bind_assoc

/-- Running one routine after the other runs the first and then the second. -/
theorem run_bind {σ : Type} (answer : (r : Request) → σ → r.Reply × σ) (routine : Routine α)
    (f : α → Routine β) (state : σ) :
    (routine.bind f).run answer state =
      (f (routine.run answer state).1).run answer (routine.run answer state).2 := by
  induction routine generalizing state with
  | done value => rfl
  | ask r next ih => simp [run, ih]

end Routine

end DirLock
