import DirLock.Lock.Error
import DirLock.Log.Level
import DirLock.Time.Span

/-!
# Log events

What the program reports about its own work while it runs. An event has a level, the part of the
program that it comes from, a message and named values; all four follow from what happened.
-/

namespace DirLock.Log

inductive Event where
  /-- A handle for a lock was made. -/
  | opened (lock : String) (parent : Disk.Path)
  /-- An attempt found an entry where the claim would be. -/
  | heldElsewhere (lock : String)
  /-- An attempt put its claim in place. -/
  | claimed (lock : String)
  /-- An attempt found its claim's place taken when it moved the claim there. -/
  | lostRace (lock : String)
  /-- A staging directory of a lost attempt could not be removed. -/
  | stagingLeft (path : Disk.Path) (reason : String)
  /-- The waiting is over. -/
  | acquired (lock : String) (attempts : Nat)
  /-- The time for waiting is over. -/
  | deadlineReached (lock : String) (limit : Time.Span)
  /-- The claim was moved out of its place. -/
  | released (lock : String)
  /-- A guard that went away could not release its lock. -/
  | guardFailed (lock : String) (error : LockError)
  /-- A command is started. -/
  | running (lock command : String)
  deriving DecidableEq, Repr

namespace Event

def level : Event → Level
  | stagingLeft _ _ => .warn
  | guardFailed _ _ => .warn
  | running _ _ => .info
  | _ => .debug

/-- The part of the program that the event comes from. -/
def target : Event → String
  | opened _ _ => "fslock::lock::handle"
  | heldElsewhere _ => "fslock::lock::claim"
  | claimed _ => "fslock::lock::claim"
  | lostRace _ => "fslock::lock::claim"
  | stagingLeft _ _ => "fslock::lock::claim"
  | acquired _ _ => "fslock::lock::wait"
  | deadlineReached _ _ => "fslock::lock::wait"
  | released _ => "fslock::lock::ownership"
  | guardFailed _ _ => "fslock::lock::guard"
  | running _ _ => "fslock::commands"

def message : Event → String
  | opened _ _ => "created lock handle"
  | heldElsewhere _ => "lock is held elsewhere"
  | claimed _ => "acquired lock"
  | lostRace _ => "lost race for lock"
  | stagingLeft _ _ => "failed to remove staging directory"
  | acquired _ _ => "lock acquired"
  | deadlineReached _ _ => "deadline reached, cancelling wait"
  | released _ => "released lock"
  | guardFailed _ _ => "failed to release lock on drop"
  | running _ _ => "running command under lock"

/-- The named values of the event, in order. -/
def fields : Event → List (String × String)
  | opened lock parent => [("lock", Text.quoted lock), ("parent", parent.display)]
  | heldElsewhere lock => [("lock", lock)]
  | claimed lock => [("lock", lock)]
  | lostRace lock => [("lock", lock)]
  | stagingLeft path reason => [("path", path.display), ("error", reason)]
  | acquired lock attempts => [("lock", lock), ("attempts", toString attempts)]
  | deadlineReached lock limit => [("lock", lock), ("max_wait", limit.text)]
  | released lock => [("lock", lock)]
  | guardFailed lock error => [("lock", lock), ("error", error.message)]
  | running lock command => [("lock", lock), ("command", command)]

/-- The names that a filter can ask for: those of the values, and the message's own. -/
def fieldNames (event : Event) : List String := "message" :: event.fields.map (·.1)

def line (event : Event) : String :=
  String.intercalate " " (event.level.label :: event.message ::
    event.fields.map fun field => s!"{field.1}={field.2}")

end Event

end DirLock.Log
