import DirLock.CommandLine.Program
import DirLock.Machine
import DirLock.Time.Stamp

/-!
# What a run has written

Output and error output are two texts. Events go to the error output, a line each after a stamp, if
the filter lets them through.
-/

namespace DirLock.CommandLine

def standardText (transcript : List Output) : String :=
  String.join (transcript.map fun
    | .standard text => text
    | _ => "")

def timeStamp (time : Time.Instant) : String := String.ofList (Time.Stamp.renderMicros time)

def eventText (filter : Log.Filter) (stamp : Time.Instant → String) (time : Time.Instant)
    (event : Log.Event) : String :=
  if filter.allows event then s!"{stamp time} {event.line}\n" else ""

def errorText (filter : Log.Filter) (stamp : Time.Instant → String) (transcript : List Output) :
    String :=
  String.join (transcript.map fun
    | .standard _ => ""
    | .error text => text
    | .event time event => eventText filter stamp time event)

end DirLock.CommandLine
