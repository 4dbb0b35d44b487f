import DirLock.Main
import DirLock.Session.Contest
import DirLock.Session.Step
import DirLock.Config.Printer
import DirLock.Proofs.Disk.Request
import DirLock.Proofs.Text.Plain
import DirLock.Proofs.Lock.Naming
import DirLock.Proofs.Wait.Deadline
import DirLock.Proofs.Disk.Plot
import DirLock.Proofs.Lock.Site
import DirLock.Proofs.Lock.Share
import DirLock.Proofs.Lock.Reply
import DirLock.Proofs.Lock.Quiet
import DirLock.Proofs.Lock.Stage
import DirLock.Proofs.Lock.Claim
import DirLock.Proofs.Lock.Release
import DirLock.Proofs.Arena.Basic
import DirLock.Proofs.Arena.Call
import DirLock.Proofs.Arena.Exclusion
import DirLock.Proofs.Arena.Atomic
import DirLock.Proofs.Wait.Progress
import DirLock.Proofs.Wait.Turns
import DirLock.Proofs.Lock.Await
import DirLock.Proofs.Arena.Timed
import DirLock.Proofs.Arena.Rest
import DirLock.Proofs.Arena.Crash
import DirLock.Proofs.Disk.Outcome
import DirLock.Proofs.Disk.Folder
import DirLock.Proofs.Routine.Run
import DirLock.Proofs.Lock.Draft
import DirLock.Proofs.Lock.Alone
import DirLock.Proofs.Lock.Opened
import DirLock.Proofs.Lock.Freed
import DirLock.Proofs.CommandLine.Prepare
import DirLock.Proofs.CommandLine.Entrance
import DirLock.Proofs.CommandLine.Run
import DirLock.Proofs.Text.Utf8
import DirLock.Proofs.Yaml.Plain
import DirLock.Proofs.Yaml.Quoted
import DirLock.Proofs.Yaml.Block
import DirLock.Proofs.Yaml.Member
import DirLock.Proofs.Yaml.Mapping
import DirLock.Proofs.Number.Decimal
import DirLock.Proofs.Yaml.Numeral
import DirLock.Proofs.Config.RoundTrip
import DirLock.Proofs.Yaml.Allowed
import DirLock.Proofs.Time.Date
import DirLock.Proofs.Time.Stamp
import DirLock.Proofs.Disk.Written
import DirLock.Proofs.Json.Numeral
import DirLock.Proofs.Json.Quoting
import DirLock.Proofs.Json.Record
import DirLock.Proofs.Holder.RoundTrip
import DirLock.Proofs.Disk.Alike
import DirLock.Proofs.Routine.Respect
import DirLock.Proofs.Holder.Same
import DirLock.Proofs.Lock.Blind
import DirLock.Proofs.Lock.Task
import DirLock.Proofs.Disk.Blot
import DirLock.Proofs.Lock.Vacate
import DirLock.Proofs.Lock.Unread
import DirLock.Proofs.Lock.Beside
import DirLock.Proofs.Disk.Apart
import DirLock.Proofs.Lock.Persist
import DirLock.Proofs.Lock.Mishap
import DirLock.Proofs.Lock.Whole
import DirLock.Proofs.Disk.Loss
import DirLock.Proofs.Lock.Told
import DirLock.Proofs.Lock.Turn
import DirLock.Proofs.Lock.Again
import DirLock.Proofs.Lock.Scene
import DirLock.Proofs.Lock.Guarded
import DirLock.Proofs.Lock.Query
import DirLock.Proofs.Wait.Spacing
import DirLock.Proofs.Lock.Watch
import DirLock.Proofs.CommandLine.Status
import DirLock.Proofs.Routine.Pace
import DirLock.Proofs.Lock.Requests
import DirLock.Proofs.Config.Valid
import DirLock.Proofs.Lock.Pace
import DirLock.Proofs.Text.Pattern
import DirLock.Proofs.Disk.Component
import DirLock.Proofs.Lock.Language
import DirLock.Proofs.Disk.Pave
import DirLock.Proofs.Lock.Harmless
import DirLock.Proofs.Yaml.Word
import DirLock.Proofs.Yaml.Line
import DirLock.Proofs.Config.Tolerant
import DirLock.Proofs.Time.Span
import DirLock.Proofs.Config.Delay
import DirLock.Proofs.Holder.Age
import DirLock.Proofs.CommandLine.Spelling
import DirLock.Proofs.Text.Cut
import DirLock.Proofs.Json.Cut
import DirLock.Proofs.Holder.Cut
import DirLock.Proofs.Lock.Entries
import DirLock.Proofs.Wait.Replay
import DirLock.Proofs.Lock.Course
import DirLock.Proofs.Lock.Retry
import DirLock.Proofs.Lock.Spare
import DirLock.Proofs.Arena.Stale
