import DirLock.Lock.Error
import DirLock.Time.Span

/-!
# Settings

How long to wait between attempts to claim a lock, and where claims are staged. Delays are whole
milliseconds; a setting that would let the waiting loops spin or that names no directory is refused.
-/

namespace DirLock

open Time (Span)

/-- The milliseconds between attempts where nothing else is set. -/
def defaultWaitDelay : UInt64 := 1000

structure Config where
  /-- Milliseconds between two attempts. -/
  waitDelay : UInt64
  /-- Where claims are staged; the directory for temporary files if nothing is set. -/
  scratch : Option Disk.Path
  deriving DecidableEq, Repr

namespace Config

def default : Config := ⟨defaultWaitDelay, none⟩

def validate (config : Config) : Except LockError Unit :=
  if config.waitDelay = 0 then
    .error (.config "config validation failed: wait_delay_ms must be greater than 0")
  else match config.scratch with
    | none => .ok ()
    | some dir =>
      if dir.isEmpty then .error (.config "config validation failed: scratch_dir must not be empty")
      else .ok ()

def delay (config : Config) : Span := Span.ofMillis config.waitDelay

/-- Wait this long between attempts: whole milliseconds, at least one. -/
def withDelay (config : Config) (delay : Span) : Config :=
  { config with waitDelay := UInt64.ofNat (max 1 (min delay.toMillis (UInt64.size - 1))) }

def withScratch (config : Config) (dir : Disk.Path) : Config :=
  { config with scratch := some dir }

end Config

end DirLock
