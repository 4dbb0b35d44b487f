import DirLock.CommandLine.Transcript

/-!
# The executable

The requests of the program are made of the real machine, one at a time. What the machine says of
itself, such as the time and the number of a process, is read from the files in which its kernel
keeps it. Starting other programs and making links are not offered here and are refused.
-/

namespace DirLock.Executable

open Disk (Path Fault)

/-- The error number for what is not offered. -/
def notOffered : Disk.Errno := 38

/-- An error number, which some requests give with a minus sign. -/
def numberOf (code : UInt32) : Disk.Errno :=
  if code.toNat < 2147483648 then code.toNat else UInt32.size - code.toNat

def errnoOf : IO.Error → Disk.Errno
  | .alreadyExists _ code _ => numberOf code
  | .otherError code _ => numberOf code
  | .resourceBusy code _ => numberOf code
  | .resourceVanished code _ => numberOf code
  | .unsupportedOperation code _ => numberOf code
  | .hardwareFault code _ => numberOf code
  | .unsatisfiedConstraints code _ => numberOf code
  | .illegalOperation code _ => numberOf code
  | .protocolError code _ => numberOf code
  | .timeExpired code _ => numberOf code
  | .interrupted _ code _ => numberOf code
  | .noFileOrDirectory _ code _ => numberOf code
  | .invalidArgument _ code _ => numberOf code
  | .permissionDenied _ code _ => numberOf code
  | .resourceExhausted _ code _ => numberOf code
  | .inappropriateType _ code _ => numberOf code
  | .noSuchThing _ code _ => numberOf code
  | .unexpectedEof => Disk.Errno.invalid
  | .userError _ => Disk.Errno.invalid

/-- The path as an entry below the current directory, or as it is if it is absolute. -/
def entryAt (path : Path) : IO.FS.DirEntry := ⟨".", path.display⟩

/-- Do something with a path that the system can take, and give a failure as a fault. -/
def caught {α : Type} (path : Path) (action : IO.FS.DirEntry → IO α) : IO (Except Fault α) := do
  match path.check with
  | .error fault => return .error fault
  | .ok () =>
    match ← (action (entryAt path)).toBaseIO with
    | .ok value => return .ok value
    | .error error => return .error (.os (errnoOf error))

/-- The kind of the entry at a path, a last link not followed. -/
def kindAt (path : Path) : IO (Except Fault Disk.EntryKind) :=
  caught path fun entry => do
    match (← entry.path.symlinkMetadata).type with
    | .dir => return .directory
    | .symlink => return .link
    | _ => return .file

def namesIn (path : Path) : IO (Except Fault (List Disk.Name)) :=
  caught path fun entry => do
    return (← entry.path.readDir).toList.map fun child => Text.bytesOf child.fileName

/-- The directories that may lie inside each other. -/
def deepest : Nat := Path.lengthLimit

/-- The path of an entry inside the directory at the path. -/
def pathInside (path : Path) (inside : List Disk.Name) : Path :=
  inside.foldl (fun path name => path.join ⟨name⟩) path

/-- The steps to remove what stands at each of the places inside the path, in order, and what stands
below it. -/
def stepsFor (path : Path) : Nat → List (List Disk.Name) → IO (List Disk.Tree.Removal)
  | 0, _ => return []
  | depth + 1, places => do
    let steps ← places.mapM fun inside => do
      match ← kindAt (pathInside path inside) with
      | .error _ => return []
      | .ok .directory =>
        let names := (← namesIn (pathInside path inside)).toOption.getD []
        let steps ← stepsFor path depth (names.map fun name => inside ++ [name])
        return steps ++ [.removeDirectory path inside]
      | .ok _ => return [.unlink path inside]
    return steps.flatten

/-- The steps to remove a directory with all it holds. -/
def stepsBelow (path : Path) : IO (Except Fault (List Disk.Tree.Removal)) := do
  match ← kindAt path with
  | .error fault => return .error fault
  | .ok .file => return .error (.os .notDirectory)
  | .ok _ => return .ok (← stepsFor path deepest [[]])

def kernelText (file : String) : IO String := do
  match ← (IO.FS.readFile file).toBaseIO with
  | .ok text => return text
  | .error _ => return ""

/-- The time in nanoseconds: that of the machine's start, and what has passed since. -/
def wallClock : IO Nat := do
  let words := (← kernelText "/proc/stat").split Char.isWhitespace
  let words := words.toList.map toString
  let boot := (((words.dropWhile (· ≠ "btime")).drop 1).headD "").toNat?.getD 0
  let uptime := ((← kernelText "/proc/uptime").splitOn " ").headD ""
  match uptime.splitOn "." with
  | [seconds, hundredths] =>
    return (boot + seconds.toNat?.getD 0) * 1000000000 + hundredths.toNat?.getD 0 * 10000000
  | _ => return boot * 1000000000

def clock : IO Time.Instant := return .ofNanos (← wallClock)

def randomSuffix : IO (List Char) := do
  let bytes ← IO.getRandomBytes 6
  return bytes.toList.map fun byte => Supply.alphabet.getD (byte.toNat % 62) 'A'

def randomNonce : IO (Except String Nonce) := do
  match ← (IO.getRandomBytes 20).toBaseIO with
  | .error error => return .error (toString error)
  | .ok bytes =>
    match Nonce.ofBytes? bytes.toList with
    | some nonce => return .ok nonce
    | none => return .error "too few bytes"

/-- Let nanoseconds pass and tell how many did. -/
def pause (nanos : Nat) : IO Nat := do
  let before ← IO.monoNanosNow
  IO.sleep (UInt32.ofNat ((nanos + 999999) / 1000000))
  return max nanos ((← IO.monoNanosNow) - before)

def answer (filter : Log.Filter) : (request : Request) → IO request.Reply
  | .entryKind path => kindAt path
  | .isDirectory path => do
    return (← caught path fun entry => entry.path.isDir).toOption.getD false
  | .readFile path => caught path fun entry => do
    return (← IO.FS.readBinFile entry.path).toList
  | .makeDirectory path => caught path fun entry => IO.FS.createDir entry.path
  | .writeFile path content => caught path fun entry =>
    IO.FS.writeBinFile entry.path ⟨content.toArray⟩
  | .makeLink _ _ => return .error (.os notOffered)
  | .rename source target => caught source fun entry =>
    IO.FS.rename entry.path (entryAt target).path
  | .list path => namesIn path
  | .removals path => stepsBelow path
  | .remove (.unlink path inside) => caught (pathInside path inside) fun entry =>
    IO.FS.removeFile entry.path
  | .remove (.removeDirectory path inside) => caught (pathInside path inside) fun entry =>
    IO.FS.removeDir entry.path
  | .unlink path => caught path fun entry => IO.FS.removeFile entry.path
  | .workingDirectory => return .ofString (toString (← IO.currentDir))
  | .randomNonce => randomNonce
  | .randomSuffix => randomSuffix
  | .now => clock
  | .pause nanos => pause nanos
  | .runProgram _ _ => return .error (.os notOffered)
  | .note event => do
    IO.eprint (CommandLine.eventText filter CommandLine.timeStamp (← clock) event)
  | .print text => IO.print text
  | .complain text => IO.eprint text

def perform {α : Type} (filter : Log.Filter) : Routine α → IO α
  | .done value => return value
  | .ask request next => do
    let reply ← answer filter request
    perform filter (next reply)

def claimant : IO Claimant := do
  let host := (← kernelText "/proc/sys/kernel/hostname").trimAscii.toString
  let pid := (((← kernelText "/proc/self/stat").splitOn " ").headD "").toNat?.getD 0
  return ⟨← IO.getEnv "USER", ← IO.getEnv "USERNAME", host, UInt32.ofNat pid, ← IO.getEnv "TMPDIR"⟩

/-- More attempts than any wait can take. -/
def forever : Nat := UInt64.size

end DirLock.Executable

open DirLock in
def main (arguments : List String) : IO UInt32 := do
  let filter := CommandLine.eventFilter (← IO.getEnv "RUST_LOG") arguments
  let claimant ← Executable.claimant
  let program := CommandLine.program claimant Executable.forever arguments
  let status ← Executable.perform filter program
  return UInt32.ofNat (status.getD ExitStatus.ioFailure)
