import DirLock.Holder.Record
import DirLock.Lock.Basic
import DirLock.Routine.Directories

/-!
# Staging a claim

A claim is made complete in a directory of its own before it is moved into place. If it cannot be
made complete the directory is removed again.
-/

namespace DirLock.Lock

open Disk (Path Fault)

/-- How many names are tried for a staging directory. -/
def stagingTries : Nat := 65536

/-- Where claims are staged: as set, or else where the claimant keeps temporary files. -/
def scratchDir (lock : Lock) (claimant : Claimant) : Path :=
  lock.config.scratch.getD (.ofString (claimant.temporary.getD "/tmp"))

/-- A fault of making a staging directory, with the path that was tried. -/
def stagingFault (fault : Fault) (path : Path) : Fault :=
  .described fault.kind s!"{fault.message} at path {path.quoted}"

/-- Make a staging directory under a name that is not taken. The base is an absolute path. -/
def makeStaging (lock : Lock) (base : Path) : Nat → Routine (Except Fault Path)
  | 0 => return .error (stagingFault
      (.described .alreadyExists "too many temporary files exist") base)
  | tries + 1 => do
    let suffix ← Routine.request .randomSuffix
    let path := base.join (lock.stagingName suffix)
    match ← Routine.request (.makeDirectory path) with
    | .ok () => return .ok path
    | .error fault =>
      if fault.kind = .alreadyExists then
        makeStaging lock base tries
      else return .error (stagingFault fault path)

def absolute (dir : Path) : Routine Path :=
  if dir.isAbsolute then return dir
  else return (← Routine.request .workingDirectory).join dir

/-- Write the two files of a claim into the staging directory. -/
def fillStaging (lock : Lock) (claimant : Claimant) (staging : Path) :
    Routine (Except LockError Unit) := do
  let held := staging.join heldName
  match ← Routine.request (.writeFile held lock.nonce.bytes) with
  | .error fault => return .error (.io .writeHeld held fault)
  | .ok () =>
    let now ← Routine.request .now
    let info := staging.join holderName
    let content := Text.utf8Encode (Holder.ofClaimant claimant now).render
    match ← Routine.request (.writeFile info content) with
    | .error fault => return .error (.io .writeHolder info fault)
    | .ok () => return .ok ()

/-- A complete claim in a staging directory. -/
def stage (lock : Lock) (claimant : Claimant) : Routine (Except LockError Path) := do
  let scratch := lock.scratchDir claimant
  let base ← absolute scratch
  match ← lock.makeStaging base stagingTries with
  | .error fault => return .error (.io .createStaging scratch fault)
  | .ok staging =>
    match ← lock.fillStaging claimant staging with
    | .ok () => return .ok staging
    | .error error =>
      let _ ← Routine.removeTree staging
      return .error error

/-- Remove a staging directory that is of no use any more. A failure is reported and no more. -/
def discard (staging : Path) : Routine Unit := do
  match ← Routine.removeTree staging with
  | .ok () => return ()
  | .error fault => Routine.note (.stagingLeft staging (stagingFault fault staging).message)

end DirLock.Lock
