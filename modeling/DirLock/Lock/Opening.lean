import DirLock.Lock.Basic
import DirLock.Routine.Directories

/-!
# Handles for locks

The name and the settings are checked before anything else happens. The parent directory is made if
it is missing; the claim is not touched.
-/

namespace DirLock.Lock

open Disk (Path)

/-- A handle with this nonce, its parent directory made. -/
def openWith (parent : Path) (name : LockName) (config : Config) (nonce : Nonce) :
    Routine (Except LockError Lock) := do
  match ← Routine.makeDirectories parent with
  | .error fault => return .error (.io .createParent parent fault)
  | .ok () =>
    Routine.note (.opened name.text parent)
    return .ok ⟨name, parent, nonce, config⟩

/-- A new handle for the lock of this name in this directory. -/
def openIn (parent : Path) (name : String) (config : Config) : Routine (Except LockError Lock) :=
  match validateName name with
  | .error error => return .error error
  | .ok name =>
    match config.validate with
    | .error error => return .error error
    | .ok () => do
      match ← Routine.request .randomNonce with
      | .error reason => return .error (.randomSource reason)
      | .ok nonce => openWith parent name config nonce

end DirLock.Lock
