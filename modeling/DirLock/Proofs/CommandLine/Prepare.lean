import DirLock.CommandLine.Program
import DirLock.Proofs.Lock.Naming
import DirLock.Proofs.Lock.Requests

/-!
# What is asked on the way to a lock

Opening a lock, waiting for it and talking about it start no program, and move nothing but staged claims to
the places of claims. Releasing a lock starts no program either. The only request that does is the one
between acquiring and releasing.
-/

namespace DirLock

open Disk (Path)
open Routine (Uses uses_request_bind)

def Request.StartsNothing : Request → Prop
  | .runProgram _ _ => False
  | _ => True

/-- The request does not start a program, and it moves nothing except to the place of a claim. -/
def Request.Prepares : Request → Prop
  | .runProgram _ _ => False
  | .rename _ target => ∃ lock : Lock, target = lock.claimDir
  | _ => True

theorem Request.Prepares.startsNothing {r : Request} (h : r.Prepares) : r.StartsNothing := by
  cases r with
  | runProgram => exact h
  | _ => trivial

theorem Request.Prepares.ne_release {r : Request} (h : r.Prepares) (lock : Lock) (source : Path) :
    r ≠ .rename source lock.releasedDir := by
  rintro rfl
  obtain ⟨other, heq⟩ := h
  have hnames := congrArg Path.names heq
  rw [Lock.releasedDir_eq, Lock.claimDir_eq, Path.names_join lock.nonce.isName_releasedName,
    Path.names_join other.name.isName] at hnames
  exact other.name.bytes_ne_releasedName lock.nonce
    (List.cons.inj (List.append_inj' hnames rfl).2).1.symm

variable {lock : Lock} {claimant : Claimant}

theorem Request.Removes.startsNothing {r : Request} (h : r.Removes) : r.StartsNothing := by
  cases r with
  | runProgram => exact h
  | _ => trivial

theorem Lock.Stages.prepares {dir : Path} {r : Request} (h : lock.Stages dir r) : r.Prepares := by
  cases r with
  | runProgram => exact h
  | rename => exact ⟨lock, h⟩
  | _ => trivial

theorem uses_note (event : Log.Event) : (Routine.note event).Uses Request.Prepares :=
  Routine.uses_request.2 trivial

theorem uses_makeDirectories (path : Path) :
    (Routine.makeDirectories path).Uses Request.Prepares := by
  refine (uses_makeDirectories_makes path).mono fun r h => ?_
  cases r with
  | makeDirectory => trivial
  | isDirectory => trivial
  | _ => exact h.elim

/-! ## Acquiring -/

theorem uses_tryClaim : (lock.tryClaim claimant).Uses Request.Prepares := by
  obtain ⟨next, hclaim, hnext⟩ := lock.tryClaim_opens claimant
  rw [hclaim]
  exact ⟨trivial, fun seen => (hnext seen).mono fun _ => Lock.Stages.prepares⟩

theorem uses_untilDecided (tries made : Nat) :
    (Wait.untilDecided (lock.tryClaim claimant) lock.pauseBetween tries made).Uses
      Request.Prepares := by
  induction tries generalizing made with
  | zero => trivial
  | succ tries ih =>
    refine uses_tryClaim.bind fun outcome => ?_
    rcases outcome with error | (_ | _)
    · trivial
    · have hpause : lock.pauseBetween.Uses Request.Prepares :=
        uses_request_bind trivial fun _ => trivial
      exact hpause.bind fun _ => ih (made + 1)
    · trivial

theorem uses_hold (tries : Nat) : (lock.hold claimant tries).Uses Request.Prepares := by
  have hacquire : (lock.acquire claimant tries).Uses Request.Prepares := by
    refine (uses_untilDecided tries 0).bind fun result => ?_
    rcases result with _ | (error | attempts)
    · trivial
    · trivial
    · exact (uses_note _).bind fun _ => trivial
  exact hacquire.bind fun _ => trivial

theorem uses_takeTurns (limit : Time.Span) (turns : Nat) (wait : Wait.Handshake LockError) :
    (lock.takeTurns claimant limit turns wait).Uses Request.Prepares := by
  induction turns generalizing wait with
  | zero => trivial
  | succ turns ih =>
    rw [Lock.takeTurns]
    cases wait.turn with
    | «over» outcome => trivial
    | call next =>
      dsimp only
      split_ifs
      · exact (uses_note _).bind fun _ => ih next
      · exact ih next
    | work next => exact ih next
    | attempt => exact uses_tryClaim.bind fun outcome => ih _
    | idle nanos => exact uses_request_bind trivial fun passed => ih _

theorem uses_tryHold (limit : Time.Span) :
    (lock.tryHold claimant limit).Uses Request.Prepares := by
  have hacquire : (lock.tryAcquire claimant limit).Uses Request.Prepares :=
    (uses_takeTurns limit _ _).bind fun _ => trivial
  exact hacquire.bind fun _ => trivial

/-! ## Releasing -/

theorem uses_unlock : lock.unlock.Uses Request.StartsNothing := by
  have hheld : lock.isHeld.Uses Request.StartsNothing := by
    refine uses_request_bind trivial fun reply => ?_
    rcases reply with fault | content <;> trivial
  refine hheld.bind fun held => ?_
  split_ifs
  · refine uses_request_bind trivial fun reply => ?_
    rcases reply with fault | _
    · trivial
    · refine uses_request_bind trivial fun _ => ?_
      refine ((uses_removeTree_removes _).mono fun _ => Request.Removes.startsNothing).bind fun result => ?_
      rcases result with fault | _ <;> trivial
  · trivial

/-! ## The command line -/

namespace CommandLine

theorem uses_openLock (choice : LockChoice) : (openLock choice).Uses Request.Prepares := by
  have hload : (loadConfig choice).Uses Request.Prepares := by
    unfold loadConfig
    split
    · trivial
    · exact uses_request_bind trivial fun _ => trivial
  refine hload.bind fun result => ?_
  rcases result with error | config
  · trivial
  dsimp only
  unfold Lock.openIn
  split
  · trivial
  split
  · trivial
  refine uses_request_bind trivial fun reply => ?_
  rcases reply with reason | nonce
  · trivial
  refine (uses_makeDirectories _).bind fun result => ?_
  rcases result with fault | _
  · trivial
  · exact (uses_note _).bind fun _ => trivial

theorem uses_reportTimeout (lock : Lock) (limit : Time.Span) :
    (reportTimeout lock limit).Uses Request.Prepares := by
  have hholder : lock.holder?.Uses Request.Prepares := uses_request_bind trivial fun _ => trivial
  refine uses_request_bind trivial fun _ => hholder.bind fun holder => ?_
  rcases holder with _ | holder
  · trivial
  · exact uses_request_bind trivial fun _ => Routine.uses_request.2 trivial

end CommandLine

end DirLock
