import DirLock.Lock.Claim
import DirLock.Proofs.Routine.Run
import Mathlib.Tactic.SplitIfs

/-!
# What is asked for

Which requests routines make, whoever replies. Making a directory with those above it asks for directories along its
path. An attempt looks at the claim's place first; after that it looks there no more, but stages a claim below the
directory for that, moves it to the claim's place, and removes what it staged if that is of no use.
-/

namespace DirLock

open Disk (Path)
open Routine (Uses uses_request_bind)

/-! ## Removing -/

def Request.Removes : Request → Prop
  | .removals _ => True
  | .remove _ => True
  | _ => False

theorem uses_removeTree_removes (path : Path) : (Routine.removeTree path).Uses Request.Removes := by
  have heach : ∀ steps, (Routine.removeEach steps).Uses Request.Removes := by
    intro steps
    induction steps with
    | nil => trivial
    | cons step rest ih =>
      refine Routine.uses_request_bind trivial fun reply => ?_
      rcases reply with fault | _
      · trivial
      · exact ih
  refine Routine.uses_request_bind trivial fun reply => ?_
  rcases reply with fault | steps
  · trivial
  · exact heach steps

/-! ## Making directories -/

/-- Every value that the routine can end with is as described. -/
def Routine.Returns {α : Type} (post : α → Prop) : Routine α → Prop
  | .done value => post value
  | .ask _ next => ∀ reply, (next reply).Returns post

theorem Routine.Returns.bind {α β : Type} {post : α → Prop} {post' : β → Prop} {routine : Routine α}
    {f : α → Routine β} (h : routine.Returns post) (hnext : ∀ value, post value → (f value).Returns post') :
    (routine >>= f).Returns post' := by
  rw [bind_eq]
  induction routine with
  | done value => exact hnext value h
  | ask r next ih => exact fun reply => ih reply (h reply)

theorem Routine.Uses.bind_returns {α β : Type} {allowed : Request → Prop} {post : α → Prop} {routine : Routine α}
    {f : α → Routine β} (h : routine.Uses allowed) (hpost : routine.Returns post)
    (hnext : ∀ value, post value → (f value).Uses allowed) : (routine >>= f).Uses allowed := by
  rw [bind_eq]
  induction routine with
  | done value => exact hnext value hpost
  | ask r next ih => exact ⟨h.1, fun reply => ih reply (h.2 reply) (hpost reply)⟩

/-- The requests that make or look for one of these directories. -/
def Request.Makes (paths : List Path) : Request → Prop
  | .makeDirectory path => path ∈ paths
  | .isDirectory path => path ∈ paths
  | _ => False

theorem uses_makeFirst_makes {paths all : List Path} (hall : ∀ path ∈ paths, path ∈ all) :
    (Routine.makeFirst paths).Uses (Request.Makes all) := by
  induction paths with
  | nil => trivial
  | cons path above ih =>
    have hpath := hall path List.mem_cons_self
    refine uses_request_bind hpath fun reply => ?_
    rcases reply with fault | _
    · dsimp only
      split_ifs
      · exact (ih fun other hmem => hall other (List.mem_cons_of_mem _ hmem)).bind fun _ => trivial
      · refine uses_request_bind hpath fun reply => ?_
        split_ifs <;> trivial
      · trivial
    · trivial

theorem returns_makeFirst (paths : List Path) :
    (Routine.makeFirst paths).Returns fun result =>
      ∀ missing, result = .ok missing → ∀ path ∈ missing, path ∈ paths := by
  have hnone (paths : List Path) : ∀ missing, (.ok [] : Except Disk.Fault (List Path)) = .ok missing →
      ∀ path ∈ missing, path ∈ paths := by
    intro missing hmissing path hmem
    rw [← Except.ok.inj hmissing] at hmem
    cases hmem
  induction paths with
  | nil => exact hnone []
  | cons path above ih =>
    rintro (fault | _)
    · dsimp only
      rw [Routine.done_bind]
      dsimp only
      split_ifs
      · refine ih.bind fun result hresult => ?_
        rcases result with fault | missing
        · exact fun _ hok => by cases hok
        · rintro _ ⟨rfl⟩ other hmem
          rcases List.mem_append.1 hmem with hmem | hmem
          · exact List.mem_cons_of_mem _ (hresult missing rfl other hmem)
          · exact List.mem_singleton.1 hmem ▸ List.mem_cons_self
      · rintro (_ | _)
        · exact fun _ hok => by cases hok
        · exact hnone _
      · exact fun _ hok => by cases hok
    · exact hnone _

theorem uses_makeEach_makes {paths all : List Path} (hall : ∀ path ∈ paths, path ∈ all) :
    (Routine.makeEach paths).Uses (Request.Makes all) := by
  induction paths with
  | nil => trivial
  | cons path rest ih =>
    have hpath := hall path List.mem_cons_self
    have hrest := ih fun other hmem => hall other (List.mem_cons_of_mem _ hmem)
    refine uses_request_bind hpath fun reply => ?_
    rcases reply with fault | _
    · dsimp only
      split_ifs
      · refine uses_request_bind hpath fun reply => ?_
        split_ifs
        · exact hrest
        · trivial
      · trivial
    · exact hrest

theorem uses_makeDirectories_makes (path : Path) :
    (Routine.makeDirectories path).Uses (Request.Makes (Routine.candidates path)) := by
  refine (uses_makeFirst_makes fun _ => id).bind_returns (returns_makeFirst _) fun result hresult => ?_
  rcases result with fault | missing
  · trivial
  · exact uses_makeEach_makes (hresult missing rfl)

/-! ## Staging -/

/-- What staging a claim and moving it into place asks for: to make no directory but one with a staging name
below `dir`, to write, to move to the claim's place, to remove, and to report. -/
def Lock.Stages (lock : Lock) (dir : Path) : Request → Prop
  | .makeDirectory path => ∃ base suffix, path = base.join (lock.stagingName suffix) ∧
      (base = dir ∨ ∃ here : Path, base = here.join dir)
  | .writeFile _ _ => True
  | .rename _ target => target = lock.claimDir
  | .removals _ => True
  | .remove _ => True
  | .workingDirectory => True
  | .randomSuffix => True
  | .now => True
  | .note _ => True
  | _ => False

namespace Lock

variable {lock : Lock} {claimant : Claimant} {dir : Path}

theorem Stages.ofRemoves {r : Request} (h : r.Removes) : lock.Stages dir r := by
  cases r with
  | removals => trivial
  | remove => trivial
  | _ => exact h.elim

theorem uses_removeTree_stages (path : Path) : (Routine.removeTree path).Uses (lock.Stages dir) :=
  (uses_removeTree_removes path).mono fun _ => Stages.ofRemoves

theorem uses_makeStaging_stages {base : Path} (hbase : base = dir ∨ ∃ here : Path, base = here.join dir)
    (tries : Nat) : (lock.makeStaging base tries).Uses (lock.Stages dir) := by
  induction tries with
  | zero => trivial
  | succ tries ih =>
    refine uses_request_bind trivial fun suffix => uses_request_bind ⟨base, suffix, rfl, hbase⟩ fun reply => ?_
    rcases reply with fault | _
    · dsimp only
      split_ifs
      · exact ih
      · trivial
    · trivial

theorem uses_fillStaging_stages (staging : Path) :
    (lock.fillStaging claimant staging).Uses (lock.Stages dir) := by
  refine uses_request_bind trivial fun reply => ?_
  rcases reply with fault | _
  · trivial
  · refine uses_request_bind trivial fun now => uses_request_bind trivial fun reply => ?_
    rcases reply with fault | _ <;> trivial

theorem uses_absolute_bind {α : Type} {f : Path → Routine α}
    (hnext : ∀ base, (base = dir ∨ ∃ here : Path, base = here.join dir) → (f base).Uses (lock.Stages dir)) :
    (absolute dir >>= f).Uses (lock.Stages dir) := by
  unfold absolute
  split_ifs
  · exact hnext dir (.inl rfl)
  · exact uses_request_bind trivial fun here => hnext _ (.inr ⟨here, rfl⟩)

theorem uses_stage_stages :
    (lock.stage claimant).Uses (lock.Stages (lock.scratchDir claimant)) := by
  refine uses_absolute_bind fun base hbase => (uses_makeStaging_stages hbase _).bind fun result => ?_
  rcases result with fault | staging
  · trivial
  · refine (uses_fillStaging_stages staging).bind fun result => ?_
    rcases result with error | _
    · exact (uses_removeTree_stages staging).bind fun _ => trivial
    · trivial

theorem uses_discard_stages (staging : Path) : (discard staging).Uses (lock.Stages dir) := by
  refine (uses_removeTree_stages staging).bind fun result => ?_
  rcases result with fault | _
  · exact Routine.uses_request.2 trivial
  · trivial

theorem uses_putInPlace_stages (staging : Path) :
    (lock.putInPlace staging).Uses (lock.Stages dir) := by
  refine uses_request_bind rfl fun reply => ?_
  rcases reply with fault | _
  · dsimp only
    split_ifs
    · exact uses_request_bind trivial fun _ => (uses_discard_stages staging).bind fun _ => trivial
    · exact (uses_discard_stages staging).bind fun _ => trivial
  · exact uses_request_bind trivial fun _ => trivial

/-! ## One attempt -/

/-- The request with which an attempt at the lock begins. -/
def opening (lock : Lock) : Request := .entryKind lock.claimDir

theorem tryClaim_opens (lock : Lock) (claimant : Claimant) :
    ∃ next, lock.tryClaim claimant = .ask lock.opening next ∧
      ∀ seen, (next seen).Uses (lock.Stages (lock.scratchDir claimant)) := by
  refine ⟨_, rfl, fun seen => ?_⟩
  rcases seen with fault | kind
  · by_cases hmissing : fault.kind = .notFound
    · simp only [hmissing, Routine.pure_eq, Routine.done_bind, if_true]
      refine uses_stage_stages.bind fun result => ?_
      rcases result with error | staging
      · trivial
      · exact uses_putInPlace_stages staging
    · simp [hmissing, Routine.pure_eq, Uses]
  · exact uses_request_bind trivial fun _ => trivial

end Lock

end DirLock
