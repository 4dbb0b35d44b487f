import DirLock.Proofs.CommandLine.Prepare
import DirLock.Proofs.Lock.Alone
import DirLock.Proofs.Lock.Opened

/-!
# The way to the lock

The first part of running a command under a lock, up to the point where it is decided whether the command
is run. Nothing is started on the way, and nothing is lost from the tree. Where the lock is not acquired
although nothing failed, only directories were made; where the user's wishes make no sense, nothing was.
-/

namespace DirLock.CommandLine

open Disk (Tree Place Path)
open Number (Binary64)
open Time (Span)
open Routine (Yields Uses)

/-- How the way to the lock ends, before anything is run. -/
inductive Entrance where
  /-- Something failed. -/
  | refused (error : LockError)
  /-- The lock is not free after so many attempts, and there is no deadline. -/
  | waiting
  /-- The lock was not free before the deadline. -/
  | late (lock : Lock) (limit : Span)
  /-- The lock is acquired. -/
  | inside (guard : Guard)

/-- The first part of running a command under a lock: acquire the lock. -/
def enter (claimant : Claimant) (tries : Nat) (choice : LockChoice) (timeout : Option Binary64) :
    Routine Entrance := do
  match timeout.mapM timeoutSpan with
  | .error error => return .refused error
  | .ok limit =>
    match ← openLock choice with
    | .error error => return .refused error
    | .ok lock =>
      match limit with
      | none =>
        match ← lock.hold claimant tries with
        | none => return .waiting
        | some (.error error) => return .refused error
        | some (.ok guard) => return .inside guard
      | some limit =>
        match ← lock.tryHold claimant limit with
        | .error error => return .refused error
        | .ok (some guard) => return .inside guard
        | .ok none => return .late lock limit

/-- The settings that the choice names, on this machine. -/
def configOf (choice : LockChoice) (machine : Machine) : Except LockError Config :=
  match choice.config with
  | none => .ok .default
  | some text => Config.ofContent (.ofString text)
    (machine.tree.readFile machine.directory (.ofString text))

/-- The timeout is no span of time, the file of settings cannot be used, or the name is none. -/
inductive LockChoice.Misused (choice : LockChoice) (timeout : Option Binary64) (machine : Machine) : Prop
  | timeout {seconds : Binary64} : timeout = some seconds → Span.ofSeconds? seconds = none →
    Misused choice timeout machine
  | config {error : LockError} : configOf choice machine = .error error → Misused choice timeout machine
  | name : LockName.ofString? choice.name = none → Misused choice timeout machine

/-- The handle is the one that the choice asks for, under the nonce that was drawn first. -/
abbrev LockChoice.Opens (choice : LockChoice) (supply : Supply) (machine : Machine) (lock : Lock) : Prop :=
  lock.Opened (.ofString choice.dir) choice.name (supply.nonce machine.drawn)

/-- What the way to the lock leaves behind, by how it ends. -/
inductive Entered (supply : Supply) (choice : LockChoice) (timeout : Option Binary64)
    (start ready : Machine) : Entrance → Prop
  | refused (error : LockError) : ready.Keeps start.directory start.tree →
    Entered supply choice timeout start ready (.refused error)
  | waiting : timeout = none → ready.Adds start.directory start.tree →
    Entered supply choice timeout start ready .waiting
  | late {lock : Lock} {seconds : Binary64} {limit : Span} : timeout = some seconds →
    Span.ofSeconds? seconds = some limit → choice.Opens supply start lock →
    ready.Adds start.directory start.tree → Entered supply choice timeout start ready (.late lock limit)
  | inside {lock : Lock} {place : Place} : choice.Opens supply start lock →
    ready.Keeps start.directory start.tree → lock.Carries ready place →
    Entered supply choice timeout start ready (.inside (.of lock))

variable {supply : Supply} {programs : Machine.Programs} {claimant : Claimant} {tries : Nat}
  {choice : LockChoice} {timeout : Option Binary64} {machine : Machine}

theorem uses_enter : (enter claimant tries choice timeout).Uses Request.Prepares := by
  unfold enter
  split
  · trivial
  · rename_i limit _
    refine (uses_openLock choice).bind fun result => ?_
    rcases result with error | lock
    · trivial
    rcases limit with _ | limit
    · refine (uses_hold tries).bind fun result => ?_
      rcases result with _ | (error | guard) <;> trivial
    · refine (uses_tryHold limit).bind fun result => ?_
      rcases result with error | (_ | guard) <;> trivial

/-! ## Wishes that make no sense -/

theorem mapM_timeoutSpan_cases (timeout : Option Binary64) :
    (timeout = none ∧ timeout.mapM timeoutSpan = .ok none) ∨
    (∃ seconds limit, timeout = some seconds ∧ Span.ofSeconds? seconds = some limit ∧
      timeout.mapM timeoutSpan = .ok (some limit)) ∨
    ∃ error, timeout.mapM timeoutSpan = .error error ∧ error.exitStatus = ExitStatus.userError := by
  cases timeout with
  | none => exact .inl ⟨rfl, rfl⟩
  | some seconds =>
    rw [Option.mapM_some, timeoutSpan]
    cases hspan : Span.ofSeconds? seconds with
    | none => exact .inr (.inr ⟨_, rfl, rfl⟩)
    | some limit => exact .inr (.inl ⟨seconds, limit, rfl, hspan, rfl⟩)

theorem exitStatus_of_validate {config : Config} {error : LockError}
    (h : config.validate = .error error) : error.exitStatus = ExitStatus.userError := by
  unfold Config.validate at h
  split at h
  · obtain rfl := Except.error.inj h
    rfl
  · split at h
    · cases h
    · split at h
      · obtain rfl := Except.error.inj h
        rfl
      · cases h

theorem exitStatus_of_ofContent {path : Path} {content : Except Disk.Fault (List UInt8)}
    {error : LockError} (h : Config.ofContent path content = .error error) :
    error.exitStatus = ExitStatus.userError := by
  unfold Config.ofContent at h
  split at h
  · obtain rfl := Except.error.inj h
    rfl
  · split at h
    · obtain rfl := Except.error.inj h
      rfl
    · unfold Config.ofText at h
      split at h
      · cases h
      · split at h
        · obtain rfl := Except.error.inj h
          rfl
        · rename_i config _
          cases hvalid : config.validate with
          | error error' =>
            rw [hvalid] at h
            obtain rfl := Except.error.inj h
            exact exitStatus_of_validate hvalid
          | ok _ =>
            rw [hvalid] at h
            cases h

theorem yields_loadConfig (choice : LockChoice) (machine : Machine) :
    Yields (Machine.answer supply programs) (loadConfig choice) machine
      fun result after => result = configOf choice machine ∧ after = machine := by
  unfold loadConfig configOf
  cases choice.config <;> exact ⟨rfl, rfl⟩

theorem exitStatus_of_configOf {error : LockError} (h : configOf choice machine = .error error) :
    error.exitStatus = ExitStatus.userError := by
  unfold configOf at h
  split at h
  · cases h
  · exact exitStatus_of_ofContent h

theorem yields_enter_of_misused (h : choice.Misused timeout machine) :
    Yields (Machine.answer supply programs) (enter claimant tries choice timeout) machine
      fun entrance after => after = machine ∧
        ∃ error, entrance = .refused error ∧ error.exitStatus = ExitStatus.userError := by
  have hopen (hspan : ∀ seconds, timeout = some seconds → Span.ofSeconds? seconds ≠ none) :
      Yields (Machine.answer supply programs) (openLock choice) machine
        fun result after => after = machine ∧
          ∃ error, result = .error error ∧ error.exitStatus = ExitStatus.userError := by
    refine (yields_loadConfig choice machine).bind ?_
    rintro result after ⟨rfl, rfl⟩
    cases hconfig : configOf choice after with
    | error error => exact ⟨rfl, error, rfl, exitStatus_of_configOf hconfig⟩
    | ok config =>
      cases h with
      | timeout hsome hnone => exact absurd hnone (hspan _ hsome)
      | config herror => exact absurd (hconfig.symm.trans herror) (by simp)
      | name hnone =>
        dsimp only
        rw [Lock.openIn, validateName, hnone]
        exact ⟨rfl, _, rfl, rfl⟩
  unfold enter
  rcases mapM_timeoutSpan_cases timeout with
    ⟨rfl, hlimit⟩ | ⟨seconds, limit, rfl, hspan, hlimit⟩ | ⟨error, herror, hstatus⟩
  · rw [hlimit]
    refine (hopen fun _ hsome => by cases hsome).bind ?_
    rintro _ _ ⟨rfl, error, rfl, hstatus⟩
    exact ⟨rfl, error, rfl, hstatus⟩
  · rw [hlimit]
    refine (hopen fun _ hsome => ?_).bind ?_
    · rw [← Option.some.inj hsome, hspan]
      exact Option.some_ne_none limit
    · rintro _ _ ⟨rfl, error, rfl, hstatus⟩
      exact ⟨rfl, error, rfl, hstatus⟩
  · rw [herror]
    exact ⟨rfl, error, rfl, hstatus⟩

/-! ## Up to the lock -/

section Enter

variable (hsuffix : ∀ n, IsSuffix (supply.suffix n)) (hsound : machine.tree.Sound)
  (hcwd : machine.tree.get? machine.directory = some .directory)
include hcwd

theorem yields_openLock (hsound : machine.tree.Sound) (choice : LockChoice) :
    Yields (Machine.answer supply programs) (openLock choice) machine
      fun result after => after.Adds machine.directory machine.tree ∧ ∀ lock, result = .ok lock →
        choice.Opens supply machine lock ∧
          ∃ place, after.tree.LeadsTo machine.directory lock.parent place := by
  have hself : machine.Adds machine.directory machine.tree := ⟨rfl, hsound, .refl _⟩
  refine (yields_loadConfig choice machine).bind ?_
  rintro result after ⟨rfl, rfl⟩
  cases configOf choice after with
  | error error => exact ⟨hself, fun _ hok => by cases hok⟩
  | ok config => exact yields_openIn hcwd hself _ _ config

include hsuffix hsound

theorem yields_enter :
    Yields (Machine.answer supply programs) (enter claimant tries choice timeout) machine
      fun entrance ready => Entered supply choice timeout machine ready entrance := by
  unfold enter
  rcases mapM_timeoutSpan_cases timeout with
    ⟨hnone, hlimit⟩ | ⟨seconds, limit, hsome, hspan, hlimit⟩ | ⟨error, herror, -⟩
  · rw [hlimit]
    refine (yields_openLock hcwd hsound choice).bind ?_
    rintro (error | lock) opened ⟨hadds, hlock⟩
    · exact .refused error hadds.keeps
    obtain ⟨hopens, parent, hparent⟩ := hlock lock rfl
    have hat : opened.IsAt machine.directory opened.tree := ⟨hadds.directory, rfl⟩
    have hpersists := @persists_tried supply programs lock claimant _ _ _ hsuffix hadds.sound
      (hadds.adds.within _ _ hcwd) hparent
    refine (yields_hold hpersists (.taken hat) tries).bind ?_
    rintro (_ | (error | guard)) ready ⟨htried, hguard⟩
    · exact .waiting hnone (hadds.of_isAt htried.isAt)
    · exact .refused error (hadds.keeps.trans (htried.keeps hadds.sound))
    · obtain rfl := hguard guard rfl
      obtain ⟨place, hcarries⟩ := htried.carries
      exact .inside hopens (hadds.keeps.trans (htried.keeps hadds.sound)) hcarries
  · rw [hlimit]
    refine (yields_openLock hcwd hsound choice).bind ?_
    rintro (error | lock) opened ⟨hadds, hlock⟩
    · exact .refused error hadds.keeps
    obtain ⟨hopens, parent, hparent⟩ := hlock lock rfl
    have hat : opened.IsAt machine.directory opened.tree := ⟨hadds.directory, rfl⟩
    have hpersists := @persists_tried supply programs lock claimant _ _ _ hsuffix hadds.sound
      (hadds.adds.within _ _ hcwd) hparent
    refine (yields_tryHold hpersists (Lock.pauseNanos_pos hopens.valid) (.taken hat)).bind ?_
    rintro (error | (_ | guard)) ready ⟨htried, hguard⟩
    · exact .refused error (hadds.keeps.trans (htried.keeps hadds.sound))
    · exact .late hsome hspan hopens (hadds.of_isAt htried.isAt)
    · obtain rfl := hguard guard rfl
      obtain ⟨place, hcarries⟩ := htried.carries
      exact .inside hopens (hadds.keeps.trans (htried.keeps hadds.sound)) hcarries
  · rw [herror]
    exact .refused error ⟨rfl, hsound, .refl _⟩

end Enter

end DirLock.CommandLine
