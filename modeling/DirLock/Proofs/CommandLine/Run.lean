import DirLock.Proofs.CommandLine.Entrance
import DirLock.Proofs.Lock.Told

/-!
# Running a command under a lock

A run of the program is the way to the lock and what comes after it (`program_eq`). Either the lock is not
acquired, and then nothing is started and nothing is lost from the tree; or the command is started once,
under a claim that carries the run's own nonce, and when it has ended the lock is released once and nothing
is asked of the tree after that. What the command does in between is left open: it is any routine that
makes requests of the same machine.
-/

namespace DirLock.CommandLine

open Disk (Tree Place Path Fault)
open Number (Binary64)
open Time (Span)
open Routine (Yields Uses)

/-- The second part of running a command under a lock: run the command, or say why it is not run. -/
def proceed (command : String) (arguments : List String) :
    Entrance → Routine (Option (Except LockError Nat))
  | .refused error => return some (.error error)
  | .waiting => return none
  | .late lock limit => do
    reportTimeout lock limit
    return some (.ok ExitStatus.notAcquired)
  | .inside guard => do return some (← runGuarded guard command arguments)

/-- The last part: say what went wrong, and end with a status. -/
def conclude : Option (Except LockError Nat) → Routine (Option Nat)
  | none => return none
  | some (.ok status) => return some (finalStatus status)
  | some (.error error) => do
    Routine.request (.complain s!"Error: {error.message}\n")
    return some (finalStatus error.exitStatus)

/-- All that comes after the way to the lock. -/
def finish (command : String) (arguments : List String) (entrance : Entrance) : Routine (Option Nat) :=
  proceed command arguments entrance >>= conclude

theorem runCommand_eq (claimant : Claimant) (tries : Nat) (choice : LockChoice)
    (timeout : Option Binary64) (command : String) (arguments : List String) :
    runCommand claimant tries choice timeout command arguments =
      enter claimant tries choice timeout >>= proceed command arguments := by
  unfold runCommand enter
  cases timeout.mapM timeoutSpan with
  | error error => rfl
  | ok limit =>
    dsimp only
    rw [bind_assoc]
    congr 1
    funext result
    rcases result with error | lock
    · rfl
    rcases limit with _ | limit
    · dsimp only
      rw [bind_assoc]
      congr 1
      funext result
      rcases result with _ | (error | guard) <;> rfl
    · dsimp only
      rw [bind_assoc]
      congr 1
      funext result
      rcases result with error | (_ | guard) <;> rfl

variable {claimant : Claimant} {tries verbosity : Nat} {choice : LockChoice}
  {timeout : Option Binary64} {command : String} {arguments line : List String}

theorem program_eq
    (hread : readArguments line = .ok ⟨verbosity, .run choice timeout command arguments⟩) :
    program claimant tries line =
      enter claimant tries choice timeout >>= finish command arguments := by
  unfold program
  rw [hread]
  dsimp only
  rw [perform, runCommand_eq, bind_assoc]
  rfl

theorem finalStatus_exitStatus (error : LockError) : finalStatus error.exitStatus = error.exitStatus := by
  cases error <;> rfl

variable {supply : Supply} {programs : Machine.Programs} {lock : Lock} {ready : Machine}

/-! ## Without the lock -/

theorem uses_conclude (result : Option (Except LockError Nat)) :
    (conclude result).Uses fun r => ∃ text, r = .complain text := by
  rcases result with _ | (error | status)
  · trivial
  · exact Routine.uses_request_bind ⟨_, rfl⟩ fun _ => trivial
  · trivial

theorem yields_conclude (result : Option (Except LockError Nat)) (machine : Machine) :
    Yields (Machine.answer supply programs) (conclude result) machine fun status after =>
      after.tree = machine.tree ∧ after.directory = machine.directory ∧ status = match result with
        | none => none
        | some (.ok status) => some (finalStatus status)
        | some (.error error) => some error.exitStatus := by
  rcases result with _ | (error | status)
  · exact ⟨rfl, rfl, rfl⟩
  · exact ⟨rfl, rfl, congrArg some (finalStatus_exitStatus error)⟩
  · exact ⟨rfl, rfl, rfl⟩

theorem yields_reportTimeout (lock : Lock) (limit : Span) (machine : Machine) :
    Yields (Machine.answer supply programs) (reportTimeout lock limit) machine
      fun _ after => after.tree = machine.tree := by
  have hholder (before : Machine) : Yields (Machine.answer supply programs) lock.holder? before
      fun _ after => after = before := rfl
  refine Routine.yields_request ((hholder _).bind ?_)
  rintro (_ | holder) after rfl
  · rfl
  · rfl

/-! ## With the lock -/

/-- The stations of a run that has acquired the lock: the machine on which the command is started, how the
command ends and the machine that it leaves, how the release ends and the machine that it leaves. -/
structure Course where
  started : Machine
  ended : Except Fault ChildEnd
  left : Machine
  released : Except LockError Unit
  freed : Machine

/-- The event that goes before a command. -/
def announcement (lock : Lock) (command : String) : Log.Event := .running lock.name.text command

/-- The course of a run that has acquired the lock on this machine. -/
def courseFrom (supply : Supply) (programs : Machine.Programs) (lock : Lock) (command : String)
    (arguments : List String) (ready : Machine) : Course :=
  let started := ready.write (.event ready.clock (announcement lock command))
  let child := Machine.answer supply programs (.runProgram command arguments) started
  let release := lock.unlock.run (Machine.answer supply programs) child.2
  ⟨started, child.1, child.2, release.1, release.2⟩

/-- What is reported: first that the command could not be started, then that the lock could not be
released, then how the command ended. -/
def report (command : String) (ended : Except Fault ChildEnd) (released : Except LockError Unit) :
    Except LockError Nat :=
  match ended, released with
  | .error fault, _ => .error (.io .runCommand (.ofString command) fault)
  | .ok _, .error error => .error error
  | .ok ended, .ok () => .ok (childStatus ended)

def Course.status (course : Course) : Nat :=
  match course.ended, course.released with
  | .error _, _ => ExitStatus.ioFailure
  | .ok _, .error error => error.exitStatus
  | .ok ended, .ok () => finalStatus (childStatus ended)

theorem runGuarded_eq :
    runGuarded (.of lock) command arguments =
      Routine.note (announcement lock command) >>= fun _ =>
        Routine.request (.runProgram command arguments) >>= fun ended =>
          lock.unlock >>= fun released => pure (report command ended released) := by
  unfold runGuarded Guard.release
  simp only [bind_assoc, pure_bind]
  congr 1
  funext _
  congr 1
  funext ended
  show lock.unlock >>= _ = _
  congr 1
  funext released
  rcases ended with fault | ended
  · rfl
  · rcases released with error | _ <;> rfl

theorem yields_runGuarded :
    Yields (Machine.answer supply programs) (runGuarded (.of lock) command arguments) ready
      fun result after =>
        result = report command (courseFrom supply programs lock command arguments ready).ended
            (courseFrom supply programs lock command arguments ready).released ∧
          after = (courseFrom supply programs lock command arguments ready).freed := by
  rw [runGuarded_eq, Yields]
  simp only [Routine.bind_eq, Routine.run_bind]
  exact ⟨rfl, rfl⟩

theorem trace_runGuarded :
    (runGuarded (.of lock) command arguments).trace (Machine.answer supply programs) ready =
      (.note (announcement lock command), ready) ::
      (.runProgram command arguments, (courseFrom supply programs lock command arguments ready).started) ::
      lock.unlock.trace (Machine.answer supply programs)
        (courseFrom supply programs lock command arguments ready).left := by
  rw [runGuarded_eq]
  simp only [Routine.trace_bind, Routine.trace_pure, List.append_nil]
  rfl

theorem finish_inside :
    finish command arguments (.inside (.of lock)) =
      runGuarded (.of lock) command arguments >>= fun result => conclude (some result) := by
  simp only [finish, proceed, bind_assoc, pure_bind]

variable (command arguments supply programs lock ready) in
theorem yields_finish_inside :
    Yields (Machine.answer supply programs) (finish command arguments (.inside (.of lock))) ready
      fun status last =>
        status = some (courseFrom supply programs lock command arguments ready).status ∧
          last.tree = (courseFrom supply programs lock command arguments ready).freed.tree ∧
          last.directory = (courseFrom supply programs lock command arguments ready).freed.directory := by
  rw [finish_inside]
  refine yields_runGuarded.bind ?_
  generalize courseFrom supply programs lock command arguments ready = course
  rintro result after ⟨rfl, rfl⟩
  refine (yields_conclude _ _).mono ?_
  rintro status last ⟨htree, hdirectory, rfl⟩
  refine ⟨?_, htree, hdirectory⟩
  obtain ⟨started, ended, left, released, freed⟩ := course
  rcases ended with fault | ended
  · rfl
  · rcases released with error | _ <;> rfl

variable (command arguments supply programs lock ready) in
theorem trace_finish_inside :
    ∃ after, (finish command arguments (.inside (.of lock))).trace (Machine.answer supply programs) ready =
      (.note (announcement lock command), ready) ::
      (.runProgram command arguments, (courseFrom supply programs lock command arguments ready).started) ::
      (lock.unlock.trace (Machine.answer supply programs)
        (courseFrom supply programs lock command arguments ready).left ++ after) ∧
      ∀ made ∈ after, ∃ text, made.1 = .complain text := by
  rw [finish_inside, Routine.trace_bind, trace_runGuarded]
  exact ⟨_, rfl, fun made hmem => (uses_conclude _).of_mem_trace hmem⟩

theorem uses_finish {entrance : Entrance} (h : ∀ guard, entrance ≠ .inside guard) :
    (finish command arguments entrance).Uses Request.Prepares := by
  refine Uses.bind ?_ fun result => (uses_conclude result).mono ?_
  · cases entrance with
    | refused error => trivial
    | waiting => trivial
    | late lock limit => exact (uses_reportTimeout lock limit).bind fun _ => trivial
    | inside guard => exact absurd rfl (h guard)
  · rintro _ ⟨text, rfl⟩
    trivial

/-! ## A whole run -/

/-- A run that is over: the requests that it made, its status and the machine that it left. -/
structure Finished where
  requests : List (Request × Machine)
  status : Option Nat
  last : Machine

/-- The run of a routine on this machine, which goes on after these requests. -/
def finishedAfter (supply : Supply) (programs : Machine.Programs) (before : List (Request × Machine))
    (routine : Routine (Option Nat)) (machine : Machine) : Finished :=
  ⟨before ++ routine.trace (Machine.answer supply programs) machine,
    (routine.run (Machine.answer supply programs) machine).1,
    (routine.run (Machine.answer supply programs) machine).2⟩

/-- The run of a routine from its start. -/
def finished (supply : Supply) (programs : Machine.Programs) (routine : Routine (Option Nat))
    (start : Machine) : Finished := finishedAfter supply programs [] routine start

theorem finished_bind {α : Type} (routine : Routine α) (f : α → Routine (Option Nat)) (start : Machine) :
    finished supply programs (routine >>= f) start =
      finishedAfter supply programs (routine.trace (Machine.answer supply programs) start)
        (f (routine.run (Machine.answer supply programs) start).1)
        (routine.run (Machine.answer supply programs) start).2 := by
  rw [finished, finishedAfter, finishedAfter, Routine.trace_bind, Routine.bind_eq, Routine.run_bind,
    List.nil_append]

def Finished.StartsNothing (run : Finished) : Prop := ∀ made ∈ run.requests, made.1.StartsNothing

/-- A run that has acquired the lock took this course. -/
structure Finished.Takes (run : Finished) (supply : Supply) (programs : Machine.Programs) (lock : Lock)
    (command : String) (arguments : List String) (course : Course) : Prop where
  /-- When the command is started the claim carries the run's own nonce. -/
  carried : ∃ place, lock.Carries course.started place
  /-- The command is started once and the lock is released once, after it; then the run only complains. -/
  requests_eq : ∃ before after, run.requests = before ++ (.runProgram command arguments, course.started) ::
      (lock.unlock.trace (Machine.answer supply programs) course.left ++ after) ∧
    (∀ made ∈ before, made.1.StartsNothing ∧ ∀ source, made.1 ≠ .rename source lock.releasedDir) ∧
    (∀ made ∈ lock.unlock.trace (Machine.answer supply programs) course.left, made.1.StartsNothing) ∧
    ∀ made ∈ after, ∃ text, made.1 = .complain text
  /-- The release moves the claim aside and deletes it, or leaves the tree as it is. -/
  frees : lock.Frees course.left course.freed course.released
  /-- A claim that does not carry the run's own nonce when the command has ended is left alone. -/
  foreign_kept : ¬ lock.IsHeldAt course.left → run.last.tree = course.left.tree
  /-- A failed release ends as the user's failure where the claim did not carry the run's own nonce, and as
  one of the file system where it did. -/
  released_status : ∀ error, course.released = .error error →
    error.exitStatus = ExitStatus.userError ∧ ¬ lock.IsHeldAt course.left ∨
      error.exitStatus = ExitStatus.ioFailure ∧ lock.IsHeldAt course.left
  /-- Nothing changes the tree after the release. -/
  tree_eq : run.last.tree = course.freed.tree
  /-- The run's own nonce is found in the end only where the claim could not be moved aside, or where moving it has
  made the path of the claim lead elsewhere. That takes a link at the place to which it is moved. -/
  left_only : lock.IsHeldAt run.last →
    (∃ fault, course.released = .error (.io .releaseClaim lock.claimDir fault)) ∨
      lock.claimPlace? run.last ≠ lock.claimPlace? course.left ∧
        (course.left.tree.Sound → ¬ lock.Bypasses course.left)
  status_eq : run.status = some course.status

/-- How a run goes on from the way to the lock. -/
inductive Finished.Follows (run : Finished) (supply : Supply) (programs : Machine.Programs)
    (choice : LockChoice) (timeout : Option Binary64) (command : String) (arguments : List String)
    (start ready : Machine) : Entrance → Prop
  | refused {error : LockError} : run.StartsNothing → run.status = some error.exitStatus →
    start.tree.Within run.last.tree →
    Follows run supply programs choice timeout command arguments start ready (.refused error)
  | waiting : timeout = none → run.StartsNothing → run.status = none →
    start.tree.AddsDirectories run.last.tree →
    Follows run supply programs choice timeout command arguments start ready .waiting
  | late {lock : Lock} {seconds : Binary64} {limit : Span} : timeout = some seconds →
    Span.ofSeconds? seconds = some limit → choice.Opens supply start lock →
    run.StartsNothing → run.status = some ExitStatus.notAcquired →
    start.tree.AddsDirectories run.last.tree →
    Follows run supply programs choice timeout command arguments start ready (.late lock limit)
  | inside {lock : Lock} : choice.Opens supply start lock → start.tree.Within ready.tree →
    run.Takes supply programs lock command arguments
      (courseFrom supply programs lock command arguments ready) →
    Follows run supply programs choice timeout command arguments start ready (.inside (.of lock))

variable {start : Machine}

variable (command arguments supply programs ready) in
theorem yields_finish_outside (entrance : Entrance) (h : ∀ guard, entrance ≠ .inside guard) :
    Yields (Machine.answer supply programs) (finish command arguments entrance) ready fun status last =>
      last.tree = ready.tree ∧ status = match entrance with
        | .refused error => some error.exitStatus
        | .waiting => none
        | .late _ _ => some ExitStatus.notAcquired
        | .inside _ => none := by
  cases entrance with
  | refused error =>
    exact (yields_conclude (some (.error error)) ready).mono fun _ _ h => ⟨h.1, h.2.2⟩
  | waiting => exact ⟨rfl, rfl⟩
  | late lock limit =>
    have hproceed : Yields (Machine.answer supply programs)
        (proceed command arguments (.late lock limit)) ready fun result after =>
          after.tree = ready.tree ∧ result = some (.ok ExitStatus.notAcquired) :=
      (yields_reportTimeout lock limit ready).bind fun _ _ htree => ⟨htree, rfl⟩
    refine hproceed.bind ?_
    rintro result after ⟨htree, rfl⟩
    exact ⟨htree, rfl⟩
  | inside guard => exact absurd rfl (h guard)

section Whole

variable {before : List (Request × Machine)} (hbefore : ∀ made ∈ before, made.1.Prepares)
include hbefore

theorem takes_course {place : Place} (hsound : ready.tree.Sound) (hcarries : lock.Carries ready place) :
    (finishedAfter supply programs before (finish command arguments (.inside (.of lock))) ready).Takes
      supply programs lock command arguments
      (courseFrom supply programs lock command arguments ready) := by
  obtain ⟨after, htrace, hafter⟩ := trace_finish_inside command arguments supply programs lock ready
  have hend := yields_finish_inside command arguments supply programs lock ready
  -- From here on the run is known by `hend` and `htrace` alone, so that it is not unfolded any more.
  rw [finishedAfter, htrace]
  rw [Yields] at hend
  generalize (finish command arguments (.inside (.of lock))).run (Machine.answer supply programs) ready =
    result at hend ⊢
  obtain ⟨status, last⟩ := result
  obtain ⟨hstatus, htree, hdirectory⟩ := hend
  set course := courseFrom supply programs lock command arguments ready
  have hordered : course.left.tree.Ordered :=
    Machine.ordered_answer supply programs (.runProgram command arguments) hsound.toOrdered
  have hfrees : lock.Frees course.left course.freed course.released := yields_unlock hordered
  have hfreed : course.freed.directory = course.left.directory :=
    Machine.directory_run supply programs lock.unlock course.left
  refine ⟨⟨place, hcarries.place_eq, hcarries.directory, hcarries.held⟩, ?_, hfrees, ?_, ?_, htree, ?_,
    hstatus⟩
  · refine ⟨before ++ [(.note (announcement lock command), ready)], after, ?_, ?_, ?_, hafter⟩
    · rw [List.append_assoc, List.singleton_append]
    · intro made hmem
      have hprepares : made.1.Prepares := by
        rcases List.mem_append.1 hmem with hmem | hmem
        · exact hbefore made hmem
        · rw [List.mem_singleton.1 hmem]
          trivial
      exact ⟨hprepares.startsNothing, hprepares.ne_release lock⟩
    · exact fun made hmem => uses_unlock.of_mem_trace hmem
  · exact fun hnot => htree.trans (hfrees.tree_eq_of_not_isHeldAt hnot)
  · intro error herror
    rw [herror] at hfrees
    exact hfrees.exitStatus_error
  · intro hheld
    have hstill : lock.IsHeldAt course.freed := (Lock.isHeldAt_congr htree hdirectory).1 hheld
    by_cases hplace : lock.claimPlace? course.freed = lock.claimPlace? course.left
    · exact .inl (hfrees.stuck_of_isHeldAt hfreed hplace hstill)
    by_cases hbypass : course.left.tree.Sound ∧ lock.Bypasses course.left
    · have htold : lock.Told course.left course.freed course.released :=
        yields_unlock_told hbypass.1 hbypass.2
      exact .inl (htold.stuck_of_isHeldAt hfreed hstill)
    · rw [Lock.claimPlace?_congr htree hdirectory]
      exact .inr ⟨hplace, fun hleft hby => hbypass ⟨hleft, hby⟩⟩

theorem startsNothing_outside {entrance : Entrance} (h : ∀ guard, entrance ≠ .inside guard) :
    (finishedAfter supply programs before (finish command arguments entrance) ready).StartsNothing := by
  intro made hmem
  rcases List.mem_append.1 hmem with hmem | hmem
  · exact (hbefore made hmem).startsNothing
  · exact ((uses_finish h).of_mem_trace hmem).startsNothing

theorem follows_of_entered {entrance : Entrance}
    (hentered : Entered supply choice timeout start ready entrance) :
    (finishedAfter supply programs before (finish command arguments entrance) ready).Follows supply programs
      choice timeout command arguments start ready entrance := by
  have hend := yields_finish_outside command arguments supply programs ready entrance
  cases hentered with
  | refused error hkeeps =>
    obtain ⟨htree, hstatus⟩ := hend (by simp)
    refine .refused (startsNothing_outside hbefore (by simp)) hstatus ?_
    rw [finishedAfter, htree]
    exact hkeeps.within
  | waiting htimeout hadds =>
    obtain ⟨htree, hstatus⟩ := hend (by simp)
    refine .waiting htimeout (startsNothing_outside hbefore (by simp)) hstatus ?_
    rw [finishedAfter, htree]
    exact hadds.adds
  | late htimeout hspan hopens hadds =>
    obtain ⟨htree, hstatus⟩ := hend (by simp)
    refine .late htimeout hspan hopens (startsNothing_outside hbefore (by simp)) hstatus ?_
    rw [finishedAfter, htree]
    exact hadds.adds
  | inside hopens hkeeps hcarries =>
    exact .inside hopens hkeeps.within (takes_course hbefore hkeeps.sound hcarries)

end Whole

/-- A command that overwrites the held marker of the lock `a` in the root directory and is then killed. -/
def usurp : Machine.Programs := fun _ _ => do
  let _ ← Routine.request (.writeFile (.ofString "/a/held") [1])
  return .ok (.killed 9)

def usurped : Finished :=
  finished Site.pair.supply usurp
    (program ⟨some "user", none, "host", 0, some "/"⟩ 1 ["run", "--dir", "/", "--name", "a", "--", "usurp"])
    (.ofTree .empty [] ⟨0, 0⟩)

/-- A lock in the directory `p`, under the nonce that is drawn first. -/
def straying : Lock :=
  { Site.pairLock false with
    parent := .ofString "/p", nonce := ⟨List.replicate 19 0 ++ [1], rfl⟩, config := .default }

/-- A command that moves the claim of that lock away and puts links on the way to it, so that the way leads through the
place to which the claim is moved when it is released. There stands one more marker. -/
def mislead : Machine.Programs := fun _ _ => do
  let _ ← Routine.request (.rename (.ofString "/p/a") (.ofString "/m"))
  let _ ← Routine.request (.rename (.ofString "/p") (.ofString "/old"))
  let _ ← Routine.request (.makeLink (.ofString ".") ⟨Path.slash :: straying.nonce.releasedName⟩)
  let _ ← Routine.request (.makeLink ⟨straying.nonce.releasedName⟩ (.ofString "/p"))
  let _ ← Routine.request (.makeLink (.ofString "m") (.ofString "/a"))
  let _ ← Routine.request (.makeDirectory (.ofString "/m/a"))
  let _ ← Routine.request (.writeFile (.ofString "/m/a/held") straying.nonce.bytes)
  return .ok (.exited 0)

def misled : Finished :=
  finished Site.pair.supply mislead
    (program ⟨some "user", none, "host", 0, some "/"⟩ 1 ["run", "--dir", "/p", "--name", "a", "--", "mislead"])
    (.ofTree .empty [] ⟨0, 0⟩)

/-- A run with a timeout that is no number. -/
def mistimed : Finished :=
  finished Site.pair.supply mislead
    (program ⟨some "user", none, "host", 0, some "/"⟩ 1
      ["run", "--dir", "/p", "--name", "a", "--timeout", "abc", "--", "mislead"])
    (.ofTree .empty [] ⟨0, 0⟩)

end DirLock.CommandLine
