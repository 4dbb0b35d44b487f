import DirLock.Lock.Opening
import DirLock.Proofs.Config.Valid
import DirLock.Proofs.Lock.Await
import DirLock.Proofs.Lock.Requests
import DirLock.Proofs.Routine.Pace

/-!
# The pace of a lock

Whoever waits for a lock lets the whole delay pass between two attempts, with or without a deadline, and in
whatever order the two parties of a wait with a deadline move: until then the worker is between two attempts,
and a worker that is told to stop makes no other attempt. The delay is that of the settings. A handle has
settings that were checked, so it is at least a millisecond, and a directory that claims are staged in has a
name.
-/

namespace DirLock

open Disk (Path)
open Routine (KeepsApart keepsApart_of_uses keepsApart_pause)
open Wait (Handshake Move)

/-! ## One attempt -/

theorem Lock.Stages.ne_opening {lock : Lock} {dir : Path} {r : Request} (h : lock.Stages dir r) :
    r ≠ lock.opening := by
  rintro rfl
  exact h

theorem keepsApart_tryClaim (lock : Lock) (claimant : Claimant) (gap : Nat) :
    (lock.tryClaim claimant).KeepsApart lock.opening gap 0 fun _ left => left ≤ gap := by
  obtain ⟨next, hclaim, hnext⟩ := lock.tryClaim_opens claimant
  rw [hclaim]
  refine ⟨fun _ => rfl, fun seen _ => ?_⟩
  rw [if_pos rfl]
  apply keepsApart_of_uses
  exact (hnext seen).mono fun _ => Lock.Stages.ne_opening

/-! ## Waiting without a deadline -/

variable {lock : Lock} {claimant : Claimant}

theorem keepsApart_note {event : Log.Event} {α : Type} {f : Unit → Routine α} {gap owed : Nat}
    {post : α → Nat → Prop} (hnext : ∀ left, left ≤ owed → (f ()).KeepsApart lock.opening gap left post) :
    (Routine.note event >>= f).KeepsApart lock.opening gap owed post := by
  have huses : (Routine.note event).Uses (· ≠ lock.opening) :=
    Routine.uses_request.2 (show Request.note event ≠ lock.opening from nofun)
  exact (keepsApart_of_uses huses).bind fun _ => hnext

theorem keepsApart_untilDecided (tries made : Nat) :
    (Wait.untilDecided (lock.tryClaim claimant) lock.pauseBetween tries made).KeepsApart lock.opening
      lock.pauseNanos 0 fun _ _ => True := by
  induction tries generalizing made with
  | zero => trivial
  | succ tries ih =>
    apply (keepsApart_tryClaim lock claimant lock.pauseNanos).bind
    intro outcome left hleft
    rcases outcome with error | (_ | _)
    · trivial
    · have hrest : ∀ passed, lock.pauseNanos ≤ passed →
          (Wait.untilDecided (lock.tryClaim claimant) lock.pauseBetween tries (made + 1)).KeepsApart lock.opening
            lock.pauseNanos (left - passed) fun _ _ => True := by
        intro passed hpassed
        rw [Nat.sub_eq_zero_of_le (Nat.le_trans hleft hpassed)]
        exact ih (made + 1)
      exact keepsApart_pause nofun hrest
    · trivial

theorem keepsApart_acquire (tries : Nat) :
    (lock.acquire claimant tries).KeepsApart lock.opening lock.pauseNanos 0 fun _ _ => True := by
  apply (keepsApart_untilDecided tries 0).bind
  intro result left _
  rcases result with _ | (error | attempts)
  · trivial
  · trivial
  · exact keepsApart_note fun _ _ => trivial

/-! ## Waiting with a deadline -/

namespace Wait.Handshake

variable {ε : Type} {h next : Handshake ε} {owed maxWait delay : Nat} {moves : List (Move ε)}

/-- The worker makes no other attempt before so many nanoseconds have passed. -/
def Owes (h : Handshake ε) (owed : Nat) : Prop :=
  match h.worker with
  | .attempting => owed = 0
  | .waiting limit => owed ≤ limit - h.clock
  | _ => True

theorem Owes.mono (ho : h.Owes owed) {less : Nat} (hle : less ≤ owed) : h.Owes less := by
  unfold Owes at ho ⊢
  split at ho <;> omega

theorem Owes.tick (ho : h.Owes owed) (nanos : Nat) :
    Owes { h with clock := h.clock + nanos } (owed - nanos) := by
  unfold Owes at ho ⊢
  dsimp only
  split at ho <;> omega

theorem Owes.attempted (howed : owed ≤ h.delay) (outcome : Outcome ε) : (h.afterAttempt outcome).Owes owed := by
  rcases outcome with error | (_ | _)
  · trivial
  · rw [afterAttempt]
    split_ifs
    · trivial
    · show owed ≤ h.clock + h.delay - h.clock
      omega
  · trivial

theorem Owes.begins (ho : h.Owes owed) {limit : Nat} (hworker : h.worker = .waiting limit)
    (hpassed : limit ≤ h.clock) : Owes { h with worker := .attempting } owed := by
  rw [Owes, hworker] at ho
  show owed = 0
  omega

theorem Owes.work (ho : h.Owes owed) (hwork : h.work? = some next) : next.Owes owed := by
  unfold work? at hwork
  split at hwork
  · split_ifs at hwork with hstop hpassed
    · obtain rfl := Option.some.inj hwork
      trivial
    · obtain rfl := Option.some.inj hwork
      exact ho.begins ‹_› hpassed
  · obtain rfl := Option.some.inj hwork
    trivial
  · obtain rfl := Option.some.inj hwork
    trivial
  · cases hwork
  · cases hwork

/-- Neither party attempts again before what is owed has passed. -/
theorem Owes.move (ho : h.Owes owed) (hf : h.Follows maxWait moves) {move : Move ε}
    (hmove : h.move? move = some next) (hout : move.outcome? = none) (htime : move.nanos = 0) : next.Owes owed := by
  have hclock : next.clock = h.clock := by
    rw [(hf.move hmove).clock_eq, elapsed_append, hf.clock_eq]
    simp [elapsed, htime]
  cases move with
  | attempted outcome => cases hout
  | work => exact ho.work hmove
  | call =>
    obtain ⟨hworker, -, -⟩ := worker_of_call hmove
    rw [Owes, hworker, hclock]
    exact ho
  | missStop =>
    simp only [move?] at hmove
    split at hmove
    · split_ifs at hmove with hpassed
      obtain rfl := Option.some.inj hmove
      exact ho.begins ‹_› hpassed
    · cases hmove
  | missReport =>
    simp only [move?] at hmove
    split at hmove
    · split_ifs at hmove
      obtain rfl := Option.some.inj hmove
      exact ho
    · cases hmove
  | tick nanos =>
    obtain rfl := Option.some.inj hmove
    rw [Owes, hclock]
    exact ho

end Wait.Handshake

/-- What holds of a wait for the lock while it goes on. -/
def Lock.Midway (lock : Lock) (maxWait owed : Nat) (wait : Handshake LockError) : Prop :=
  ∃ moves, wait.Paced lock.pauseNanos maxWait moves ∧ wait.Owes owed

namespace Lock

variable {wait next : Handshake LockError} {maxWait owed : Nat}

theorem Midway.start (lock : Lock) (maxWait : Nat) : lock.Midway maxWait 0 (.start lock.pauseNanos maxWait) :=
  ⟨[], .start _ _, rfl⟩

theorem Midway.mono (h : lock.Midway maxWait owed wait) {less : Nat} (hle : less ≤ owed) :
    lock.Midway maxWait less wait := by
  obtain ⟨moves, hpaced, howes⟩ := h
  exact ⟨moves, hpaced, howes.mono hle⟩

theorem Midway.move (h : lock.Midway maxWait owed wait) {move : Move LockError}
    (hmove : wait.move? move = some next) (hout : move.outcome? = none) (htime : move.nanos = 0) :
    lock.Midway maxWait owed next := by
  obtain ⟨moves, hpaced, howes⟩ := h
  exact ⟨moves ++ [move], hpaced.move hmove, howes.move hpaced.follows hmove hout htime⟩

theorem Midway.move_getD (h : lock.Midway maxWait owed wait) (move : Move LockError)
    (hout : move.outcome? = none) (htime : move.nanos = 0) :
    lock.Midway maxWait owed ((wait.move? move).getD wait) := by
  cases hmove : wait.move? move with
  | none => exact h
  | some next => exact h.move hmove hout htime

theorem Midway.tick (h : lock.Midway maxWait owed wait) (nanos : Nat) :
    lock.Midway maxWait (owed - nanos) { wait with clock := wait.clock + nanos } := by
  obtain ⟨moves, hpaced, howes⟩ := h
  have hmove : wait.move? (.tick nanos) = some { wait with clock := wait.clock + nanos } := rfl
  exact ⟨moves ++ [.tick nanos], hpaced.move hmove, howes.tick nanos⟩

theorem Midway.attempted (h : lock.Midway maxWait owed wait) (hworker : wait.worker = .attempting)
    {left : Nat} (hleft : left ≤ lock.pauseNanos) (outcome : Wait.Outcome LockError) :
    lock.Midway maxWait left (wait.afterAttempt outcome) := by
  obtain ⟨moves, hpaced, -⟩ := h
  have hmove : wait.move? (.attempted outcome) = some (wait.afterAttempt outcome) := by
    rw [Handshake.move?, hworker]
  rw [← hpaced.delay_eq] at hleft
  exact ⟨moves ++ [.attempted outcome], hpaced.move hmove, .attempted hleft outcome⟩

theorem Midway.owed_eq (h : lock.Midway maxWait owed wait) (hworker : wait.worker = .attempting) : owed = 0 := by
  obtain ⟨moves, -, howes⟩ := h
  rwa [Handshake.Owes, hworker] at howes

end Lock

section

variable {wait : Handshake LockError} {maxWait owed : Nat} {limit : Time.Span} {α : Type}
  {post : α → Nat → Prop}

theorem keepsApart_attempt {f : Wait.Outcome LockError → Routine α} (h : lock.Midway maxWait owed wait)
    (hworker : wait.worker = .attempting)
    (hnext : ∀ outcome left, lock.Midway maxWait left (wait.afterAttempt outcome) →
      (f outcome).KeepsApart lock.opening lock.pauseNanos left post) :
    (lock.tryClaim claimant >>= f).KeepsApart lock.opening lock.pauseNanos owed post := by
  rw [h.owed_eq hworker]
  apply (keepsApart_tryClaim lock claimant lock.pauseNanos).bind
  intro outcome left hleft
  exact hnext outcome left (h.attempted hworker hleft outcome)

theorem keepsApart_pass {nanos : Nat} {f : Nat → Routine α} (h : lock.Midway maxWait owed wait)
    (hnext : ∀ passed left, lock.Midway maxWait left { wait with clock := wait.clock + passed } →
      (f passed).KeepsApart lock.opening lock.pauseNanos left post) :
    (Routine.request (.pause nanos) >>= f).KeepsApart lock.opening lock.pauseNanos owed post := by
  exact keepsApart_pause nofun fun passed _ => hnext passed _ (h.tick passed)

theorem keepsApart_takeTurns {turns : Nat} (h : lock.Midway maxWait owed wait) :
    (lock.takeTurns claimant limit turns wait).KeepsApart lock.opening lock.pauseNanos owed fun _ _ => True := by
  induction turns generalizing wait owed with
  | zero => trivial
  | succ turns ih =>
    have hspec := wait.turnOf_turn
    rw [Lock.takeTurns]
    cases hturn : wait.turn with
    | «over» outcome => trivial
    | call next =>
      rw [hturn] at hspec
      cases hspec with
      | call hcall =>
        have hmove : wait.move? .call = some next := hcall
        have hnext := h.move hmove rfl rfl
        dsimp only
        split_ifs
        · exact keepsApart_note fun left hleft => ih (hnext.mono hleft)
        · exact ih hnext
    | work next =>
      rw [hturn] at hspec
      cases hspec with
      | work hcall hwork =>
        have hmove : wait.move? .work = some next := hwork
        exact ih (h.move hmove rfl rfl)
    | attempt =>
      rw [hturn] at hspec
      cases hspec with
      | attempt hcall hworker => exact keepsApart_attempt h hworker fun _ _ => ih
    | idle nanos => exact keepsApart_pass h fun _ _ => ih

theorem keepsApart_followPicks {picks : List Wait.Pick} (h : lock.Midway maxWait owed wait) :
    (lock.followPicks claimant limit picks wait).KeepsApart lock.opening lock.pauseNanos owed
      fun wait' left => lock.Midway maxWait left wait' := by
  induction picks generalizing wait owed with
  | nil => exact h
  | cons pick picks ih =>
    cases pick with
    | attempt =>
      rw [Lock.followPicks]
      split
      · exact keepsApart_attempt h ‹_› fun _ _ => ih
      · exact ih h
    | work => exact ih (h.move_getD .work rfl rfl)
    | call =>
      have hnext := h.move_getD .call rfl rfl
      rw [Lock.followPicks]
      split_ifs
      · exact keepsApart_note fun left hleft => ih (hnext.mono hleft)
      · exact ih hnext
    | missStop => exact ih (h.move_getD .missStop rfl rfl)
    | missReport => exact ih (h.move_getD .missReport rfl rfl)
    | pass nanos => exact keepsApart_pass h fun _ _ => ih

theorem keepsApart_tryAcquireAlong (limit : Time.Span) (picks : List Wait.Pick) :
    (lock.tryAcquireAlong claimant limit picks).KeepsApart lock.opening lock.pauseNanos 0 fun _ _ => True := by
  apply (keepsApart_followPicks (.start lock limit.toNanos)).bind
  intro wait left h
  exact (keepsApart_takeTurns h).bind fun _ _ _ => trivial

end

/-! ## Handles that exist -/

namespace Lock

variable {σ : Type} {answer : (r : Request) → σ → r.Reply × σ}

/-- In this run the delay passes in pauses between any two attempts at the lock. -/
def Paces {α : Type} (lock : Lock) (answer : (r : Request) → σ → r.Reply × σ) (routine : Routine α)
    (state : σ) : Prop :=
  ∀ before between after first second, routine.trace answer state =
      before ++ (lock.opening, first) :: (between ++ (lock.opening, second) :: after) →
    lock.pauseNanos ≤ Routine.paused answer between

theorem paces_of_keepsApart {α : Type} {routine : Routine α} {post : α → Nat → Prop}
    (hpauses : ∀ nanos state, nanos ≤ (answer (.pause nanos) state).1)
    (h : routine.KeepsApart lock.opening lock.pauseNanos 0 post) (state : σ) : lock.Paces answer routine state := by
  intro before between after first second htrace
  have hhonest : ∀ (r : Request) state, r.Honest (answer r state).1 := by
    intro r state
    cases r with
    | pause nanos => exact hpauses nanos state
    | _ => trivial
  exact h.gap_le hhonest htrace

theorem valid_of_openIn {parent : Path} {name : String} {config : Config} {state : σ}
    (hopened : ((openIn parent name config).run answer state).1 = .ok lock) :
    config.validate = .ok () ∧ lock.config = config := by
  unfold openIn at hopened
  split at hopened
  · cases hopened
  split at hopened
  · cases hopened
  rename_i hvalid
  refine ⟨hvalid, ?_⟩
  rw [Routine.bind_eq, Routine.run_bind] at hopened
  split at hopened
  · cases hopened
  unfold openWith at hopened
  rw [Routine.bind_eq, Routine.run_bind] at hopened
  split at hopened
  · cases hopened
  · obtain rfl := Except.ok.inj hopened
    rfl

/-- An attempt looks for the claim once, before all else, and makes directories only where the settings say that
claims are staged. -/
theorem trace_tryClaim (lock : Lock) (claimant : Claimant) (answer : (r : Request) → σ → r.Reply × σ) (state : σ) :
    ∃ rest, (lock.tryClaim claimant).trace answer state = (lock.opening, state) :: rest ∧
      ∀ made ∈ rest, lock.Stages (lock.scratchDir claimant) made.1 := by
  obtain ⟨next, hclaim, hnext⟩ := lock.tryClaim_opens claimant
  rw [hclaim]
  exact ⟨_, rfl, fun made hmem => (hnext _).of_mem_trace hmem⟩

/-- The pace of a handle and the place where it stages claims, however its requests are answered. -/
structure IsDriven (lock : Lock) : Prop where
  valid : lock.config.validate = .ok ()
  /-- The delay is at least a millisecond. -/
  delay : 1000000 ≤ lock.pauseNanos
  /-- An attempt begins once. Where the settings name a directory, that name is not empty, and what the attempt
  makes has a staging name in that directory. -/
  attempt : ∀ {σ : Type} (answer : (r : Request) → σ → r.Reply × σ) (state : σ) (claimant : Claimant),
    ∃ rest, (lock.tryClaim claimant).trace answer state = (lock.opening, state) :: rest ∧
      ∀ made ∈ rest, made.1 ≠ lock.opening ∧ ∀ path, made.1 = .makeDirectory path →
        ∀ dir, lock.config.scratch = some dir → dir ≠ .empty ∧
          ∃ suffix, path = dir.join (lock.stagingName suffix) ∨
            ∃ here : Path, path = (here.join dir).join (lock.stagingName suffix)
  /-- The delay passes between two attempts of a wait, if pauses take as long as they should: without a deadline, -/
  untimed : ∀ {σ : Type} (answer : (r : Request) → σ → r.Reply × σ) (state : σ) (claimant : Claimant) (tries : Nat),
    (∀ nanos state, nanos ≤ (answer (.pause nanos) state).1) →
      lock.Paces answer (lock.acquire claimant tries) state ∧ lock.Paces answer (lock.hold claimant tries) state
  /-- and with one, -/
  timed : ∀ {σ : Type} (answer : (r : Request) → σ → r.Reply × σ) (state : σ) (claimant : Claimant)
      (limit : Time.Span), (∀ nanos state, nanos ≤ (answer (.pause nanos) state).1) →
    lock.Paces answer (lock.tryAcquire claimant limit) state ∧ lock.Paces answer (lock.tryHold claimant limit) state
  /-- in whatever order its parties move. -/
  along : ∀ {σ : Type} (answer : (r : Request) → σ → r.Reply × σ) (state : σ) (claimant : Claimant)
      (limit : Time.Span) (picks : List Wait.Pick), (∀ nanos state, nanos ≤ (answer (.pause nanos) state).1) →
    lock.Paces answer (lock.tryAcquireAlong claimant limit picks) state ∧
      lock.Paces answer (lock.tryHoldAlong claimant limit picks) state

theorem isDriven_of_valid (hvalid : lock.config.validate = .ok ()) : lock.IsDriven := by
  obtain ⟨hdelay, hscratch⟩ := Config.validate_eq_ok_iff.1 hvalid
  have halong {σ : Type} (answer : (r : Request) → σ → r.Reply × σ) (state : σ) (claimant : Claimant)
      (limit : Time.Span) (picks : List Wait.Pick) (hpauses : ∀ nanos state, nanos ≤ (answer (.pause nanos) state).1) :
      lock.Paces answer (lock.tryAcquireAlong claimant limit picks) state ∧
        lock.Paces answer (lock.tryHoldAlong claimant limit picks) state := by
    have hwait : (lock.tryAcquireAlong claimant limit picks).KeepsApart lock.opening lock.pauseNanos 0
        fun _ _ => True := keepsApart_tryAcquireAlong limit picks
    have hhold : (lock.tryHoldAlong claimant limit picks).KeepsApart lock.opening lock.pauseNanos 0
        fun _ _ => True := hwait.bind fun _ _ _ => trivial
    exact ⟨paces_of_keepsApart hpauses hwait state, paces_of_keepsApart hpauses hhold state⟩
  refine ⟨hvalid, ?_, ?_, ?_, ?_, halong⟩
  · have hmillis := lock.pauseNanos_eq
    omega
  · intro σ answer state claimant
    obtain ⟨rest, htrace, hstages⟩ := lock.trace_tryClaim claimant answer state
    refine ⟨rest, htrace, fun made hmem => ⟨(hstages made hmem).ne_opening, fun path hpath dir hdir => ?_⟩⟩
    have hnamed : dir ≠ .empty := fun hempty => hscratch (hempty ▸ hdir)
    have hplace : lock.scratchDir claimant = dir := by
      rw [scratchDir, hdir]
      rfl
    have hmade := hstages made hmem
    rw [hpath, hplace] at hmade
    obtain ⟨base, suffix, rfl, rfl | ⟨here, rfl⟩⟩ := hmade
    · exact ⟨hnamed, suffix, .inl rfl⟩
    · exact ⟨hnamed, suffix, .inr ⟨here, rfl⟩⟩
  · intro σ answer state claimant tries hpauses
    have hacquire : (lock.acquire claimant tries).KeepsApart lock.opening lock.pauseNanos 0 fun _ _ => True :=
      keepsApart_acquire tries
    have hhold : (lock.hold claimant tries).KeepsApart lock.opening lock.pauseNanos 0 fun _ _ => True :=
      hacquire.bind fun _ _ _ => trivial
    exact ⟨paces_of_keepsApart hpauses hacquire state, paces_of_keepsApart hpauses hhold state⟩
  · intro σ answer state claimant limit hpauses
    rw [tryAcquire_eq, tryHold_eq]
    exact halong answer state claimant limit [] hpauses

/-- No settings that make no sense drive a lock. Settings from a text or a file were checked; settings made from
the defaults have a delay, and are refused if the directory set last has no name, and only then. Whatever the
settings and whoever answers, there is a handle only if they make sense. -/
theorem driven_by_checked_settings :
    (∀ text, Config.Checked (Config.ofText text)) ∧
    (∀ path content, Config.Checked (Config.ofContent path content)) ∧
    (∀ path text, Config.ofContent path (.ok (Text.utf8Encode text.toList)) = Config.ofText text) ∧
    (∀ settings, 1 ≤ (Config.made settings).waitDelay.toNat ∧
      ((∃ error, (Config.made settings).validate = .error error) ↔ Config.lastScratch settings = some .empty)) ∧
    ∀ {σ : Type} (answer : (r : Request) → σ → r.Reply × σ) (state : σ) (parent : Path) (name : String)
      (config : Config) (lock : Lock), ((openIn parent name config).run answer state).1 = .ok lock →
      config.validate = .ok () ∧ lock.config = config ∧ lock.IsDriven := by
  refine ⟨Config.checked_ofText, Config.checked_ofContent, Config.ofContent_encode, ?_, ?_⟩
  · exact fun settings => ⟨(Config.made_spec settings).1, Config.validate_made_error_iff settings⟩
  · intro σ answer state parent name config lock hopened
    obtain ⟨hvalid, rfl⟩ := valid_of_openIn hopened
    exact ⟨hvalid, rfl, isDriven_of_valid hvalid⟩

end Lock

namespace Site

/-- A handle with a delay of one millisecond, for a lock whose place is taken. -/
def impatientLock : Lock :=
  ⟨pair.name, .ofString "/", .ofNat 1, ⟨1, some (.ofString "/tmp")⟩⟩

/-- A machine on which that handle was opened, and the handle. -/
def impatient : Except LockError Lock × Machine :=
  (Lock.openIn (.ofString "/") "a" ⟨1, some (.ofString "/tmp")⟩).run (Machine.answer Supply.counting noPrograms)
    (.ofTree (Disk.Tree.empty.insert [[0x61]] .directory) [] ⟨0, 0⟩)

/-- A second attempt is made there, a millisecond after the first. -/
theorem impatient_driven :
    impatient.1 = .ok impatientLock ∧
      (((impatientLock.acquire (pair.claimant false) 2).trace (Machine.answer Supply.counting noPrograms)
        impatient.2).map Prod.fst).count impatientLock.opening = 2 ∧
      1000000 ≤ impatientLock.pauseNanos ∧
      impatientLock.Paces (Machine.answer Supply.counting noPrograms)
        (impatientLock.acquire (pair.claimant false) 2) impatient.2 := by
  have hopened : impatient.1 = .ok impatientLock := by decide +kernel
  obtain ⟨-, -, hdriven⟩ := Lock.driven_by_checked_settings.2.2.2.2 (Machine.answer Supply.counting noPrograms)
    (.ofTree (Disk.Tree.empty.insert [[0x61]] .directory) [] ⟨0, 0⟩) _ _ _ _ hopened
  refine ⟨hopened, by decide +kernel, hdriven.delay, ?_⟩
  exact (hdriven.untimed (Machine.answer Supply.counting noPrograms) impatient.2 (pair.claimant false) 2
    fun _ _ => Nat.le_refl _).1

end Site

end DirLock
