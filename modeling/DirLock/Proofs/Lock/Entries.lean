import DirLock.Lock.Claim
import DirLock.Lock.Release
import DirLock.Proofs.Lock.Site
import DirLock.Proofs.Routine.Run

/-!
# The entries of handles

Handles put entries of three kinds into directories: claims, claims that were moved aside, and what is staged.
Which entry it is can be read back from its name. So two paths that name the same entry of a directory name it
for the same purpose, whichever way they go there, and handles with different nonces have no entry in common but
the claim of a lock that both are for. That is so even if claims are staged in the directory of the locks.

An attempt and a release change nothing but such entries of their own handle and the two files inside them,
as long as suffixes are what they should be.
-/

namespace DirLock

open Disk (Name Path Place Tree Fault)
open Disk.Tree (Removal)
open Text (hexBytes)

/-! ## Entries and their names -/

/-- An entry that handles put into a directory. -/
inductive LockEntry where
  /-- The claim of the lock of this name. -/
  | claim (name : LockName)
  /-- A claim that the handle with this nonce has moved aside. -/
  | released (nonce : Nonce)
  /-- What the handle with this nonce stages under this suffix. -/
  | staging (nonce : Nonce) (suffix : List Char) (isSuffix : IsSuffix suffix)

theorem Nonce.eq_of_stagingName {nonce other : Nonce} {suffix suffix' : List Char} (hs : IsSuffix suffix)
    (hs' : IsSuffix suffix') (h : nonce.stagingName suffix = other.stagingName suffix') :
    nonce = other ∧ suffix = suffix' := by
  have hnonce := Nonce.stagingName_injective hs hs' h
  subst hnonce
  have htext := Text.utf8Encode_injective (isPlain_of_isNamePart (nonce.isNamePart_stagingText hs))
    (isPlain_of_isNamePart (nonce.isNamePart_stagingText hs')) h
  have hend := List.append_cancel_left (List.cons.inj htext).2
  exact ⟨rfl, (List.cons.inj hend).2⟩

namespace LockEntry

/-- The name under which the entry stands in its directory. -/
def name : LockEntry → Name
  | claim name => name.bytes
  | released nonce => nonce.releasedName
  | staging nonce suffix _ => nonce.stagingName suffix

/-- The path of the entry in a directory. -/
def pathIn (entry : LockEntry) (dir : Path) : Path := dir.join ⟨entry.name⟩

theorem isName (entry : LockEntry) : Path.IsName entry.name := by
  cases entry with
  | claim name => exact name.isName
  | released nonce => exact nonce.isName_releasedName
  | staging nonce suffix hsuffix => exact nonce.isName_stagingName hsuffix

theorem name_injective : Function.Injective name := by
  intro entry other h
  cases entry with
  | claim name =>
    cases other with
    | claim name' => exact congrArg claim (LockName.bytes_injective h)
    | released nonce => exact absurd h (name.bytes_ne_releasedName nonce)
    | staging nonce suffix hsuffix => exact absurd h (name.bytes_ne_stagingName nonce hsuffix)
  | released nonce =>
    cases other with
    | claim name => exact absurd h.symm (name.bytes_ne_releasedName nonce)
    | released nonce' => exact congrArg released (Nonce.releasedName_injective h)
    | staging nonce' suffix hsuffix => exact absurd h (nonce.releasedName_ne_stagingName nonce' hsuffix)
  | staging nonce suffix hsuffix =>
    cases other with
    | claim name => exact absurd h.symm (name.bytes_ne_stagingName nonce hsuffix)
    | released nonce' => exact absurd h.symm (nonce'.releasedName_ne_stagingName nonce hsuffix)
    | staging nonce' suffix' hsuffix' =>
      obtain ⟨hnonce, hend⟩ := Nonce.eq_of_stagingName hsuffix hsuffix' h
      subst hnonce hend
      rfl

variable {entry other : LockEntry} {base base' : Path}

theorem names_pathIn (entry : LockEntry) (base : Path) : (entry.pathIn base).names = base.names ++ [entry.name] :=
  Path.names_join entry.isName base

theorem eq_of_pathIn (h : entry.pathIn base = other.pathIn base') : entry = other := by
  have hnames := congrArg Path.names h
  rw [names_pathIn, names_pathIn] at hnames
  apply name_injective
  exact (List.cons.inj (List.append_inj' hnames rfl).2).1

theorem name_of_names {tree : Tree} {cwd dir : Place} {name : Name}
    (h : tree.Names cwd (entry.pathIn base) dir name) : entry.name = name := by
  obtain ⟨front, left, hnames, -⟩ := h.names_eq
  rw [names_pathIn] at hnames
  exact (List.cons.inj (List.append_inj' hnames rfl).2).1

end LockEntry

/-! ## The entries of one handle -/

/-- The entries that are a handle's to make. -/
inductive Lock.Owns (lock : Lock) : LockEntry → Prop
  | claim : lock.Owns (.claim lock.name)
  | released : lock.Owns (.released lock.nonce)
  | staging {suffix : List Char} (isSuffix : IsSuffix suffix) : lock.Owns (.staging lock.nonce suffix isSuffix)

namespace Lock

variable {lock other : Lock} {claimant : Claimant} {base path : Path}

theorem claimDir_eq_pathIn (lock : Lock) : lock.claimDir = (LockEntry.claim lock.name).pathIn lock.parent :=
  lock.claimDir_eq

theorem releasedDir_eq_pathIn (lock : Lock) :
    lock.releasedDir = (LockEntry.released lock.nonce).pathIn lock.parent :=
  lock.releasedDir_eq

theorem join_stagingName_eq_pathIn (lock : Lock) (base : Path) {suffix : List Char} (h : IsSuffix suffix) :
    base.join (lock.stagingName suffix) = (LockEntry.staging lock.nonce suffix h).pathIn base := by
  rw [lock.stagingName_eq]
  rfl

theorem Owns.eq_claim {entry : LockEntry} (h : lock.Owns entry) (h' : other.Owns entry)
    (hnonce : lock.nonce ≠ other.nonce) : entry = .claim lock.name ∧ lock.name = other.name := by
  generalize hsame : entry = same at h'
  cases h with
  | claim =>
    cases h' with
    | claim => exact ⟨hsame.symm, LockEntry.claim.inj hsame⟩
    | released => cases hsame
    | staging => cases hsame
  | released =>
    cases h' with
    | claim => cases hsame
    | released => exact absurd (LockEntry.released.inj hsame) hnonce
    | staging => cases hsame
  | staging =>
    cases h' with
    | claim => cases hsame
    | released => cases hsame
    | staging => exact absurd (LockEntry.staging.inj hsame).1 hnonce

theorem WorksIn.exists_entry (h : lock.WorksIn base path) :
    ∃ entry dir, lock.Owns entry ∧ path = entry.pathIn dir := by
  cases h with
  | claim => exact ⟨_, _, .claim, lock.claimDir_eq_pathIn⟩
  | released => exact ⟨_, _, .released, lock.releasedDir_eq_pathIn⟩
  | staging hsuffix => exact ⟨_, _, .staging hsuffix, lock.join_stagingName_eq_pathIn base hsuffix⟩

theorem WorksIn.eq_claimDir (h : lock.WorksIn base path) {tree : Tree} {cwd dir : Place}
    (hnames : tree.Names cwd path dir lock.name.bytes) : path = lock.claimDir := by
  cases h with
  | claim => rfl
  | released =>
    rw [releasedDir_eq_pathIn] at hnames
    exact absurd (LockEntry.name_of_names hnames).symm (lock.name.bytes_ne_releasedName lock.nonce)
  | staging hsuffix =>
    rw [lock.join_stagingName_eq_pathIn base hsuffix] at hnames
    exact absurd (LockEntry.name_of_names hnames).symm (lock.name.bytes_ne_stagingName lock.nonce hsuffix)

/-- Whatever trees and ways are meant, paths of the two handles name one entry of a directory only as the claim of
the lock that both are for. -/
def Apart (lock other : Lock) : Prop :=
  ∀ {base base' path path' : Path} {tree tree' : Tree} {cwd cwd' dir : Place} {name : Name},
    lock.WorksIn base path → other.WorksIn base' path' → tree.Names cwd path dir name →
      tree'.Names cwd' path' dir name →
      lock.name = other.name ∧ path = lock.claimDir ∧ path' = other.claimDir

theorem apart_of_nonce_ne (hnonce : lock.nonce ≠ other.nonce) : lock.Apart other := by
  intro base base' path path' tree tree' cwd cwd' dir name h h' hnames hnames'
  obtain ⟨entry, place, howns, hpath⟩ := h.exists_entry
  obtain ⟨entry', place', howns', hpath'⟩ := h'.exists_entry
  have hlast : entry.name = name := LockEntry.name_of_names (hpath ▸ hnames)
  have hlast' : entry'.name = name := LockEntry.name_of_names (hpath' ▸ hnames')
  have hentry : entry = entry' := LockEntry.name_injective (hlast.trans hlast'.symm)
  obtain ⟨hclaim, hname⟩ := howns.eq_claim (hentry ▸ howns') hnonce
  have hbytes : name = lock.name.bytes := by
    rw [← hlast, hclaim]
    rfl
  subst hbytes
  have hclaim' : path' = other.claimDir := by
    rw [hname] at hnames'
    exact h'.eq_claimDir hnames'
  exact ⟨hname, h.eq_claimDir hnames, hclaim'⟩

end Lock

/-! ## What is asked, given proper replies -/

/-- The path through which the step removes something. -/
def Disk.Tree.Removal.path : Removal → Path
  | .unlink path _ => path
  | .removeDirectory path _ => path

/-- The reply is one that machines give: suffixes are six letters or digits, and what stands in a directory is
removed through the path of the directory. -/
def Request.Proper : (r : Request) → r.Reply → Prop
  | .randomSuffix, suffix => IsSuffix suffix
  | .removals path, reply => ∀ steps, reply = .ok steps → ∀ step ∈ steps, step.path = path
  | _, _ => True

/-- The request changes the tree at the path, or below it. -/
def Request.ChangesAt : Request → Path → Prop
  | .makeDirectory path, at_ => at_ = path
  | .writeFile path _, at_ => at_ = path
  | .makeLink _ path, at_ => at_ = path
  | .rename source target, at_ => at_ = source ∨ at_ = target
  | .remove step, at_ => at_ = step.path
  | .unlink path, at_ => at_ = path
  | .runProgram _ _, _ => True
  | _, _ => False

namespace Routine

variable {α β σ : Type} {allowed : Request → Prop} {post : α → Prop} {post' : β → Prop}

/-- As long as replies are proper, all requests of the routine are of this kind, and it ends with a value that is
as described. -/
def Asks (allowed : Request → Prop) : Routine α → (α → Prop) → Prop
  | done value, post => post value
  | ask r next, post => allowed r ∧ ∀ reply, r.Proper reply → (next reply).Asks allowed post

theorem Asks.bind {routine : Routine α} {f : α → Routine β} (h : routine.Asks allowed post)
    (hnext : ∀ value, post value → (f value).Asks allowed post') : (routine >>= f).Asks allowed post' := by
  rw [bind_eq]
  induction routine with
  | done value => exact hnext value h
  | ask r next ih => exact ⟨h.1, fun reply hreply => ih reply (h.2 reply hreply)⟩

theorem asks_request_bind {r : Request} {next : r.Reply → Routine β} (h : allowed r)
    (hnext : ∀ reply, r.Proper reply → (next reply).Asks allowed post') :
    (request r >>= next).Asks allowed post' := ⟨h, hnext⟩

theorem Asks.of_mem_trace {routine : Routine α} (h : routine.Asks allowed post)
    {answer : (r : Request) → σ → r.Reply × σ} (hproper : ∀ (r : Request) state, r.Proper (answer r state).1)
    {state : σ} {made : Request × σ} (hmem : made ∈ routine.trace answer state) : allowed made.1 := by
  induction routine generalizing state with
  | done value => exact absurd hmem List.not_mem_nil
  | ask r next ih =>
    rcases List.mem_cons.1 hmem with rfl | hmem
    · exact h.1
    · exact ih _ (h.2 _ (hproper r state)) hmem

end Routine

open Routine (asks_request_bind)

theorem Machine.proper_answer {supply : Supply} (hsupply : ∀ draw, IsSuffix (supply.suffix draw))
    (programs : Programs) (r : Request) (machine : Machine) : r.Proper (answer supply programs r machine).1 := by
  cases r with
  | randomSuffix => exact hsupply machine.drawn
  | removals path =>
    intro steps hsteps step hstep
    change machine.tree.removals machine.directory path = .ok steps at hsteps
    rw [Tree.removals] at hsteps
    cases hseek : machine.tree.seek machine.directory path false with
    | error fault => simp [hseek, bind, Except.bind] at hsteps
    | ok spot =>
      rw [hseek] at hsteps
      rcases spot with ⟨place, entry⟩ | ⟨dir, name⟩
      · cases entry with
        | file content => cases hsteps
        | directory =>
          obtain rfl := Except.ok.inj hsteps
          obtain ⟨below, -, rfl⟩ := List.mem_map.1 hstep
          dsimp only
          split_ifs <;> rfl
        | link target =>
          obtain rfl := Except.ok.inj hsteps
          rw [List.mem_singleton.1 hstep]
          rfl
      · cases hsteps
  | _ => trivial

namespace Lock

variable {lock : Lock} {claimant : Claimant} {base path : Path}

/-- A path that a claimant gets to from the directory for staging. -/
def StagesFrom (lock : Lock) (claimant : Claimant) (base : Path) : Prop :=
  base = lock.scratchDir claimant ∨ ∃ here : Path, base = here.join (lock.scratchDir claimant)

/-- The path is that of an entry of the handle, or of a file of a claim inside one. -/
def Covers (lock : Lock) (claimant : Claimant) (path : Path) : Prop :=
  ∃ base dir, lock.StagesFrom claimant base ∧ lock.WorksIn base dir ∧
    (path = dir ∨ path = dir.join heldName ∨ path = dir.join holderName)

/-- The request changes nothing that is not the handle's. -/
def KeepsTo (lock : Lock) (claimant : Claimant) (r : Request) : Prop :=
  ∀ path, r.ChangesAt path → lock.Covers claimant path

/-- The path is that of a staging directory of the handle. -/
def IsStaged (lock : Lock) (claimant : Claimant) (staging : Path) : Prop :=
  ∃ base suffix, lock.StagesFrom claimant base ∧ IsSuffix suffix ∧ staging = base.join (lock.stagingName suffix)

theorem IsStaged.covers {staging : Path} (h : lock.IsStaged claimant staging) :
    lock.Covers claimant staging ∧ lock.Covers claimant (staging.join heldName) ∧
      lock.Covers claimant (staging.join holderName) := by
  obtain ⟨base, suffix, hbase, hsuffix, rfl⟩ := h
  have hworks : lock.WorksIn base (base.join (lock.stagingName suffix)) := .staging hsuffix
  exact ⟨⟨_, _, hbase, hworks, .inl rfl⟩, ⟨_, _, hbase, hworks, .inr (.inl rfl)⟩,
    ⟨_, _, hbase, hworks, .inr (.inr rfl)⟩⟩

theorem covers_claimDir (lock : Lock) (claimant : Claimant) : lock.Covers claimant lock.claimDir :=
  ⟨_, _, .inl rfl, .claim, .inl rfl⟩

theorem covers_releasedDir (lock : Lock) (claimant : Claimant) : lock.Covers claimant lock.releasedDir :=
  ⟨_, _, .inl rfl, .released, .inl rfl⟩

theorem keepsTo_of_one {r : Request} {path : Path} (h : lock.Covers claimant path)
    (hone : ∀ at_, r.ChangesAt at_ → at_ = path) : lock.KeepsTo claimant r := by
  intro at_ hchanges
  rw [hone at_ hchanges]
  exact h

theorem keepsTo_of_none {r : Request} (hnone : ∀ at_, ¬ r.ChangesAt at_) : lock.KeepsTo claimant r :=
  fun at_ hchanges => absurd hchanges (hnone at_)

theorem keepsTo_rename {source target : Path} (hsource : lock.Covers claimant source)
    (htarget : lock.Covers claimant target) : lock.KeepsTo claimant (.rename source target) := by
  rintro at_ (rfl | rfl)
  · exact hsource
  · exact htarget

theorem asks_note {event : Log.Event} {α : Type} {f : Unit → Routine α} {post : α → Prop}
    (h : (f ()).Asks (lock.KeepsTo claimant) post) : (Routine.note event >>= f).Asks (lock.KeepsTo claimant) post :=
  asks_request_bind (keepsTo_of_none fun _ => id) fun _ _ => h

theorem asks_removeTree (h : lock.Covers claimant path) :
    (Routine.removeTree path).Asks (lock.KeepsTo claimant) fun _ => True := by
  have heach : ∀ steps : List Removal, (∀ step ∈ steps, step.path = path) →
      (Routine.removeEach steps).Asks (lock.KeepsTo claimant) fun _ => True := by
    intro steps hsteps
    induction steps with
    | nil => trivial
    | cons step rest ih =>
      have hstep := hsteps step List.mem_cons_self
      refine asks_request_bind (keepsTo_of_one h fun at_ hat => hat.trans hstep) fun reply _ => ?_
      rcases reply with fault | _
      · trivial
      · exact ih fun other hmem => hsteps other (List.mem_cons_of_mem _ hmem)
  refine asks_request_bind (keepsTo_of_none fun _ => id) fun reply hreply => ?_
  rcases reply with fault | steps
  · trivial
  · exact heach steps (hreply steps rfl)

theorem asks_makeStaging (hbase : lock.StagesFrom claimant base) (tries : Nat) :
    (lock.makeStaging base tries).Asks (lock.KeepsTo claimant) fun result =>
      ∀ staging, result = .ok staging → lock.IsStaged claimant staging := by
  induction tries with
  | zero => exact nofun
  | succ tries ih =>
    refine asks_request_bind (keepsTo_of_none fun _ => id) fun suffix hsuffix => ?_
    have hstaged : lock.IsStaged claimant (base.join (lock.stagingName suffix)) :=
      ⟨base, suffix, hbase, hsuffix, rfl⟩
    refine asks_request_bind (keepsTo_of_one hstaged.covers.1 fun _ => id) fun reply _ => ?_
    rcases reply with fault | _
    · dsimp only
      split_ifs
      · exact ih
      · exact nofun
    · intro staging hok
      obtain rfl := Except.ok.inj hok
      exact hstaged

theorem asks_fillStaging {staging : Path} (h : lock.IsStaged claimant staging) :
    (lock.fillStaging claimant staging).Asks (lock.KeepsTo claimant) fun _ => True := by
  obtain ⟨-, hheld, hholder⟩ := h.covers
  refine asks_request_bind (keepsTo_of_one hheld fun _ => id) fun reply _ => ?_
  rcases reply with fault | _
  · trivial
  · refine asks_request_bind (keepsTo_of_none fun _ => id) fun now _ => ?_
    refine asks_request_bind (keepsTo_of_one hholder fun _ => id) fun reply _ => ?_
    rcases reply with fault | _ <;> trivial

theorem asks_absolute :
    (absolute (lock.scratchDir claimant)).Asks (lock.KeepsTo claimant) (lock.StagesFrom claimant) := by
  unfold absolute
  split_ifs
  · exact .inl rfl
  · exact asks_request_bind (keepsTo_of_none fun _ => id) fun here _ => .inr ⟨here, rfl⟩

theorem asks_stage : (lock.stage claimant).Asks (lock.KeepsTo claimant) fun result =>
    ∀ staging, result = .ok staging → lock.IsStaged claimant staging := by
  refine asks_absolute.bind fun base hbase => (asks_makeStaging hbase _).bind fun result hresult => ?_
  rcases result with fault | staging
  · exact nofun
  · have hstaged := hresult staging rfl
    refine (asks_fillStaging hstaged).bind fun result _ => ?_
    rcases result with error | _
    · exact (asks_removeTree hstaged.covers.1).bind fun _ _ => nofun
    · intro other hok
      obtain rfl := Except.ok.inj hok
      exact hstaged

theorem asks_discard {staging : Path} (h : lock.IsStaged claimant staging) :
    (discard staging).Asks (lock.KeepsTo claimant) fun _ => True := by
  refine (asks_removeTree h.covers.1).bind fun result _ => ?_
  rcases result with fault | _
  · exact asks_note (f := pure) trivial
  · trivial

theorem asks_putInPlace {staging : Path} (h : lock.IsStaged claimant staging) :
    (lock.putInPlace staging).Asks (lock.KeepsTo claimant) fun _ => True := by
  refine asks_request_bind (keepsTo_rename h.covers.1 (lock.covers_claimDir claimant)) fun reply _ => ?_
  rcases reply with fault | _
  · dsimp only
    split_ifs
    · exact asks_note ((asks_discard h).bind fun _ _ => trivial)
    · exact (asks_discard h).bind fun _ _ => trivial
  · exact asks_note trivial

theorem asks_tryClaim (lock : Lock) (claimant : Claimant) :
    (lock.tryClaim claimant).Asks (lock.KeepsTo claimant) fun _ => True := by
  have hlook : lock.isLocked.Asks (lock.KeepsTo claimant) fun _ => True := by
    refine asks_request_bind (keepsTo_of_none fun _ => id) fun reply _ => ?_
    rcases reply with fault | kind
    · dsimp only
      split_ifs <;> trivial
    · trivial
  refine hlook.bind fun locked _ => ?_
  rcases locked with error | (_ | _)
  · trivial
  · refine asks_stage.bind fun result hresult => ?_
    rcases result with error | staging
    · trivial
    · exact asks_putInPlace (hresult staging rfl)
  · exact asks_note trivial

theorem asks_unlock (lock : Lock) (claimant : Claimant) :
    lock.unlock.Asks (lock.KeepsTo claimant) fun _ => True := by
  have hheld : lock.isHeld.Asks (lock.KeepsTo claimant) fun _ => True := by
    refine asks_request_bind (keepsTo_of_none fun _ => id) fun reply _ => ?_
    rcases reply with fault | content <;> trivial
  refine hheld.bind fun held _ => ?_
  split_ifs
  · have hmove := keepsTo_rename (lock.covers_claimDir claimant) (lock.covers_releasedDir claimant)
    refine asks_request_bind hmove fun reply _ => ?_
    rcases reply with fault | _
    · trivial
    · refine asks_note ((asks_removeTree (lock.covers_releasedDir claimant)).bind fun result _ => ?_)
      rcases result with fault | _ <;> trivial
  · trivial

/-- Bytes can be read back from their hexadecimal text, which has two digits for each. So entries have different
names unless they are the same entry; the names are those of the directories that handles make, and no path of one
entry, below whatever directory, is a path of another. All that an attempt or a release changes is an entry of its
handle or in one, and handles with different nonces have no entry in common but the claim of their lock. -/
theorem entries_never_collide :
    (∀ bytes : List UInt8, (hexBytes bytes).length = 2 * bytes.length ∧
      ∀ c ∈ hexBytes bytes, c ∈ "0123456789abcdef".toList) ∧
    Function.Injective hexBytes ∧ Function.Injective LockEntry.name ∧
    (∀ lock : Lock, lock.claimDir = (LockEntry.claim lock.name).pathIn lock.parent ∧
      lock.releasedDir = (LockEntry.released lock.nonce).pathIn lock.parent ∧
      ∀ (base : Path) {suffix : List Char} (h : IsSuffix suffix),
        base.join (lock.stagingName suffix) = (LockEntry.staging lock.nonce suffix h).pathIn base) ∧
    (∀ (entry other : LockEntry) (base base' : Path), entry.pathIn base = other.pathIn base' → entry = other) ∧
    (∀ {σ : Type} (answer : (r : Request) → σ → r.Reply × σ), (∀ (r : Request) state, r.Proper (answer r state).1) →
      ∀ (lock : Lock) (claimant : Claimant) (state : σ),
        (∀ made ∈ (lock.tryClaim claimant).trace answer state, lock.KeepsTo claimant made.1) ∧
        ∀ made ∈ lock.unlock.trace answer state, lock.KeepsTo claimant made.1) ∧
    ∀ lock other : Lock, lock.nonce ≠ other.nonce → lock.Apart other := by
  refine ⟨fun bytes => ⟨Text.length_hexBytes bytes, fun c => Text.mem_hexBytes⟩, fun a b => Text.hexBytes_injective,
    LockEntry.name_injective, fun lock => ?_, fun entry other base base' => LockEntry.eq_of_pathIn, ?_,
    fun lock other => apart_of_nonce_ne⟩
  · exact ⟨lock.claimDir_eq_pathIn, lock.releasedDir_eq_pathIn, fun base _ => lock.join_stagingName_eq_pathIn base⟩
  · intro σ answer hproper lock claimant state
    constructor
    · exact fun made => (lock.asks_tryClaim claimant).of_mem_trace hproper
    · exact fun made => (lock.asks_unlock claimant).of_mem_trace hproper

end Lock

namespace Site

/-- Two handles that stage their claims in the directory of their lock: what one has staged stands there under
another name than what the other has moved aside, and on a machine the one keeps to its own entries. -/
theorem pair_never_collides :
    (pairLock false).config.scratch = some (pairLock true).parent ∧
    (∃ name name',
      pair.ground.Names [] ((pair.base false).join ((pairLock false).stagingName "xxxxxx".toList)) [] name ∧
      pair.ground.Names [] (pairLock true).releasedDir [] name' ∧ name ≠ name') ∧
    ∀ made ∈ ((pairLock false).tryClaim (pair.claimant false)).trace (Machine.answer pair.supply noPrograms)
      (.ofTree .empty [] ⟨0, 0⟩), (pairLock false).KeepsTo (pair.claimant false) made.1 := by
  obtain ⟨-, -, -, -, -, hkeeps, hapart⟩ := Lock.entries_never_collide
  have hsuffix : IsSuffix "xxxxxx".toList := ⟨by decide, Text.forall_of_all (by decide)⟩
  have hstaged := (pair.works_staging false hsuffix).names
  have hreleased := (pair.works_released true).names
  refine ⟨rfl, ⟨_, _, hstaged, hreleased, fun hsame => ?_⟩, ?_⟩
  · have hnonce : (pairLock false).nonce ≠ (pairLock true).nonce := by decide
    have hreleases : (pairLock true).WorksIn (pair.base true) (pairLock true).releasedDir := .released
    obtain ⟨-, hclaim, -⟩ := hapart _ _ hnonce (.staging hsuffix) hreleases (hsame ▸ hstaged) hreleased
    exact absurd hclaim (by decide)
  · exact (hkeeps _ (Machine.proper_answer pair.suffix_spec noPrograms) (pairLock false) (pair.claimant false) _).1

end Site

end DirLock
