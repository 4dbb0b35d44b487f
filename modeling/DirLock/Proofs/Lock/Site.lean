import DirLock.Lock.Staging
import DirLock.Machine
import DirLock.Proofs.Disk.Plot
import DirLock.Proofs.Lock.Naming

/-!
# Sites

A site is one lock that several parties share: the parent directory and the name of the lock, a
handle for each party, and the part of the tree that nobody touches, the ground. Every party spells
the way to the parent as it likes, works from a directory of its own and stages its claims where it
likes, in a directory of the ground.

The claim's place and the places of the parties' staging directories and released claims are plots of
the ground. No two of them are the same, so whatever the parties do on their own plots meets only at
the claim's place.
-/

namespace DirLock

open Disk (Tree Place Path Name Entry)
open Disk.Tree (filesView noView Within Names Fits Plot)

/-- The scratch directory as an absolute path, for a claimant whose current directory is `cwd`. -/
def Lock.base (lock : Lock) (claimant : Claimant) (cwd : Place) : Path :=
  let scratch := lock.scratchDir claimant
  if scratch.isAbsolute then scratch else cwd.path.join scratch

/-- The paths of the directories that a handle makes, moves and removes. -/
inductive Lock.WorksIn (lock : Lock) (base : Path) : Path → Prop
  | claim : lock.WorksIn base lock.claimDir
  | released : lock.WorksIn base lock.releasedDir
  | staging {suffix : List Char} : IsSuffix suffix →
    lock.WorksIn base (base.join (lock.stagingName suffix))

theorem Lock.heldName_eq : Lock.heldName = ⟨heldBytes⟩ := rfl

theorem Lock.holderName_eq : Lock.holderName = ⟨holderBytes⟩ := rfl

theorem Disk.Path.check_join_of_short {base : Path} {name : Name} (h : Path.IsName name)
    (hzero : 0 ∉ base.bytes) (hlen : base.bytes.length + name.length + 11 < Path.lengthLimit) :
    (base.join ⟨name⟩).check = .ok () ∧ ((base.join ⟨name⟩).join Lock.heldName).check = .ok () ∧
      ((base.join ⟨name⟩).join Lock.holderName).check = .ok () := by
  have hdir := Path.length_join_le h base
  have hdirzero := Path.zero_not_mem_join h hzero
  have hfile : ∀ {file : Name}, Path.IsName file → file.length ≤ 9 →
      ((base.join ⟨name⟩).join ⟨file⟩).check = .ok () := by
    intro file hfile hshort
    have hjoin := Path.length_join_le hfile (base.join ⟨name⟩)
    exact Path.check_of_short (Path.bytes_join_ne_nil hfile _) (Path.zero_not_mem_join hfile hdirzero)
      (by omega)
  refine ⟨Path.check_of_short (Path.bytes_join_ne_nil h base) hdirzero (by omega), ?_, ?_⟩
  · rw [Lock.heldName_eq]
    exact hfile isName_heldBytes (by decide)
  · rw [Lock.holderName_eq]
    exact hfile isName_holderBytes (by decide)

theorem Lock.WorksIn.check_of_short {lock : Lock} {base path : Path} (h : lock.WorksIn base path)
    (hname : lock.name.bytes.length ≤ Path.longestName)
    (hparent : 0 ∉ lock.parent.bytes ∧ lock.parent.bytes.length < 3800)
    (hbase : 0 ∉ base.bytes ∧ base.bytes.length < 3800) :
    path.check = .ok () ∧ (path.join Lock.heldName).check = .ok () ∧
      (path.join Lock.holderName).check = .ok () := by
  unfold Path.longestName at hname
  cases h with
  | claim =>
    rw [Lock.claimDir_eq]
    apply Path.check_join_of_short lock.name.isName hparent.1
    unfold Path.lengthLimit
    omega
  | released =>
    rw [Lock.releasedDir_eq]
    apply Path.check_join_of_short lock.nonce.isName_releasedName hparent.1
    rw [Nonce.length_releasedName]
    unfold Path.lengthLimit
    omega
  | staging hsuffix =>
    rw [Lock.stagingName_eq]
    apply Path.check_join_of_short (lock.nonce.isName_stagingName hsuffix) hbase.1
    rw [Nonce.length_stagingName _ hsuffix]
    unfold Path.lengthLimit
    omega

/-- The two files of a claim that a handle stages at this time. -/
def Lock.claimFiles (lock : Lock) (claimant : Claimant) (now : Time.Instant) :
    List (Name × List UInt8) :=
  [(heldBytes, lock.nonce.bytes),
    (holderBytes, Text.utf8Encode (Holder.ofClaimant claimant now).render)]

structure Site (ι : Type) where
  lock : ι → Lock
  claimant : ι → Claimant
  /-- The current directory of each party. -/
  directory : ι → Place
  supply : Supply
  /-- What stands in the tree from beginning to end. -/
  ground : Tree
  name : LockName
  parent : Place
  scratch : ι → Place
  /-- Whether requests may fail for reasons that are not in the tree. -/
  faulty : Prop
  /-- Whether claims are also removed by hand. -/
  cleared : Prop
  name_eq : ∀ i, (lock i).name = name
  nonce_injective : ∀ {i j}, (lock i).nonce = (lock j).nonce → i = j
  suffix_spec : ∀ n, IsSuffix (supply.suffix n)
  sound : ground.Sound
  directory_spec : ∀ i, ground.get? (directory i) = some .directory
  parent_spec : ∀ i, ground.LeadsTo (directory i) (lock i).parent parent
  scratch_spec : ∀ i,
    ground.LeadsTo (directory i) ((lock i).base (claimant i) (directory i)) (scratch i)
  claim_free : ground.get? (parent ++ [name.bytes]) = none
  released_free : ∀ i, ground.get? (parent ++ [(lock i).nonce.releasedName]) = none
  staging_free : ∀ i {suffix}, IsSuffix suffix →
    ground.get? (scratch i ++ [(lock i).nonce.stagingName suffix]) = none
  /-- Without faults of their own, requests take the paths that are used. -/
  takes : ¬ faulty → name.bytes.length ≤ Path.longestName ∧
    ∀ i path, (lock i).WorksIn ((lock i).base (claimant i) (directory i)) path →
      path.check = .ok () ∧ (path.join Lock.heldName).check = .ok () ∧
        (path.join Lock.holderName).check = .ok ()

namespace Site

variable {ι : Type} (s : Site ι)

/-! ## Places -/

def claim : Place := s.parent ++ [s.name.bytes]

/-- The absolute path of the scratch directory of a party. -/
def base (i : ι) : Path := (s.lock i).base (s.claimant i) (s.directory i)

inductive Own (s : Site ι) (i : ι) : Place → Prop
  | released : s.Own i (s.parent ++ [(s.lock i).nonce.releasedName])
  | staging {suffix : List Char} : IsSuffix suffix →
    s.Own i (s.scratch i ++ [(s.lock i).nonce.stagingName suffix])

theorem parent_get? (i : ι) : s.ground.get? s.parent = some .directory := by
  obtain ⟨left, hleads⟩ := (s.parent_spec i).leads
  refine hleads.get?_eq s.sound ?_
  unfold Path.start
  split_ifs
  · rfl
  · exact s.directory_spec i

theorem scratch_get? (i : ι) : s.ground.get? (s.scratch i) = some .directory := by
  obtain ⟨left, hleads⟩ := (s.scratch_spec i).leads
  refine hleads.get?_eq s.sound ?_
  unfold Path.start
  split_ifs
  · rfl
  · exact s.directory_spec i

theorem plot_concat {dir : Place} {name : Name} (hdir : s.ground.get? dir = some .directory)
    (hfree : s.ground.get? (dir ++ [name]) = none) : s.ground.Plot (dir ++ [name]) :=
  ⟨by simp, by rwa [List.dropLast_concat], hfree⟩

theorem plot_claim (i : ι) : s.ground.Plot s.claim := s.plot_concat (s.parent_get? i) s.claim_free

variable {s}

theorem Own.plot {i : ι} {place : Place} (h : s.Own i place) : s.ground.Plot place := by
  cases h with
  | released => exact s.plot_concat (s.parent_get? i) (s.released_free i)
  | staging hsuffix => exact s.plot_concat (s.scratch_get? i) (s.staging_free i hsuffix)

theorem Own.ne_claim {i : ι} {place : Place} (h : s.Own i place) : place ≠ s.claim := by
  cases h with
  | released =>
    intro heq
    exact s.name.bytes_ne_releasedName (s.lock i).nonce
      (List.cons.inj (List.append_inj' heq rfl).2).1.symm
  | staging hsuffix =>
    intro heq
    exact s.name.bytes_ne_stagingName (s.lock i).nonce hsuffix
      (List.cons.inj (List.append_inj' heq rfl).2).1.symm

theorem Own.unique {i j : ι} {place : Place} (h : s.Own i place) (h' : s.Own j place) : i = j := by
  apply s.nonce_injective
  generalize hplace : place = other at h'
  cases h with
  | released =>
    cases h' with
    | released =>
      exact Nonce.releasedName_injective (List.cons.inj (List.append_inj' hplace rfl).2).1
    | staging hsuffix =>
      exact absurd (List.cons.inj (List.append_inj' hplace rfl).2).1
        (Nonce.releasedName_ne_stagingName _ _ hsuffix)
  | staging hsuffix =>
    cases h' with
    | released =>
      exact absurd (List.cons.inj (List.append_inj' hplace rfl).2).1.symm
        (Nonce.releasedName_ne_stagingName _ _ hsuffix)
    | staging hsuffix' =>
      exact Nonce.stagingName_injective hsuffix hsuffix'
        (List.cons.inj (List.append_inj' hplace rfl).2).1

/-! ## Paths -/

/-- The path is that of a directory that the party makes, moves and removes. -/
structure Works (s : Site ι) (i : ι) (path : Path) (dir : Place) (name : Name) : Prop where
  names : s.ground.Names (s.directory i) path dir name
  fits : ¬ s.faulty → Fits path name
  held_fits : ¬ s.faulty → Fits (path.join Lock.heldName) heldBytes
  holder_fits : ¬ s.faulty → Fits (path.join Lock.holderName) holderBytes

variable (s)

theorem works_claim (i : ι) : s.Works i (s.lock i).claimDir s.parent s.name.bytes := by
  have htakes := fun h => (s.takes h).2 i (s.lock i).claimDir .claim
  refine ⟨?_, fun h => ⟨(htakes h).1, (s.takes h).1⟩, fun h => ⟨(htakes h).2.1, by decide⟩,
    fun h => ⟨(htakes h).2.2, by decide⟩⟩
  have hnames := (s.parent_spec i).names_join (s.lock i).name.isName
  rwa [← Lock.claimDir_eq, s.name_eq i] at hnames

theorem works_released (i : ι) :
    s.Works i (s.lock i).releasedDir s.parent (s.lock i).nonce.releasedName := by
  have htakes := fun h => (s.takes h).2 i (s.lock i).releasedDir .released
  refine ⟨?_, fun h => ⟨(htakes h).1, ?_⟩, fun h => ⟨(htakes h).2.1, by decide⟩,
    fun h => ⟨(htakes h).2.2, by decide⟩⟩
  · rw [Lock.releasedDir_eq]
    exact (s.parent_spec i).names_join (s.lock i).nonce.isName_releasedName
  · rw [Nonce.length_releasedName]
    decide

theorem works_staging (i : ι) {suffix : List Char} (hsuffix : IsSuffix suffix) :
    s.Works i ((s.base i).join ((s.lock i).stagingName suffix)) (s.scratch i)
      ((s.lock i).nonce.stagingName suffix) := by
  have htakes := fun h => (s.takes h).2 i _ (.staging hsuffix)
  refine ⟨?_, fun h => ⟨(htakes h).1, ?_⟩, fun h => ⟨(htakes h).2.1, by decide⟩,
    fun h => ⟨(htakes h).2.2, by decide⟩⟩
  · rw [Lock.stagingName_eq]
    exact (s.scratch_spec i).names_join ((s.lock i).nonce.isName_stagingName hsuffix)
  · rw [Nonce.length_stagingName _ hsuffix]
    decide

/-! ## States of the lock -/

/-- The two files of a claim that a party staged at this time. -/
def claimFiles (i : ι) (now : Time.Instant) : List (Name × List UInt8) :=
  [(heldBytes, (s.lock i).nonce.bytes),
    (holderBytes, Text.utf8Encode (Holder.ofClaimant (s.claimant i) now).render)]

/-- Nobody owns the lock and nothing stands at the claim's place, or a party owns it and the claim's
place holds the two files of a claim of this party and nothing else. -/
def IsOwned (tree : Tree) : Option ι → Prop
  | none => tree.below s.claim = noView
  | some i => ∃ now, tree.below s.claim = filesView (s.claimFiles i now)

/-- The tree is one that the parties can make. -/
structure Good (tree : Tree) : Prop where
  sound : tree.Sound
  /-- Off the plots the tree is the ground. -/
  frame : ∀ q, ¬ s.claim <+: q → (∀ i place, s.Own i place → ¬ place <+: q) →
    tree.get? q = s.ground.get? q
  owned : ∃ owner, s.IsOwned tree owner

variable {s} {tree : Tree}

theorem isOwned_unique {owner owner' : Option ι} (h : s.IsOwned tree owner)
    (h' : s.IsOwned tree owner') : owner = owner' := by
  have hview : ∀ {i now}, filesView (s.claimFiles i now) ≠ noView := fun heq => by
    simpa [filesView, noView] using congrFun heq []
  cases owner with
  | none =>
    cases owner' with
    | none => rfl
    | some j =>
      obtain ⟨now, h'⟩ := h'
      exact absurd (h'.symm.trans h) hview
  | some i =>
    obtain ⟨now, h⟩ := h
    cases owner' with
    | none => exact absurd (h.symm.trans h') hview
    | some j =>
      obtain ⟨now', h'⟩ := h'
      have hheld := congrFun (h.symm.trans h') [heldBytes]
      simp only [filesView, claimFiles, List.lookup_cons_self, Option.map_some, Option.some.injEq,
        Entry.file.injEq] at hheld
      exact congrArg some (s.nonce_injective (Nonce.eq_of_bytes hheld))

theorem Good.within (h : s.Good tree) (i : ι) : s.ground.Within tree := by
  intro q entry hget
  rw [h.frame q ((s.plot_claim i).not_prefix_of_get? s.sound hget)
    fun j place hown => hown.plot.not_prefix_of_get? s.sound hget, hget]

theorem Works.names_of_good {i : ι} {path : Path} {dir : Place} {name : Name}
    (hw : s.Works i path dir name) (h : s.Good tree) : tree.Names (s.directory i) path dir name :=
  hw.names.mono (h.within i)

/-! ## Two parties at the root -/

/-- The handle of a party for the lock `a` in the root directory, where its claims are staged too. -/
def pairLock (i : Bool) : Lock where
  name := ⟨"a", by decide⟩
  parent := .ofString "/"
  nonce := ⟨List.replicate 20 (if i then 1 else 0), List.length_replicate ..⟩
  config := { Config.default with scratch := some (.ofString "/") }

def noPrograms : Machine.Programs := fun _ _ => pure (.error (.os 2))

/-- Two parties that share a lock in a tree with nothing in it. -/
def pair : Site Bool where
  lock := pairLock
  claimant i := ⟨some "user", none, "host", if i then 1 else 0, none⟩
  directory _ := []
  supply := { Supply.counting with suffix := fun _ => List.replicate 6 'x' }
  ground := .empty
  name := ⟨"a", by decide⟩
  parent := []
  scratch _ := []
  faulty := False
  cleared := False
  name_eq _ := rfl
  nonce_injective {i j} := by
    revert i j
    decide
  suffix_spec _ := ⟨rfl, by simp⟩
  sound := .empty
  directory_spec _ := rfl
  parent_spec i := by
    rw [Tree.LeadsTo]
    cases i
    · decide
    · decide
  scratch_spec i := by
    rw [Tree.LeadsTo]
    cases i
    · decide
    · decide
  claim_free := rfl
  released_free _ := rfl
  staging_free _ := fun _ => rfl
  takes _ := by
    refine ⟨by decide, fun i path hworks => hworks.check_of_short ?_ ?_ ?_⟩
    · cases i <;> decide
    · cases i <;> decide
    · cases i <;> decide

end Site

end DirLock
