import DirLock.Lock.Opening
import DirLock.Proofs.Lock.Draft

/-!
# Opening

What opening a lock does to the tree when nobody interrupts it: directories are made where nothing stood,
and nothing else changes. If it succeeds, the path of the lock's parent leads to a directory.
-/

namespace DirLock

open Disk (Tree Place Path Name Entry EntryKind Fault)
open Disk.Tree (Within Leads LeadsTo)
open Routine (Yields)

/-- The second tree is the first one with more directories. -/
def Disk.Tree.AddsDirectories (tree after : Tree) : Prop :=
  ∀ q, after.get? q = tree.get? q ∨ (tree.get? q = none ∧ after.get? q = some .directory)

/-- The machine works in this directory, on a sound tree that is the other one with more directories. -/
structure Machine.Adds (machine : Machine) (cwd : Place) (ground : Tree) : Prop where
  directory : machine.directory = cwd
  sound : machine.tree.Sound
  adds : ground.AddsDirectories machine.tree

namespace Disk.Tree

variable {tree after last : Tree} {cwd place : Place} {path : Path}

theorem AddsDirectories.refl (tree : Tree) : tree.AddsDirectories tree := fun _ => .inl rfl

theorem AddsDirectories.trans (h : tree.AddsDirectories after) (h' : after.AddsDirectories last) :
    tree.AddsDirectories last := by
  intro q
  rcases h q with heq | ⟨hnone, hdir⟩
  · rw [← heq]
    exact h' q
  · rcases h' q with heq | ⟨hnone', -⟩
    · exact .inr ⟨hnone, heq.trans hdir⟩
    · rw [hdir] at hnone'
      cases hnone'

theorem AddsDirectories.within (h : tree.AddsDirectories after) : tree.Within after := by
  intro q entry hget
  rcases h q with heq | ⟨hnone, -⟩
  · rw [heq, hget]
  · rw [hnone] at hget
    cases hget

theorem adds_of_makeDirectory (hsound : tree.Sound) (hcwd : tree.get? cwd = some .directory)
    (hmade : tree.makeDirectory cwd path = .ok after) :
    after.Sound ∧ tree.AddsDirectories after ∧ ∃ place, after.LeadsTo cwd path place := by
  obtain ⟨dir, name, hseek, hshort, hfree, rfl⟩ := makeDirectory_eq_ok hmade
  obtain ⟨-, hlast, left, hleads⟩ := seekParent_eq_ok hseek
  obtain ⟨hnames, hdot, hup⟩ := lastName_eq_name hlast.symm
  have hdir := hleads.get?_eq hsound (get?_start hcwd path)
  have hadds : tree.AddsDirectories (tree.insert (dir ++ [name]) .directory) := by
    intro q
    rw [get?_insert (by simp)]
    split_ifs with heq
    · exact .inr ⟨heq ▸ hfree, rfl⟩
    · exact .inl rfl
  refine ⟨hsound.insert (by simp) (by rwa [List.dropLast_concat]) (.inl rfl), hadds, dir ++ [name], ?_⟩
  have hmade : (tree.insert (dir ++ [name]) .directory).get? (dir ++ [name]) = some .directory := by
    rw [get?_insert (by simp), if_pos rfl]
  have hway := (hleads.mono hadds.within).append (.into hdot hup hshort hmade (.nil _ _))
  rw [← hnames] at hway
  exact hway.leadsTo

theorem leadsTo_of_isDirectory (h : tree.isDirectory cwd path = true) :
    ∃ place, tree.LeadsTo cwd path place := by
  rw [isDirectory] at h
  cases hkind : tree.targetKind cwd path with
  | error fault =>
    rw [hkind] at h
    cases h
  | ok kind =>
    rw [hkind] at h
    rw [targetKind] at hkind
    obtain ⟨spot, hseek, hkind⟩ := ok_of_bind hkind
    cases spot with
    | missing parent name => cases hkind
    | found place entry =>
      have hentry : entry = .directory := by
        cases entry with
        | directory => rfl
        | file content =>
          obtain rfl := Except.ok.inj hkind
          cases h
        | link target =>
          obtain rfl := Except.ok.inj hkind
          cases h
      rw [hentry] at hseek
      have hwalk := walk_of_seek hseek
      unfold Path.steps at hwalk
      split_ifs at hwalk
      · obtain ⟨left, other, hleads⟩ := leads_of_walk_append (by simp) hwalk
        exact ⟨other, hleads.leadsTo⟩
      · exact ⟨place, hwalk⟩

theorem isDirectory_of_leadsTo (h : tree.LeadsTo cwd path place) (hcheck : path.check = .ok ()) :
    tree.isDirectory cwd path = true := by
  have hsteps : tree.walk true Path.linkLimit (path.start cwd) path.steps = .ok (.found place .directory) := by
    obtain ⟨left, hleads⟩ := h.leads
    rw [Path.steps]
    split_ifs
    · rw [walk_append hleads (.inr rfl), walk_dot, walk_nil]
    · exact h
  rw [isDirectory, targetKind, seek, hcheck, hsteps]
  rfl

theorem dropIdle_eq_nil {pieces : List Name} (h : Path.dropIdle pieces = []) :
    ∀ piece ∈ pieces, piece = [] ∨ piece = Path.dot := by
  induction pieces with
  | nil => simp
  | cons piece pieces ih =>
    rw [Path.dropIdle] at h
    split_ifs at h with hidle
    intro other hmem
    rcases List.mem_cons.1 hmem with rfl | hmem
    · simp only [Bool.or_eq_true, Bool.and_eq_true, List.isEmpty_iff, beq_iff_eq] at hidle
      exact hidle.imp_right And.left
    · exact ih h other hmem

theorem walk_of_dots {links : Nat} {names : List Name} (hdots : ∀ name ∈ names, name = Path.dot) :
    tree.walk true links cwd names = .ok (.found cwd .directory) := by
  induction names with
  | nil => exact walk_nil _ _ _ _
  | cons name names ih =>
    rw [hdots name List.mem_cons_self, walk_dot]
    exact ih fun other hmem => hdots other (List.mem_cons_of_mem _ hmem)

theorem leadsTo_of_candidates_eq_nil (h : Routine.candidates path = []) :
    ∃ place, tree.LeadsTo cwd path place := by
  refine ⟨_, walk_of_dots fun name hmem => ?_⟩
  obtain ⟨hpiece, hne⟩ := List.mem_filter.1 hmem
  have hidle : path.bytes = [] ∨ Path.dropIdle (Path.pieces path.bytes).reverse = [] := by
    rw [Routine.candidates, Path.ancestors, List.takeWhile_cons] at h
    split_ifs at h with hmade
    simp only [Bool.and_eq_true, Bool.not_eq_true', not_and, Bool.not_eq_true] at hmade
    by_cases hempty : path.bytes = []
    · exact .inl hempty
    · right
      have hname := hmade (by simpa [Path.isEmpty] using hempty)
      rw [Path.hasName, Path.parent?] at hname
      split at hname
      · assumption
      · split at hname
        · cases hname
        · cases hname
  rcases hidle with hempty | hidle
  · rw [hempty] at hpiece
    simp only [Path.pieces, List.mem_singleton] at hpiece
    rw [hpiece] at hne
    cases hne
  · rcases dropIdle_eq_nil hidle name (List.mem_reverse.2 hpiece) with rfl | hdot
    · cases hne
    · exact hdot

end Disk.Tree

theorem text_of_validateName {text : String} {name : LockName} (h : validateName text = .ok name) :
    name.text = text := by
  unfold validateName LockName.ofString? at h
  split_ifs at h
  exact congrArg LockName.text (Except.ok.inj h).symm

/-! ## Making directories -/

variable {supply : Supply} {programs : Machine.Programs} {ground : Tree} {cwd : Place}
  {machine : Machine} {path : Path}

theorem Machine.IsAt.adds (h : machine.IsAt cwd ground) (hground : ground.Sound) :
    machine.Adds cwd ground := ⟨h.directory, h.tree ▸ hground, h.tree ▸ .refl ground⟩

theorem Machine.Adds.keeps (h : machine.Adds cwd ground) : machine.Keeps cwd ground :=
  ⟨h.directory, h.sound, h.adds.within⟩

theorem Machine.Adds.of_isAt {after : Machine} (h : machine.Adds cwd ground)
    (hat : after.IsAt cwd machine.tree) : after.Adds cwd ground :=
  ⟨hat.directory, hat.tree ▸ h.sound, hat.tree ▸ h.adds⟩

section Make

variable (hcwd : ground.get? cwd = some .directory)
include hcwd

theorem Machine.Adds.makeDirectory (h : machine.Adds cwd ground) {tree : Tree}
    (hmade : machine.tree.makeDirectory machine.directory path = .ok tree) :
    ({ machine with tree := tree } : Machine).Adds cwd ground ∧ ∃ place, tree.LeadsTo cwd path place := by
  rw [h.directory] at hmade
  obtain ⟨hsound, hadds, hway⟩ :=
    Tree.adds_of_makeDirectory h.sound (h.adds.within _ _ hcwd) hmade
  exact ⟨⟨h.directory, hsound, h.adds.trans hadds⟩, hway⟩

theorem yields_makeFirst (h : machine.Adds cwd ground) (paths : List Path) :
    Yields (Machine.answer supply programs) (Routine.makeFirst paths) machine
      fun result after => after.Adds cwd ground ∧
        ∀ path above missing, paths = path :: above → result = .ok missing →
          (missing = [] ∧ ∃ place, after.tree.LeadsTo cwd path place) ∨
            ∃ front, missing = front ++ [path] := by
  induction paths with
  | nil => exact ⟨h, fun _ _ _ heq => by cases heq⟩
  | cons path above ih =>
    rw [Routine.makeFirst]
    cases hmade : machine.tree.makeDirectory machine.directory path with
    | ok tree =>
      obtain ⟨hadds, hway⟩ := h.makeDirectory hcwd hmade
      refine yields_of_answer (change_ok hmade) ?_
      refine ⟨hadds, ?_⟩
      rintro _ _ _ ⟨rfl, rfl⟩ ⟨rfl⟩
      exact .inl ⟨rfl, hway⟩
    | error fault =>
      refine yields_of_answer (change_error hmade) ?_
      dsimp only
      split_ifs with hmissing hexists
      · refine ih.bind fun result after hresult => ⟨hresult.1, ?_⟩
        rintro _ _ missing ⟨rfl, rfl⟩ hok
        rcases result with fault | missing'
        · cases hok
        · obtain rfl := Except.ok.inj hok
          exact .inr ⟨missing', rfl⟩
      · cases hdir : machine.tree.isDirectory machine.directory path with
        | true =>
          refine yields_of_answer (congrArg (·, machine) hdir) ?_
          refine ⟨h, ?_⟩
          rintro _ _ _ ⟨rfl, rfl⟩ ⟨rfl⟩
          rw [h.directory] at hdir
          exact .inl ⟨rfl, Tree.leadsTo_of_isDirectory hdir⟩
        | false =>
          refine yields_of_answer (congrArg (·, machine) hdir) ?_
          exact ⟨h, fun _ _ _ _ hok => by cases hok⟩
      · exact ⟨h, fun _ _ _ _ hok => by cases hok⟩

theorem yields_makeEach (h : machine.Adds cwd ground) (paths : List Path) :
    Yields (Machine.answer supply programs) (Routine.makeEach paths) machine
      fun result after => after.Adds cwd ground ∧
        ∀ front path, paths = front ++ [path] → result = .ok () →
          ∃ place, after.tree.LeadsTo cwd path place := by
  induction paths generalizing machine with
  | nil => exact ⟨h, fun _ _ heq => by simp at heq⟩
  | cons path rest ih =>
    -- Whether the directory was made or was there, the rest is made after it; the path that counts is the
    -- last one, and that is this one only if there is no rest.
    have hgoes : ∀ machine : Machine, machine.Adds cwd ground →
        (∃ place, machine.tree.LeadsTo cwd path place) →
        Yields (Machine.answer supply programs) (Routine.makeEach rest) machine
          fun result after => after.Adds cwd ground ∧
            ∀ front last, path :: rest = front ++ [last] → result = .ok () →
              ∃ place, after.tree.LeadsTo cwd last place := by
      intro machine h hway
      cases rest with
      | nil =>
        refine ⟨h, fun front last heq _ => ?_⟩
        obtain rfl : path = last := by simpa using congrArg List.getLast? heq
        exact hway
      | cons next rest =>
        refine (ih h).mono fun result after hresult => ⟨hresult.1, fun front last heq hok => ?_⟩
        cases front with
        | nil => simp at heq
        | cons first front => exact hresult.2 front last (List.cons.inj heq).2 hok
    rw [Routine.makeEach]
    cases hmade : machine.tree.makeDirectory machine.directory path with
    | ok tree =>
      refine yields_of_answer (change_ok hmade) ?_
      obtain ⟨hadds, hway⟩ := h.makeDirectory hcwd hmade
      exact hgoes _ hadds hway
    | error fault =>
      refine yields_of_answer (change_error hmade) ?_
      dsimp only
      split_ifs
      · cases hdir : machine.tree.isDirectory machine.directory path with
        | true =>
          refine yields_of_answer (congrArg (·, machine) hdir) ?_
          rw [h.directory] at hdir
          exact hgoes machine h (Tree.leadsTo_of_isDirectory hdir)
        | false =>
          refine yields_of_answer (congrArg (·, machine) hdir) ?_
          exact ⟨h, fun _ _ _ hok => by cases hok⟩
      · exact ⟨h, fun _ _ _ hok => by cases hok⟩

theorem yields_makeDirectories (h : machine.Adds cwd ground) (path : Path) :
    Yields (Machine.answer supply programs) (Routine.makeDirectories path) machine
      fun result after => after.Adds cwd ground ∧
        (result = .ok () → ∃ place, after.tree.LeadsTo cwd path place) := by
  refine (yields_makeFirst hcwd h _).bind ?_
  rintro (fault | missing) after ⟨hadds, hfirst⟩
  · exact ⟨hadds, fun hok => by cases hok⟩
  have hself : after.Adds cwd after.tree := ⟨hadds.directory, hadds.sound, .refl _⟩
  refine (yields_makeEach (hadds.adds.within _ _ hcwd) hself missing).mono ?_
  rintro result last ⟨hmore, heach⟩
  refine ⟨⟨hmore.directory, hmore.sound, hadds.adds.trans hmore.adds⟩, fun hok => ?_⟩
  cases hcandidates : Routine.candidates path with
  | nil => exact Tree.leadsTo_of_candidates_eq_nil hcandidates
  | cons first above =>
    have hhead : first = path := by
      rw [Routine.candidates, Path.ancestors, List.takeWhile_cons] at hcandidates
      split_ifs at hcandidates
      exact (List.cons.inj hcandidates).1.symm
    rw [hhead] at hcandidates
    rcases hfirst path above missing hcandidates rfl with ⟨-, place, hway⟩ | ⟨front, rfl⟩
    · exact ⟨place, hway.mono hmore.adds.within⟩
    · exact heach front path rfl hok

/-- The handle is for this name in this directory, its nonce is the one that was drawn, and its settings
make sense. -/
structure Lock.Opened (lock : Lock) (parent : Path) (name : String) (drawn : Except String Nonce) : Prop where
  parent_eq : lock.parent = parent
  name_eq : lock.name.text = name
  nonce_eq : drawn = .ok lock.nonce
  valid : lock.config.validate = .ok ()

theorem yields_openIn (h : machine.Adds cwd ground) (parent : Path) (name : String) (config : Config) :
    Yields (Machine.answer supply programs) (Lock.openIn parent name config) machine
      fun result after => after.Adds cwd ground ∧ ∀ lock, result = .ok lock →
        lock.Opened parent name (supply.nonce machine.drawn) ∧
          ∃ place, after.tree.LeadsTo cwd lock.parent place := by
  unfold Lock.openIn
  cases hname : validateName name with
  | error error => exact ⟨h, fun _ hok => by cases hok⟩
  | ok lockName =>
    dsimp only
    cases hvalid : config.validate with
    | error error => exact ⟨h, fun _ hok => by cases hok⟩
    | ok _ =>
      let drawn : Machine := { machine with drawn := machine.drawn + 1 }
      have hdrawn : drawn.Adds cwd ground := ⟨h.directory, h.sound, h.adds⟩
      dsimp only
      cases hnonce : supply.nonce machine.drawn with
      | error reason =>
        refine yields_of_answer (congrArg (·, drawn) hnonce) ?_
        exact ⟨hdrawn, fun _ hok => by cases hok⟩
      | ok nonce =>
        refine yields_of_answer (congrArg (·, drawn) hnonce) ?_
        refine (yields_makeDirectories hcwd hdrawn parent).bind ?_
        rintro (fault | _) after ⟨hadds, hway⟩
        · exact ⟨hadds, fun _ hok => by cases hok⟩
        · refine ⟨⟨hadds.directory, hadds.sound, hadds.adds⟩, fun lock hok => ?_⟩
          obtain rfl := Except.ok.inj hok
          exact ⟨⟨rfl, text_of_validateName hname, rfl, hvalid⟩, hway rfl⟩

end Make

end DirLock
