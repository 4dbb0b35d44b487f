import DirLock.Proofs.Disk.Outcome
import DirLock.Proofs.Lock.Removal
import DirLock.Proofs.Lock.Stage

/-!
# Drafts of a claim

What the staging of a claim does when nobody interrupts it, from whatever tree it starts. Everything that
stood in the tree goes on standing there (`Machine.Keeps`): what is made, filled and removed again is a
directory at a place where nothing stood (`Draft`).
-/

namespace DirLock

open Disk (Tree Place Path Name Entry Fault)
open Disk.Tree (filesView noView ChangesOn Within Names Fits Plot)
open Routine (Yields yields_request)

/-- The machine works in this directory, on this tree. -/
structure Machine.IsAt (machine : Machine) (cwd : Place) (tree : Tree) : Prop where
  directory : machine.directory = cwd
  tree : machine.tree = tree

/-- The machine works in this directory, on a sound tree in which everything stands that stands in the
other one. -/
structure Machine.Keeps (machine : Machine) (cwd : Place) (ground : Tree) : Prop where
  directory : machine.directory = cwd
  sound : machine.tree.Sound
  within : ground.Within machine.tree

/-- A directory with these files and nothing else was made at a place where nothing stood, and nothing
else was changed. The path is one that names the place and that requests take. -/
structure Draft (ground : Tree) (cwd : Place) (path : Path) (dir : Place) (name : Name)
    (files : List (Name × List UInt8)) (machine : Machine) : Prop where
  names : ground.Names cwd path dir name
  fits : Fits path name
  ground_sound : ground.Sound
  plot : ground.Plot (dir ++ [name])
  directory : machine.directory = cwd
  sound : machine.tree.Sound
  changes : ChangesOn (dir ++ [name]) ground machine.tree
  below : machine.tree.below (dir ++ [name]) = filesView files

variable {supply : Supply} {programs : Machine.Programs} {α : Type} {ground : Tree} {cwd dir : Place}
  {path : Path} {name : Name} {files : List (Name × List UInt8)} {machine : Machine}

theorem within_of_changesOn {place : Place} {tree : Tree} (hground : ground.Sound)
    (hplot : ground.Plot place) (hchanges : ChangesOn place ground tree) : ground.Within tree := by
  intro q entry hget
  rw [hchanges q (hplot.not_prefix_of_get? hground hget), hget]

theorem Machine.IsAt.keeps (h : machine.IsAt cwd ground) (hground : ground.Sound) :
    machine.Keeps cwd ground := ⟨h.directory, h.tree ▸ hground, h.tree ▸ .refl ground⟩

theorem Machine.Keeps.trans {after : Machine} (h : machine.Keeps cwd ground)
    (h' : after.Keeps cwd machine.tree) : after.Keeps cwd ground :=
  ⟨h'.directory, h'.sound, h.within.trans h'.within⟩

/-- What filling a staging directory says. It fails where requests do not take the path of a file. -/
def Lock.fillResult (staging : Path) : Except LockError Unit :=
  match (staging.join ⟨heldBytes⟩).check, (staging.join ⟨holderBytes⟩).check with
  | .error fault, _ => .error (.io .writeHeld (staging.join heldName) fault)
  | .ok _, .error fault => .error (.io .writeHolder (staging.join holderName) fault)
  | .ok _, .ok _ => .ok ()

/-- The path as an absolute one, for whoever works in the directory. -/
def Disk.Path.absoluteFrom (path : Path) (cwd : Place) : Path :=
  if path.isAbsolute then path else cwd.path.join path

theorem Disk.Path.start_absoluteFrom (path : Path) (cwd : Place) :
    (path.absoluteFrom cwd).start cwd = [] := by
  suffices habsolute : (path.absoluteFrom cwd).isAbsolute = true by rw [start, if_pos habsolute]
  obtain ⟨rest, hrest⟩ : ∃ rest, cwd.path.bytes = slash :: rest := by
    cases cwd with
    | nil => exact ⟨[], rfl⟩
    | cons name cwd => exact ⟨_, rfl⟩
  unfold absoluteFrom
  split_ifs with hpath
  · exact hpath
  · rw [join, if_neg hpath, isAbsolute]
    split_ifs <;> simp [hrest]

namespace Draft

theorem within (h : Draft ground cwd path dir name files machine) : ground.Within machine.tree :=
  within_of_changesOn h.ground_sound h.plot h.changes

theorem keeps (h : Draft ground cwd path dir name files machine) : machine.Keeps cwd ground :=
  ⟨h.directory, h.sound, h.within⟩

theorem names_now (h : Draft ground cwd path dir name files machine) :
    machine.tree.Names machine.directory path dir name := by
  rw [h.directory]
  exact h.names.mono h.within

theorem change (h : Draft ground cwd path dir name files machine) {tree : Tree}
    {files' : List (Name × List UInt8)} (hbelow : tree.below (dir ++ [name]) = filesView files')
    (hsound : tree.Sound) (hchanges : ChangesOn (dir ++ [name]) machine.tree tree) :
    Draft ground cwd path dir name files' { machine with tree := tree } :=
  { h with
    sound := hsound
    below := hbelow
    changes := fun q hq => (hchanges q hq).trans (h.changes q hq) }

theorem congr (h : Draft ground cwd path dir name files machine) {after : Machine}
    (hdirectory : after.directory = machine.directory) (htree : after.tree = machine.tree) :
    Draft ground cwd path dir name files after :=
  { h with
    directory := hdirectory.trans h.directory
    sound := htree ▸ h.sound
    changes := htree ▸ h.changes
    below := htree ▸ h.below }

/-! ## Removing -/

theorem prune_eq (h : Draft ground cwd path dir name files machine) :
    machine.tree.prune (dir ++ [name]) = ground := by
  refine (h.sound.toOrdered.prune _).ext h.ground_sound.toOrdered fun q => ?_
  by_cases hq : q = []
  · simp [hq]
  · rw [Tree.get?_prune _ hq]
    split_ifs with hpre
    · rw [List.isPrefixOf_iff_prefix] at hpre
      obtain ⟨rest, rfl⟩ := hpre
      exact (congrFun (h.ground_sound.below_eq_none h.plot.free) rest).symm
    · rw [List.isPrefixOf_iff_prefix] at hpre
      exact h.changes q hpre

theorem yields_removeTree (h : Draft ground cwd path dir name files machine) :
    Yields (Machine.answer supply programs) (Routine.removeTree path) machine
      fun result after => result = .ok () ∧ after.IsAt cwd ground := by
  have hwithin : ground.Within (machine.tree.hollow (dir ++ [name])) := by
    intro q entry hget
    rw [Tree.get?_hollow (by simp) (h.plot.not_prefix_of_get? h.ground_sound hget)]
    exact h.within q entry hget
  have hnames : (machine.tree.hollow (dir ++ [name])).Names machine.directory path dir name := by
    rw [h.directory]
    exact h.names.mono hwithin
  refine (yields_removeTree_directory h.sound hnames h.fits (Tree.get?_of_below h.below)).mono ?_
  rintro result after ⟨rfl, rfl⟩
  exact ⟨rfl, h.directory, h.prune_eq⟩

/-! ## Making -/

theorem of_makeDirectory {base : Path} {tree : Tree} (hground : ground.Sound)
    (hstart : ground.get? (base.start cwd) = some .directory) (hname : Path.IsName name)
    (hat : machine.IsAt cwd ground)
    (hmade : machine.tree.makeDirectory machine.directory (base.join ⟨name⟩) = .ok tree) :
    ∃ dir, Draft ground cwd (base.join ⟨name⟩) dir name [] { machine with tree := tree } := by
  rw [hat.tree, hat.directory] at hmade
  obtain ⟨dir, last, hseek, hshort, hfree, rfl⟩ := Tree.makeDirectory_eq_ok hmade
  obtain ⟨hlast, hcheck, hnames⟩ := Tree.names_of_seekParent hname hseek
  obtain rfl := Disk.LastName.name.inj hlast
  have hdir := hnames.get?_dir hground (by rwa [Path.start_join hname])
  refine ⟨dir, hnames, ⟨hcheck, hshort⟩, hground, ⟨by simp, by rwa [List.dropLast_concat], hfree⟩,
    hat.directory, hground.insert (by simp) (by rwa [List.dropLast_concat]) (.inl rfl),
    Tree.changesOn_insert (by simp) (List.prefix_refl _) _, ?_⟩
  exact Tree.below_insert_directory (by simp) (hground.below_eq_none hfree)

theorem yields_makeStaging (hsuffix : ∀ n, IsSuffix (supply.suffix n)) (hground : ground.Sound)
    (lock : Lock) {base : Path} (hstart : ground.get? (base.start cwd) = some .directory) (tries : Nat)
    (hat : machine.IsAt cwd ground) :
    Yields (Machine.answer supply programs) (lock.makeStaging base tries) machine
      fun result after =>
        (∃ path dir suffix, result = .ok path ∧ IsSuffix suffix ∧
          Draft ground cwd path dir (lock.nonce.stagingName suffix) [] after) ∨
        (∃ fault, result = .error fault ∧ after.IsAt cwd ground) := by
  induction tries generalizing machine with
  | zero => exact .inr ⟨_, rfl, hat⟩
  | succ tries ih =>
    let suffix := supply.suffix machine.drawn
    let drawn : Machine := { machine with drawn := machine.drawn + 1 }
    have hdrawn : drawn.IsAt cwd ground := ⟨hat.directory, hat.tree⟩
    have hdraw : Machine.answer supply programs .randomSuffix machine = (suffix, drawn) := rfl
    refine yields_of_answer hdraw ?_
    cases hmade : drawn.tree.makeDirectory drawn.directory (base.join (lock.stagingName suffix)) with
    | ok tree =>
      refine yields_of_answer (change_ok hmade) ?_
      rw [Lock.stagingName_eq] at hmade
      obtain ⟨dir, hdraft⟩ := of_makeDirectory hground hstart
        (lock.nonce.isName_stagingName (hsuffix machine.drawn)) hdrawn hmade
      exact .inl ⟨_, dir, suffix, rfl, hsuffix _, by rwa [Lock.stagingName_eq]⟩
    | error fault =>
      refine yields_of_answer (change_error hmade) ?_
      dsimp only
      split_ifs
      · exact ih hdrawn
      · exact .inr ⟨_, rfl, hdrawn⟩

variable (supply programs) in
theorem writeFile (h : Draft ground cwd path dir name files machine) {file : Name}
    (hfile : Path.IsName file) (hshort : file.length ≤ Path.longestName)
    (hnew : file ∉ files.map Prod.fst) (content : List UInt8) :
    match (path.join ⟨file⟩).check with
    | .error fault => Machine.answer supply programs (.writeFile (path.join ⟨file⟩) content) machine =
        (.error fault, machine)
    | .ok _ => ∃ after, Machine.answer supply programs (.writeFile (path.join ⟨file⟩) content) machine =
        (.ok (), after) ∧ after.clock = machine.clock ∧
          Draft ground cwd path dir name (files ++ [(file, content)]) after := by
  cases hcheck : (path.join ⟨file⟩).check with
  | error fault =>
    have hnot : ¬ Fits (path.join ⟨file⟩) file := by
      intro hfit
      rw [hfit.check] at hcheck
      cases hcheck
    have hnames := h.names_now.join h.fits.short (Tree.get?_of_below h.below) hfile
    refine change_error ?_
    rw [hnames.writeFile_of_not_fits hnot, Tree.refusal_of_error hcheck]
  | ok _ =>
    rcases h.names_now.writeFile_new h.sound h.fits.short hfile h.below hnew content with
      ⟨tree, hok, hbelow, hsound, hchanges⟩ | ⟨fault, -, hnot⟩
    · exact ⟨_, change_ok hok, rfl, h.change hbelow hsound hchanges⟩
    · exact absurd ⟨hcheck, hshort⟩ hnot

theorem yields_fillStaging (lock : Lock) (claimant : Claimant)
    (h : Draft ground cwd path dir name [] machine) :
    Yields (Machine.answer supply programs) (lock.fillStaging claimant path) machine
      fun result after => result = Lock.fillResult path ∧
        ((∃ now, result = .ok () ∧ Draft ground cwd path dir name (lock.claimFiles claimant now) after) ∨
          ∃ error files, result = .error error ∧ Draft ground cwd path dir name files after) := by
  have hheld := h.writeFile supply programs isName_heldBytes (by decide)
    (by simp) lock.nonce.bytes
  rw [Lock.fillResult]
  revert hheld
  cases (path.join ⟨heldBytes⟩).check with
  | error fault =>
    intro hheld
    refine yields_of_answer hheld ?_
    exact ⟨rfl, .inr ⟨_, [], rfl, h⟩⟩
  | ok _ =>
    rintro ⟨marked, hheld, hclock, hmarked⟩
    refine yields_of_answer hheld ?_
    have hnow : Machine.answer supply programs .now marked = (marked.clock, marked) := rfl
    refine yields_of_answer hnow ?_
    have hne : holderBytes ∉ ([(heldBytes, lock.nonce.bytes)] : List _).map Prod.fst := by
      rw [List.map_singleton, List.mem_singleton]
      exact heldBytes_ne_holderBytes.symm
    have hinfo := hmarked.writeFile supply programs isName_holderBytes
      (by decide) hne (Text.utf8Encode (Holder.ofClaimant claimant marked.clock).render)
    revert hinfo
    cases (path.join ⟨holderBytes⟩).check with
    | error fault =>
      intro hinfo
      refine yields_of_answer hinfo ?_
      exact ⟨rfl, .inr ⟨_, _, rfl, hmarked⟩⟩
    | ok _ =>
      rintro ⟨complete, hinfo, -, hcomplete⟩
      refine yields_of_answer hinfo ?_
      exact ⟨rfl, .inl ⟨marked.clock, rfl, hcomplete⟩⟩

/-! ## Moving -/

theorem moveTo (h : Draft ground cwd path dir name files machine) {path' : Path} {dir' : Place}
    {name' : Name} (hnames : ground.Names cwd path' dir' name') (hfits : Fits path' name')
    (hdirectory : ground.get? dir' = some .directory) (hfree : ground.get? (dir' ++ [name']) = none)
    (hne : dir ++ [name] ≠ dir' ++ [name']) :
    machine.tree.rename machine.directory path path' =
        .ok (machine.tree.move (dir ++ [name]) (dir' ++ [name'])) ∧
      Draft ground cwd path' dir' name' files
        { machine with tree := machine.tree.move (dir ++ [name]) (dir' ++ [name']) } := by
  have hplot : ground.Plot (dir' ++ [name']) := ⟨by simp, by rwa [List.dropLast_concat], hfree⟩
  have hdir : ground.get? dir = some .directory := by simpa using h.plot.directory
  have hin : ¬ dir ++ [name] <+: dir' := h.plot.not_prefix_of_get? h.ground_sound hdirectory
  have hout : ¬ dir' ++ [name'] <+: dir := hplot.not_prefix_of_get? h.ground_sound hdir
  have htarget : machine.tree.get? (dir' ++ [name']) = none :=
    (h.changes _ (h.plot.not_prefix h.ground_sound hplot hne)).trans hfree
  have hnow : machine.tree.Names machine.directory path' dir' name' := by
    rw [h.directory]
    exact hnames.mono h.within
  have hsound : (machine.tree.move (dir ++ [name]) (dir' ++ [name'])).Sound := by
    refine h.sound.move (by simp) (by simp) ?_ ?_
    · rw [List.dropLast_concat]
      exact h.within _ _ hdirectory
    · rwa [List.dropLast_concat]
  have hchanges : ChangesOn (dir' ++ [name']) ground
      (machine.tree.move (dir ++ [name]) (dir' ++ [name'])) := by
    intro q hq
    rw [h.sound.toOrdered.get?_move (by simp) (by simp), if_neg hq]
    split_ifs with hmoved
    · obtain ⟨rest, rfl⟩ := hmoved
      exact (congrFun (h.ground_sound.below_eq_none h.plot.free) rest).symm
    · exact h.changes q hmoved
  refine ⟨?_, hnames, hfits, h.ground_sound, hplot, h.directory, hsound, hchanges, ?_⟩
  · rw [h.names_now.rename_directory hnow h.fits hfits (Tree.get?_of_below h.below) hin hout hne,
      Tree.replaceable_of_none htarget]
    rfl
  · show (machine.tree.move (dir ++ [name]) (dir' ++ [name'])).below (dir' ++ [name']) = _
    rw [Tree.below_move_target h.sound.toOrdered (by simp) (by simp), h.below]

/-! ## Staging -/

theorem yields_absolute (dir : Path) (hat : machine.IsAt cwd ground) :
    Yields (Machine.answer supply programs) (Lock.absolute dir) machine
      fun base after => base = dir.absoluteFrom cwd ∧ after = machine := by
  unfold Lock.absolute Path.absoluteFrom
  split_ifs
  · exact ⟨rfl, rfl⟩
  · rw [← hat.directory]
    exact ⟨rfl, rfl⟩

/-- A claim that is staged is complete; one that could not be made complete is removed again. -/
theorem yields_stage (hsuffix : ∀ n, IsSuffix (supply.suffix n)) (hground : ground.Sound)
    (lock : Lock) (claimant : Claimant) (hat : machine.IsAt cwd ground) :
    Yields (Machine.answer supply programs) (lock.stage claimant) machine
      fun result after =>
        (∃ path dir suffix now, result = .ok path ∧ IsSuffix suffix ∧
          Draft ground cwd path dir (lock.nonce.stagingName suffix) (lock.claimFiles claimant now) after) ∨
        (∃ error, result = .error error ∧ after.IsAt cwd ground) := by
  refine (yields_absolute _ hat).bind ?_
  rintro base after ⟨rfl, rfl⟩
  have hstart : ground.get? (((lock.scratchDir claimant).absoluteFrom cwd).start cwd) = some .directory := by
    rw [Path.start_absoluteFrom]
    rfl
  refine (yields_makeStaging hsuffix hground lock hstart _ hat).bind ?_
  rintro result after (⟨path, dir, suffix, rfl, hs, hdraft⟩ | ⟨fault, rfl, hat⟩)
  · refine (hdraft.yields_fillStaging lock claimant).bind ?_
    rintro result after ⟨-, ⟨now, rfl, hdraft⟩ | ⟨error, files, rfl, hdraft⟩⟩
    · exact .inl ⟨path, dir, suffix, now, rfl, hs, hdraft⟩
    · refine hdraft.yields_removeTree.bind ?_
      rintro _ after ⟨-, hat⟩
      exact .inr ⟨error, rfl, hat⟩
  · exact .inr ⟨_, rfl, hat⟩

end Draft

end DirLock
