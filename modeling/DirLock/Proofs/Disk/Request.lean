import DirLock.Disk.Operation
import DirLock.Proofs.Disk.Way

/-!
# Requests on a named entry

A path names an entry of a directory if its names lead to the directory and its last name is the
entry's. What a request on such a path does depends on what stands at the entry's place and on
nothing else, unless the path or the name is one that no request takes.
-/

namespace DirLock.Disk.Tree

/-- The path names the entry of this name in the directory. -/
structure Names (tree : Tree) (cwd : Place) (path : Path) (dir : Place) (name : Name) : Prop where
  isName : Path.IsName name
  names_eq : ∃ front left, path.names = front ++ [name] ∧
    tree.Leads Path.linkLimit (path.start cwd) front left dir
  open_end : path.endsInSlash = false

/-- The path and the name are short enough, and there is no zero byte in the path. -/
structure Fits (path : Path) (name : Name) : Prop where
  check : path.check = .ok ()
  short : name.length ≤ Path.longestName

/-- The fault of a request that does not take the path or the name. -/
def refusal (path : Path) : Fault :=
  match path.check with
  | .error fault => fault
  | .ok _ => .os .nameTooLong

variable {tree : Tree} {cwd dir : Place} {path : Path} {name : Name} {follow : Bool}

theorem Names.mono {whole : Tree} (h : tree.Within whole) (hn : tree.Names cwd path dir name) :
    whole.Names cwd path dir name := by
  obtain ⟨front, left, hnames, hleads⟩ := hn.names_eq
  exact ⟨hn.isName, ⟨front, left, hnames, hleads.mono h⟩, hn.open_end⟩

theorem LeadsTo.names_join (h : tree.LeadsTo cwd path dir) (hname : Path.IsName name) :
    tree.Names cwd (path.join ⟨name⟩) dir name := by
  obtain ⟨left, hleads⟩ := h.leads
  refine ⟨hname, ⟨path.names, left, Path.names_join hname path, ?_⟩, Path.endsInSlash_join hname path⟩
  rwa [Path.start_join hname]

theorem Names.join (h : tree.Names cwd path dir name) (hshort : name.length ≤ Path.longestName)
    (hget : tree.get? (dir ++ [name]) = some .directory) {child : Name}
    (hchild : Path.IsName child) : tree.Names cwd (path.join ⟨child⟩) (dir ++ [name]) child := by
  obtain ⟨front, left, hnames, hleads⟩ := h.names_eq
  refine ⟨hchild, ⟨front ++ [name], left, ?_, ?_⟩, Path.endsInSlash_join hchild path⟩
  · rw [Path.names_join hchild, hnames]
  · rw [Path.start_join hchild]
    exact hleads.append (.into h.isName.ne_dot h.isName.ne_dotDot hshort hget (.nil _ _))

/-! ## Looking for the entry -/

theorem Names.lastName (h : tree.Names cwd path dir name) : path.lastName = .name name := by
  obtain ⟨front, left, hnames, -⟩ := h.names_eq
  rw [Path.lastName, hnames, List.getLast?_concat]
  simp [h.isName.ne_dot, h.isName.ne_dotDot]

theorem Names.seek_eq (h : tree.Names cwd path dir name) : ∃ left, ∀ follow,
    tree.seek cwd path follow =
      path.check.bind fun _ => (tree.walk follow left dir [name]).mapError .os := by
  obtain ⟨front, left, hnames, hleads⟩ := h.names_eq
  refine ⟨left, fun follow => ?_⟩
  have hsteps : path.steps = front ++ [name] := by rw [Path.steps, h.open_end, ← hnames]; rfl
  rw [seek, hsteps, walk_append hleads (.inl (by simp))]
  rfl

theorem Names.seekParent_eq (h : tree.Names cwd path dir name) :
    tree.seekParent cwd path = path.check.map fun _ => (dir, .name name) := by
  obtain ⟨front, left, hnames, hleads⟩ := h.names_eq
  rw [seekParent, hnames, List.dropLast_concat, walk_append hleads (.inl (by simp)), walk_dot,
    walk_nil, h.lastName]
  cases path.check <;> rfl

theorem Names.seek_of_directory (h : tree.Names cwd path dir name) (hfit : Fits path name)
    (hget : tree.get? (dir ++ [name]) = some .directory) :
    tree.seek cwd path follow = .ok (.found (dir ++ [name]) .directory) := by
  obtain ⟨left, hseek⟩ := h.seek_eq
  rw [hseek, hfit.check, walk_directory h.isName.ne_dot h.isName.ne_dotDot hfit.short hget, walk_nil]
  rfl

theorem Names.seek_of_file (h : tree.Names cwd path dir name) (hfit : Fits path name)
    {content : List UInt8} (hget : tree.get? (dir ++ [name]) = some (.file content)) :
    tree.seek cwd path follow = .ok (.found (dir ++ [name]) (.file content)) := by
  obtain ⟨left, hseek⟩ := h.seek_eq
  rw [hseek, hfit.check, walk_file h.isName.ne_dot h.isName.ne_dotDot hfit.short hget]
  rfl

theorem Names.seek_of_none (h : tree.Names cwd path dir name) (hfit : Fits path name)
    (hget : tree.get? (dir ++ [name]) = none) :
    tree.seek cwd path follow = .ok (.missing dir name) := by
  obtain ⟨left, hseek⟩ := h.seek_eq
  rw [hseek, hfit.check, walk_missing h.isName.ne_dot h.isName.ne_dotDot hfit.short hget]
  rfl

theorem refusal_of_error {fault : Fault} (h : path.check = .error fault) : refusal path = fault := by
  rw [refusal, h]

theorem refusal_of_ok {checked : Unit} (h : path.check = .ok checked) :
    refusal path = .os .nameTooLong := by
  rw [refusal, h]

variable (follow) in
theorem Names.seek_of_not_fits (h : tree.Names cwd path dir name) (hfit : ¬ Fits path name) :
    tree.seek cwd path follow = .error (refusal path) := by
  obtain ⟨left, hseek⟩ := h.seek_eq
  rw [hseek]
  cases hcheck : path.check with
  | error fault =>
    rw [refusal_of_error hcheck]
    rfl
  | ok _ =>
    have hlong : name.length > Path.longestName := Nat.not_le.1 fun hle => hfit ⟨hcheck, hle⟩
    rw [walk_long h.isName.ne_dot h.isName.ne_dotDot hlong, refusal_of_ok hcheck]
    rfl

theorem Names.seek_join_eq (h : tree.Names cwd path dir name) {child : Name} (hchild : Path.IsName child) :
    ∃ left, ∀ follow, tree.seek cwd (path.join ⟨child⟩) follow =
      (path.join ⟨child⟩).check.bind fun _ => (tree.walk follow left dir [name, child]).mapError .os := by
  obtain ⟨front, left, hnames, hleads⟩ := h.names_eq
  refine ⟨left, fun follow => ?_⟩
  have hsteps : (path.join ⟨child⟩).steps = front ++ [name, child] := by
    rw [Path.steps, Path.endsInSlash_join hchild, if_neg (by simp), Path.names_join hchild, hnames]
    simp
  rw [seek, hsteps, Path.start_join hchild, walk_append hleads (.inl (by simp))]
  rfl

variable (follow) in
theorem Names.seek_join_of_walk (h : tree.Names cwd path dir name) {child : Name} (hchild : Path.IsName child)
    {code : Errno} (hwalk : ∀ left, tree.walk follow left dir [name, child] = .error code) :
    ∃ fault, tree.seek cwd (path.join ⟨child⟩) follow = .error fault := by
  obtain ⟨left, hseek⟩ := h.seek_join_eq hchild
  rw [hseek, hwalk]
  cases (path.join ⟨child⟩).check with
  | error fault => exact ⟨fault, rfl⟩
  | ok _ => exact ⟨_, rfl⟩

variable (follow) in
theorem Names.seek_join_of_long (h : tree.Names cwd path dir name)
    (hlong : name.length > Path.longestName) {child : Name} (hchild : Path.IsName child) :
    ∃ fault, tree.seek cwd (path.join ⟨child⟩) follow = .error fault :=
  h.seek_join_of_walk follow hchild fun _ => walk_long h.isName.ne_dot h.isName.ne_dotDot hlong _

variable (follow) in
theorem Names.seek_join_of_none (h : tree.Names cwd path dir name)
    (hget : tree.get? (dir ++ [name]) = none) {child : Name} (hchild : Path.IsName child) :
    ∃ fault, tree.seek cwd (path.join ⟨child⟩) follow = .error fault := by
  by_cases hlong : name.length > Path.longestName
  · exact h.seek_join_of_long follow hlong hchild
  · exact h.seek_join_of_walk follow hchild fun _ => walk_missing_on_way h.isName.ne_dot h.isName.ne_dotDot
      (Nat.not_lt.1 hlong) hget (List.cons_ne_nil _ _)

/-! ## Looking -/

theorem Names.entryKind_eq (h : tree.Names cwd path dir name) (hfit : Fits path name) :
    tree.entryKind cwd path = match tree.get? (dir ++ [name]) with
      | none => .error (.os .notFound)
      | some entry => .ok entry.kind := by
  obtain ⟨left, hseek⟩ := h.seek_eq
  rw [entryKind, hseek, hfit.check, walk_cons, if_neg h.isName.ne_dot, if_neg h.isName.ne_dotDot,
    if_neg (Nat.not_lt.2 hfit.short)]
  cases tree.get? (dir ++ [name]) with
  | none => rfl
  | some entry =>
    cases entry with
    | file content => rfl
    | directory =>
      dsimp only
      rw [walk_nil]
      rfl
    | link target => rfl

theorem Names.entryKind_of_not_fits (h : tree.Names cwd path dir name) (hfit : ¬ Fits path name) :
    tree.entryKind cwd path = .error (refusal path) := by
  rw [entryKind, h.seek_of_not_fits false hfit]
  rfl

theorem Names.entryKind_congr {tree' : Tree} (h : tree.Names cwd path dir name)
    (h' : tree'.Names cwd path dir name) (hget : tree.get? (dir ++ [name]) = tree'.get? (dir ++ [name])) :
    tree.entryKind cwd path = tree'.entryKind cwd path := by
  by_cases hfit : Fits path name
  · rw [h.entryKind_eq hfit, h'.entryKind_eq hfit, hget]
  · rw [h.entryKind_of_not_fits hfit, h'.entryKind_of_not_fits hfit]

theorem Names.readFile_of_file (h : tree.Names cwd path dir name) (hfit : Fits path name)
    {content : List UInt8} (hget : tree.get? (dir ++ [name]) = some (.file content)) :
    tree.readFile cwd path = .ok content := by
  rw [readFile, h.seek_of_file hfit hget]
  rfl

theorem Names.readFile_of_not_fits (h : tree.Names cwd path dir name) (hfit : ¬ Fits path name) :
    tree.readFile cwd path = .error (refusal path) := by
  rw [readFile, h.seek_of_not_fits true hfit]
  rfl

theorem Names.readFile_join_of_none (h : tree.Names cwd path dir name)
    (hget : tree.get? (dir ++ [name]) = none) {child : Name} (hchild : Path.IsName child) :
    ∃ fault, tree.readFile cwd (path.join ⟨child⟩) = .error fault := by
  obtain ⟨fault, hseek⟩ := h.seek_join_of_none true hget hchild
  exact ⟨fault, by rw [readFile, hseek]; rfl⟩

theorem Names.readFile_join_of_long (h : tree.Names cwd path dir name)
    (hlong : name.length > Path.longestName) {child : Name} (hchild : Path.IsName child) :
    ∃ fault, tree.readFile cwd (path.join ⟨child⟩) = .error fault := by
  obtain ⟨fault, hseek⟩ := h.seek_join_of_long true hlong hchild
  exact ⟨fault, by rw [readFile, hseek]; rfl⟩

section ReadFile

variable (h : tree.Names cwd path dir name) (hlink : ∀ target, tree.get? (dir ++ [name]) ≠ some (.link target))
  {child : Name} (hchild : Path.IsName child)
include h hlink hchild

theorem Names.get?_of_readFile_join {content : List UInt8}
    (hread : tree.readFile cwd (path.join ⟨child⟩) = .ok content) :
    tree.get? (dir ++ [name]) = some .directory := by
  have hnot : ∀ fault, tree.readFile cwd (path.join ⟨child⟩) ≠ .error fault := fun fault heq => by
    cases hread.symm.trans heq
  by_cases hlong : name.length > Path.longestName
  · obtain ⟨fault, hfault⟩ := h.readFile_join_of_long hlong hchild
    exact absurd hfault (hnot fault)
  cases hget : tree.get? (dir ++ [name]) with
  | none =>
    obtain ⟨fault, hfault⟩ := h.readFile_join_of_none hget hchild
    exact absurd hfault (hnot fault)
  | some entry =>
    cases entry with
    | directory => rfl
    | link target => exact absurd hget (hlink target)
    | file old =>
      have hwalk : ∀ left, tree.walk true left dir [name, child] = .error .notDirectory := fun left => by
        rw [walk_cons, if_neg h.isName.ne_dot, if_neg h.isName.ne_dotDot, if_neg hlong, hget]
      obtain ⟨fault, hseek⟩ := h.seek_join_of_walk true hchild hwalk
      exact absurd (by rw [readFile, hseek]; rfl) (hnot fault)

theorem Names.readFile_join_congr {tree' : Tree} (h' : tree'.Names cwd path dir name)
    (hlink' : ∀ target, tree.get? (dir ++ [name] ++ [child]) ≠ some (.link target))
    (hget : tree.get? (dir ++ [name]) = tree'.get? (dir ++ [name]))
    (hget' : tree.get? (dir ++ [name] ++ [child]) = tree'.get? (dir ++ [name] ++ [child])) :
    tree.readFile cwd (path.join ⟨child⟩) = tree'.readFile cwd (path.join ⟨child⟩) := by
  obtain ⟨left, hseek⟩ := h.seek_join_eq hchild
  obtain ⟨left', hseek'⟩ := h'.seek_join_eq hchild
  suffices hwalk : tree.walk true left dir [name, child] = tree'.walk true left' dir [name, child] by
    rw [readFile, readFile, hseek, hseek', hwalk]
  rw [walk_cons tree, walk_cons tree', ← hget]
  rw [if_neg h.isName.ne_dot, if_neg h.isName.ne_dotDot, if_neg h.isName.ne_dot, if_neg h.isName.ne_dotDot]
  split_ifs
  · rfl
  rcases hentry : tree.get? (dir ++ [name]) with _ | (content | _ | target)
  · rfl
  · rfl
  · dsimp only
    rw [walk_cons tree, walk_cons tree', ← hget']
    rw [if_neg hchild.ne_dot, if_neg hchild.ne_dotDot, if_neg hchild.ne_dot, if_neg hchild.ne_dotDot]
    split_ifs
    · rfl
    rcases hentry' : tree.get? (dir ++ [name] ++ [child]) with _ | (content | _ | target)
    · rfl
    · rfl
    · exact (walk_nil ..).trans (walk_nil ..).symm
    · exact absurd hentry' (hlink' target)
  · exact absurd hentry (hlink target)

end ReadFile

/-! ## Making -/

theorem Names.makeDirectory_eq (h : tree.Names cwd path dir name) (hfit : Fits path name) :
    tree.makeDirectory cwd path = match tree.get? (dir ++ [name]) with
      | some _ => .error (.os .alreadyExists)
      | none => .ok (tree.insert (dir ++ [name]) .directory) := by
  rw [makeDirectory, h.seekParent_eq, hfit.check]
  show (if name.length > Path.longestName then _ else _) = _
  rw [if_neg (Nat.not_lt.2 hfit.short)]
  rfl

theorem Names.makeDirectory_of_not_fits (h : tree.Names cwd path dir name)
    (hfit : ¬ Fits path name) : tree.makeDirectory cwd path = .error (refusal path) := by
  rw [makeDirectory, h.seekParent_eq]
  cases hcheck : path.check with
  | error fault =>
    rw [refusal_of_error hcheck]
    rfl
  | ok _ =>
    have hlong : name.length > Path.longestName := Nat.not_le.1 fun hle => hfit ⟨hcheck, hle⟩
    rw [refusal_of_ok hcheck]
    exact if_pos hlong

theorem Names.makeDirectory_congr {tree' : Tree} (h : tree.Names cwd path dir name)
    (h' : tree'.Names cwd path dir name) (hget : tree.get? (dir ++ [name]) = tree'.get? (dir ++ [name])) :
    (∃ fault, tree.makeDirectory cwd path = .error fault ∧ tree'.makeDirectory cwd path = .error fault) ∨
      ∃ after after', tree.makeDirectory cwd path = .ok after ∧ tree'.makeDirectory cwd path = .ok after' := by
  by_cases hfit : Fits path name
  · rw [h.makeDirectory_eq hfit, h'.makeDirectory_eq hfit, hget]
    cases tree'.get? (dir ++ [name]) with
    | none => exact .inr ⟨_, _, rfl, rfl⟩
    | some entry => exact .inl ⟨_, rfl, rfl⟩
  · rw [h.makeDirectory_of_not_fits hfit, h'.makeDirectory_of_not_fits hfit]
    exact .inl ⟨_, rfl, rfl⟩

theorem Names.writeFile_of_none (h : tree.Names cwd path dir name) (hfit : Fits path name)
    (hget : tree.get? (dir ++ [name]) = none) (content : List UInt8) :
    tree.writeFile cwd path content = .ok (tree.insert (dir ++ [name]) (.file content)) := by
  rw [writeFile, if_neg (by simp [h.open_end]), h.seek_of_none hfit hget]
  rfl

theorem Names.writeFile_of_not_fits (h : tree.Names cwd path dir name) (hfit : ¬ Fits path name)
    (content : List UInt8) : tree.writeFile cwd path content = .error (refusal path) := by
  rw [writeFile, if_neg (by simp [h.open_end]), h.seek_of_not_fits true hfit]
  rfl

/-! ## Removing -/

theorem Names.removeDirectory_of_bare (h : tree.Names cwd path dir name) (hfit : Fits path name)
    (hget : tree.get? (dir ++ [name]) = some .directory)
    (hbare : tree.isBare (dir ++ [name]) = true) :
    tree.removeDirectory cwd path = .ok (tree.erase (dir ++ [name])) := by
  rw [removeDirectory, h.seekParent_eq, hfit.check]
  show (if name.length > Path.longestName then _ else _) = _
  rw [if_neg (Nat.not_lt.2 hfit.short), hget]
  exact if_pos hbare

theorem Names.removeDirectory_of_not_fits (h : tree.Names cwd path dir name)
    (hfit : ¬ Fits path name) : tree.removeDirectory cwd path = .error (refusal path) := by
  rw [removeDirectory, h.seekParent_eq]
  cases hcheck : path.check with
  | error fault =>
    rw [refusal_of_error hcheck]
    rfl
  | ok _ =>
    have hlong : name.length > Path.longestName := Nat.not_le.1 fun hle => hfit ⟨hcheck, hle⟩
    rw [refusal_of_ok hcheck]
    exact if_pos hlong

/-- The steps that remove a directory: what is listed at and below it, last first. -/
def removalsOf (path : Path) (place : Place) (es : List (Place × Entry)) : List Removal :=
  es.reverse.map fun e =>
    let inside := e.1.drop place.length
    if e.2 = .directory then .removeDirectory path inside else .unlink path inside

theorem Names.removals_of_directory (h : tree.Names cwd path dir name) (hfit : Fits path name)
    (hget : tree.get? (dir ++ [name]) = some .directory) :
    tree.removals cwd path =
      .ok (removalsOf path (dir ++ [name]) (tree.under (dir ++ [name]))) := by
  rw [removals, h.seek_of_directory hfit hget]
  rfl

theorem Names.removals_of_not_fits (h : tree.Names cwd path dir name) (hfit : ¬ Fits path name) :
    tree.removals cwd path = .error (refusal path) := by
  rw [removals, h.seek_of_not_fits false hfit]
  rfl

theorem Names.seekInside_eq (h : tree.Names cwd path dir name) (hfit : Fits path name)
    (hget : tree.get? (dir ++ [name]) = some .directory) (inside : List Name) :
    tree.seekInside cwd path inside = .ok (dir ++ [name] ++ inside) := by
  rw [seekInside, h.seek_of_directory hfit hget]
  rfl

theorem Names.seekInside_of_not_fits (h : tree.Names cwd path dir name) (hfit : ¬ Fits path name)
    (inside : List Name) : tree.seekInside cwd path inside = .error (refusal path) := by
  rw [seekInside, h.seek_of_not_fits false hfit]
  rfl

/-! ## Renaming -/

theorem replaceable_of_none {place : Place} (hget : tree.get? place = none) (moved : Entry) :
    tree.replaceable moved place = .ok () := by
  unfold replaceable
  rw [hget]

theorem replaceable_eq_ok {place : Place} (h : tree.replaceable .directory place = .ok ()) :
    tree.get? place = none ∨ tree.get? place = some .directory ∧ tree.isBare place = true := by
  unfold replaceable at h
  cases hget : tree.get? place with
  | none => exact .inl rfl
  | some entry =>
    rw [hget] at h
    cases entry with
    | file content => cases h
    | link target => cases h
    | directory =>
      dsimp only at h
      split_ifs at h with hbare
      exact .inr ⟨rfl, hbare⟩

theorem replaceable_congr {tree' : Tree} {place : Place} (hget : tree.get? place = tree'.get? place)
    (hbelow : ∀ name, tree.get? (place ++ [name]) = tree'.get? (place ++ [name])) (moved : Entry) :
    tree.replaceable moved place = tree'.replaceable moved place := by
  have hbare : tree.isBare place = tree'.isBare place := by
    rw [Bool.eq_iff_iff, isBare_iff, isBare_iff]
    exact forall_congr' fun name => by rw [hbelow]
  unfold replaceable
  rw [hget, hbare]

theorem replaceable_of_not_bare {place : Place} (hget : tree.get? place = some .directory)
    (hbare : ¬ tree.isBare place = true) :
    tree.replaceable .directory place = .error (.os .notEmpty) := by
  unfold replaceable
  rw [hget]
  exact if_neg hbare

theorem exists_rename_refusal {source target : Path} {sourceName targetName : Name}
    (hfit : ¬ (Fits source sourceName ∧ Fits target targetName)) :
    ∃ fault, ∀ {tree : Tree} {cwd sourceDir targetDir : Place},
      tree.Names cwd source sourceDir sourceName → tree.Names cwd target targetDir targetName →
        tree.get? (sourceDir ++ [sourceName]) ≠ none → tree.rename cwd source target = .error fault := by
  by_cases hzero : (source.hasZero || target.hasZero) = true
  · refine ⟨.zeroByte, fun _ _ _ => ?_⟩
    rw [rename]
    exact if_pos hzero
  cases hcheck : source.check with
  | error fault =>
    refine ⟨fault, fun hsource _ _ => ?_⟩
    rw [rename, if_neg hzero, hsource.seekParent_eq, hcheck]
    rfl
  | ok _ =>
    cases hcheck' : target.check with
    | error fault =>
      refine ⟨fault, fun hsource htarget _ => ?_⟩
      rw [rename, if_neg hzero, hsource.seekParent_eq, htarget.seekParent_eq, hcheck, hcheck']
      rfl
    | ok _ =>
      refine ⟨.os .nameTooLong, fun {tree cwd sourceDir targetDir} hsource htarget hget => ?_⟩
      rw [rename, if_neg hzero, hsource.seekParent_eq, htarget.seekParent_eq, hcheck, hcheck']
      simp only [Except.map, bind, Except.bind]
      by_cases hlong : sourceName.length > Path.longestName
      · exact if_pos hlong
      have hlong' : targetName.length > Path.longestName := by
        by_contra hshort
        exact hfit ⟨⟨hcheck, Nat.not_lt.1 hlong⟩, ⟨hcheck', Nat.not_lt.1 hshort⟩⟩
      rw [if_neg hlong]
      cases hentry : tree.get? (sourceDir ++ [sourceName]) with
      | none => exact absurd hentry hget
      | some moved => exact if_pos hlong'

section Rename

variable {source target : Path} {sourceDir targetDir : Place} {sourceName targetName : Name}
  (hsource : tree.Names cwd source sourceDir sourceName)
  (htarget : tree.Names cwd target targetDir targetName)
include hsource htarget

theorem Names.rename_directory (hfit : Fits source sourceName) (hfit' : Fits target targetName)
    (hget : tree.get? (sourceDir ++ [sourceName]) = some .directory)
    (hin : ¬ sourceDir ++ [sourceName] <+: targetDir)
    (hout : ¬ targetDir ++ [targetName] <+: sourceDir)
    (hne : sourceDir ++ [sourceName] ≠ targetDir ++ [targetName]) :
    tree.rename cwd source target =
      (tree.replaceable .directory (targetDir ++ [targetName])).map fun _ =>
        tree.move (sourceDir ++ [sourceName]) (targetDir ++ [targetName]) := by
  have hzero : ∀ {path : Path}, path.check = .ok () → path.hasZero = false := by
    intro path hcheck
    rw [Path.check] at hcheck
    split_ifs at hcheck with hz
    exact Bool.eq_false_iff.2 hz
  have hmoved : ¬ (sourceDir ++ [sourceName]).isPrefixOf targetDir = true := by
    rwa [List.isPrefixOf_iff_prefix]
  have hkept : ¬ (targetDir ++ [targetName]).isPrefixOf sourceDir = true := by
    rwa [List.isPrefixOf_iff_prefix]
  rw [rename, hzero hfit.check, hzero hfit'.check, hsource.seekParent_eq, htarget.seekParent_eq,
    hfit.check, hfit'.check]
  simp only [Except.map, bind, Except.bind, hget, Nat.not_lt.2 hfit.short,
    Nat.not_lt.2 hfit'.short, hmoved, hkept, hne, Bool.or_self, Bool.false_eq_true, if_false,
    ne_eq, not_true_eq_false, decide_false, Bool.false_and]
  cases tree.replaceable .directory (targetDir ++ [targetName]) <;> rfl

theorem Names.rename_of_none (hget : tree.get? (sourceDir ++ [sourceName]) = none) :
    ∃ fault, tree.rename cwd source target = .error fault := by
  rw [rename]
  by_cases hzero : (source.hasZero || target.hasZero) = true
  · exact ⟨.zeroByte, if_pos hzero⟩
  rw [if_neg hzero, hsource.seekParent_eq, htarget.seekParent_eq]
  cases source.check with
  | error fault => exact ⟨fault, rfl⟩
  | ok _ =>
    cases target.check with
    | error fault => exact ⟨fault, rfl⟩
    | ok _ =>
      simp only [Except.map, bind, Except.bind, hget]
      by_cases hlong : sourceName.length > Path.longestName
      · exact ⟨.os .nameTooLong, if_pos hlong⟩
      · rw [if_neg hlong]
        exact ⟨.os .notFound, rfl⟩

theorem Names.rename_of_not_fits (hfit : ¬ (Fits source sourceName ∧ Fits target targetName)) :
    ∃ fault, tree.rename cwd source target = .error fault := by
  by_cases hget : tree.get? (sourceDir ++ [sourceName]) = none
  · exact hsource.rename_of_none htarget hget
  · obtain ⟨fault, hrefused⟩ := exists_rename_refusal hfit
    exact ⟨fault, hrefused hsource htarget hget⟩

/-- Where a directory stands in two trees and may be moved in both or in neither, it is moved in both, or
in neither for the same reason. -/
theorem Names.rename_congr {tree' : Tree} (hsource' : tree'.Names cwd source sourceDir sourceName)
    (htarget' : tree'.Names cwd target targetDir targetName)
    (hget : tree.get? (sourceDir ++ [sourceName]) = some .directory)
    (hget' : tree'.get? (sourceDir ++ [sourceName]) = some .directory)
    (hreplaceable : tree.replaceable .directory (targetDir ++ [targetName]) =
      tree'.replaceable .directory (targetDir ++ [targetName]))
    (hin : ¬ sourceDir ++ [sourceName] <+: targetDir) (hout : ¬ targetDir ++ [targetName] <+: sourceDir)
    (hne : sourceDir ++ [sourceName] ≠ targetDir ++ [targetName]) :
    (∃ fault, tree.rename cwd source target = .error fault ∧ tree'.rename cwd source target = .error fault) ∨
      Fits target targetName ∧ tree.replaceable .directory (targetDir ++ [targetName]) = .ok () ∧
        tree.rename cwd source target =
          .ok (tree.move (sourceDir ++ [sourceName]) (targetDir ++ [targetName])) ∧
        tree'.rename cwd source target =
          .ok (tree'.move (sourceDir ++ [sourceName]) (targetDir ++ [targetName])) := by
  by_cases hfit : Fits source sourceName ∧ Fits target targetName
  · rw [hsource.rename_directory htarget hfit.1 hfit.2 hget hin hout hne,
      hsource'.rename_directory htarget' hfit.1 hfit.2 hget' hin hout hne, ← hreplaceable]
    cases tree.replaceable .directory (targetDir ++ [targetName]) with
    | error fault => exact .inl ⟨fault, rfl, rfl⟩
    | ok _ => exact .inr ⟨hfit.2, rfl, rfl, rfl⟩
  · obtain ⟨fault, hrefused⟩ := exists_rename_refusal hfit
    exact .inl ⟨fault, hrefused hsource htarget (by simp [hget]), hrefused hsource' htarget' (by simp [hget'])⟩

end Rename

end DirLock.Disk.Tree
