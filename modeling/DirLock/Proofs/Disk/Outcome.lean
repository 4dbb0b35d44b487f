import DirLock.Proofs.Disk.Request

/-!
# What a request did

A request that changes the tree and is not refused puts one entry, removes one, or moves one with all
that is below it. These are the converses of the statements about requests on named entries: from the
result they find out which entry it was and what stood there, in any tree.
-/

namespace DirLock.Disk.Tree

variable {tree after : Tree} {cwd dir place : Place} {path : Path} {name : Name} {links left : Nat}
  {cur : Place} {names more : List Name} {follow : Bool}

/-! ## Ways that were followed -/

theorem leads_of_walk_append {spot : Spot} (hmore : more ≠ [])
    (h : tree.walk follow links cur (names ++ more) = .ok spot) :
    ∃ left place, tree.Leads links cur names left place := by
  -- A link puts its target in front of the names, but it also uses up one of the links that are left.
  induction links using Nat.strongRecOn generalizing cur names with
  | ind links ihlinks =>
    induction names generalizing cur with
    | nil => exact ⟨_, _, .nil _ _⟩
    | cons name names ih =>
      have hrest : names ++ more ≠ [] := fun hnil => hmore (List.append_eq_nil_iff.1 hnil).2
      rw [List.cons_append, walk_cons] at h
      by_cases hdot : name = Path.dot
      · rw [if_pos hdot] at h
        obtain ⟨left, place, hleads⟩ := ih h
        exact ⟨left, place, hdot ▸ .here hleads⟩
      by_cases hup : name = Path.dotDot
      · rw [if_neg hdot, if_pos hup] at h
        obtain ⟨left, place, hleads⟩ := ih h
        exact ⟨left, place, hup ▸ .up hleads⟩
      by_cases hlong : name.length > Path.longestName
      · rw [if_neg hdot, if_neg hup, if_pos hlong] at h
        cases h
      rw [if_neg hdot, if_neg hup, if_neg hlong] at h
      have hlen := Nat.not_lt.1 hlong
      cases hget : tree.get? (cur ++ [name]) with
      | none =>
        obtain ⟨next, rest, hnext⟩ := List.exists_cons_of_ne_nil hrest
        rw [hget, hnext] at h
        cases h
      | some entry =>
        cases entry with
        | file content =>
          obtain ⟨next, rest, hnext⟩ := List.exists_cons_of_ne_nil hrest
          rw [hget, hnext] at h
          cases h
        | directory =>
          rw [hget] at h
          obtain ⟨left, place, hleads⟩ := ih h
          exact ⟨left, place, .into hdot hup hlen hget hleads⟩
        | link target =>
          rw [hget] at h
          dsimp only at h
          rw [if_neg fun hstop => hrest hstop.1] at h
          cases links with
          | zero => cases h
          | succ links =>
            dsimp only at h
            rw [← List.append_assoc] at h
            obtain ⟨left, place, hleads⟩ := ihlinks links (Nat.lt_succ_self links) h
            exact ⟨left, place, .through hdot hup hlen hget hleads⟩

theorem get?_of_walk {entry : Entry} (hentry : entry ≠ .directory)
    (h : tree.walk follow links cur names = .ok (.found place entry)) :
    tree.get? place = some entry := by
  induction links using Nat.strongRecOn generalizing cur names with
  | ind links ihlinks =>
    induction names generalizing cur with
    | nil =>
      rw [walk_nil] at h
      cases h
      exact absurd rfl hentry
    | cons name names ih =>
      rw [walk_cons] at h
      split_ifs at h
      · exact ih h
      · exact ih h
      · cases hget : tree.get? (cur ++ [name]) with
        | none => cases names <;> simp [hget] at h
        | some found =>
          cases found with
          | file content =>
            cases names with
            | nil =>
              simp only [hget, Except.ok.injEq, Spot.found.injEq] at h
              rw [← h.1, ← h.2, hget]
            | cons next rest => simp [hget] at h
          | directory =>
            rw [hget] at h
            exact ih h
          | link target =>
            rw [hget] at h
            dsimp only at h
            split_ifs at h
            · simp only [Except.ok.injEq, Spot.found.injEq] at h
              rw [← h.1, ← h.2, hget]
            · cases links with
              | zero => cases h
              | succ links => exact ihlinks links (Nat.lt_succ_self links) h

/-- A way comes to its end where nothing stands, at a file, at a name that is too long, or at one link too many. -/
theorem errno_of_walk {code : Errno} (h : tree.walk follow links cur names = .error code) :
    code ∈ [Errno.notFound, Errno.notDirectory, Errno.nameTooLong, Errno.loop] := by
  induction links using Nat.strongRecOn generalizing cur names with
  | ind links ihlinks =>
    induction names generalizing cur with
    | nil =>
      rw [walk_nil] at h
      cases h
    | cons name names ih =>
      rw [walk_cons] at h
      split_ifs at h
      · exact ih h
      · exact ih h
      · obtain rfl := Except.error.inj h
        simp
      · cases hget : tree.get? (cur ++ [name]) with
        | none =>
          rw [hget] at h
          cases names with
          | nil => cases h
          | cons next rest =>
            obtain rfl := Except.error.inj h
            simp
        | some found =>
          rw [hget] at h
          cases found with
          | file content =>
            cases names with
            | nil => cases h
            | cons next rest =>
              obtain rfl := Except.error.inj h
              simp
          | directory => exact ih h
          | link target =>
            dsimp only at h
            split_ifs at h
            cases links with
            | zero =>
              obtain rfl := Except.error.inj h
              simp
            | succ links => exact ihlinks links (Nat.lt_succ_self links) h

theorem seekParent_eq_ok {last : LastName} (h : tree.seekParent cwd path = .ok (dir, last)) :
    path.check = .ok () ∧ last = path.lastName ∧
      ∃ left, tree.Leads Path.linkLimit (path.start cwd) path.names.dropLast left dir := by
  rw [seekParent] at h
  cases hcheck : path.check with
  | error fault => simp [hcheck, bind, Except.bind] at h
  | ok _ =>
    cases hwalk : tree.walk true Path.linkLimit (path.start cwd)
        (path.names.dropLast ++ [Path.dot]) with
    | error code => simp [hcheck, hwalk, bind, Except.bind, Except.mapError] at h
    | ok spot =>
      obtain ⟨left, place, hleads⟩ := leads_of_walk_append (by simp) hwalk
      rw [walk_append hleads (.inl (by simp)), walk_dot, walk_nil] at hwalk
      obtain rfl := Except.ok.inj hwalk
      rw [hcheck, walk_append hleads (.inl (by simp)), walk_dot, walk_nil] at h
      obtain ⟨rfl, rfl⟩ := Prod.mk.inj (Except.ok.inj h)
      exact ⟨rfl, rfl, left, hleads⟩

theorem lastName_eq_name (h : path.lastName = .name name) :
    path.names = path.names.dropLast ++ [name] ∧ name ≠ Path.dot ∧ name ≠ Path.dotDot := by
  rw [Path.lastName] at h
  cases hlast : path.names.getLast? with
  | none => simp [hlast] at h
  | some last =>
    rw [hlast] at h
    dsimp only at h
    split_ifs at h with hdot hup
    obtain rfl := LastName.name.inj h
    obtain ⟨front, hfront⟩ := List.getLast?_eq_some_iff.1 hlast
    exact ⟨by rw [hfront, List.dropLast_concat], hdot, hup⟩

theorem names_of_seekParent {base : Path} (hname : Path.IsName name) {last : LastName}
    (h : tree.seekParent cwd (base.join ⟨name⟩) = .ok (dir, last)) :
    last = .name name ∧ (base.join ⟨name⟩).check = .ok () ∧
      tree.Names cwd (base.join ⟨name⟩) dir name := by
  obtain ⟨hcheck, hlast, left, hleads⟩ := seekParent_eq_ok h
  have hnames := Path.names_join hname base
  refine ⟨?_, hcheck, hname, ⟨base.names, left, hnames, ?_⟩, Path.endsInSlash_join hname base⟩
  · rw [hlast, Path.lastName, hnames, List.getLast?_concat]
    simp [hname.ne_dot, hname.ne_dotDot]
  · rwa [hnames, List.dropLast_concat] at hleads

theorem get?_start (hcwd : tree.get? cwd = some .directory) (path : Path) :
    tree.get? (path.start cwd) = some .directory := by
  unfold Path.start
  split_ifs
  · rfl
  · exact hcwd

theorem Names.get?_dir (h : tree.Names cwd path dir name) (hsound : tree.Sound)
    (hstart : tree.get? (path.start cwd) = some .directory) : tree.get? dir = some .directory := by
  obtain ⟨front, left, -, hleads⟩ := h.names_eq
  exact hleads.get?_eq hsound hstart

theorem Names.entryKind_eq_notFound (h : tree.Names cwd path dir name) (hne : path.bytes ≠ [])
    {fault : Fault} (hfault : tree.entryKind cwd path = .error fault) (hkind : fault.kind = .notFound) :
    Fits path name ∧ tree.get? (dir ++ [name]) = none := by
  obtain ⟨left, hseek⟩ := h.seek_eq
  have hcheck : path.check = .ok () := by
    rw [entryKind, hseek, Path.check] at hfault
    rw [Path.check]
    split_ifs at hfault ⊢ with hzero hempty hlong
    · obtain rfl := Except.error.inj hfault
      exact absurd hkind (by decide)
    · exact absurd (List.isEmpty_iff.1 hempty) hne
    · obtain rfl := Except.error.inj hfault
      exact absurd hkind (by decide)
    · rfl
  have hshort : name.length ≤ Path.longestName := by
    by_contra hlong
    rw [entryKind, hseek, hcheck, walk_long h.isName.ne_dot h.isName.ne_dotDot (Nat.not_le.1 hlong)]
      at hfault
    obtain rfl := Except.error.inj hfault
    exact absurd hkind (by decide)
  refine ⟨⟨hcheck, hshort⟩, ?_⟩
  rw [h.entryKind_eq ⟨hcheck, hshort⟩] at hfault
  cases hget : tree.get? (dir ++ [name]) with
  | none => rfl
  | some entry =>
    rw [hget] at hfault
    cases hfault

/-! ## Changes -/

theorem ok_of_bind {ε α β : Type} {x : Except ε α} {f : α → Except ε β} {b : β}
    (h : x >>= f = .ok b) : ∃ a, x = .ok a ∧ f a = .ok b := by
  cases x with
  | error error => cases h
  | ok a => exact ⟨a, rfl, h⟩

theorem ok_of_guard {ε β : Type} {c : Prop} [Decidable c] {error : ε} {f : PUnit → Except ε β} {b : β}
    (h : (if c then throw error >>= f else f ()) = .ok b) : ¬ c ∧ f () = .ok b := by
  by_cases hc : c
  · rw [if_pos hc] at h
    cases h
  · rw [if_neg hc] at h
    exact ⟨hc, h⟩

theorem makeDirectory_eq_ok (h : tree.makeDirectory cwd path = .ok after) :
    ∃ dir name, tree.seekParent cwd path = .ok (dir, .name name) ∧ name.length ≤ Path.longestName ∧
      tree.get? (dir ++ [name]) = none ∧ after = tree.insert (dir ++ [name]) .directory := by
  rw [makeDirectory] at h
  obtain ⟨⟨dir, last⟩, hseek, h⟩ := ok_of_bind h
  cases last with
  | name name =>
    dsimp only at h
    split_ifs at h with hlong
    refine ⟨dir, name, hseek, Nat.not_lt.1 hlong, ?_⟩
    cases hget : tree.get? (dir ++ [name]) with
    | some entry => simp [hget] at h
    | none =>
      rw [hget] at h
      exact ⟨rfl, (Except.ok.inj h).symm⟩
  | root => cases h
  | here => cases h
  | up => cases h

/-! ## Removals -/

/-- The path that a step of a removal names. -/
def Removal.root : Removal → Path
  | unlink path _ => path
  | removeDirectory path _ => path

/-- The names that lead from there to the entry that goes. -/
def Removal.inside : Removal → List Name
  | unlink _ inside => inside
  | removeDirectory _ inside => inside

/-- The tree after a step of a removal. -/
def remove (tree : Tree) (cwd : Place) : Removal → Except Fault Tree
  | .unlink path inside => tree.unlinkInside cwd path inside
  | .removeDirectory path inside => tree.removeInside cwd path inside

/-- The place of the entry that a step of a removal takes away. -/
inductive Removal.Finds (tree : Tree) (cwd : Place) (step : Removal) : Place → Prop
  | root {dir : Place} {name : Name} : step.inside = [] →
    tree.seekParent cwd step.root = .ok (dir, .name name) → Finds tree cwd step (dir ++ [name])
  | inside {place : Place} : tree.seekInside cwd step.root step.inside = .ok place →
    Finds tree cwd step place

/-- What may be taken away: an entry that is no directory, or a directory with nothing in it. -/
inductive Loose (tree : Tree) (place : Place) : Prop
  | leaf {entry : Entry} : tree.get? place = some entry → entry ≠ .directory → Loose tree place
  | bare : tree.isBare place = true → Loose tree place

theorem Sound.erase_loose (h : tree.Sound) (hloose : tree.Loose place) : (tree.erase place).Sound := by
  cases hloose with
  | leaf hget hne =>
    exact h.erase fun name => h.get?_append_eq_none (by simpa [hget] using hne) (List.cons_ne_nil _ _)
  | bare hbare => exact h.erase ((isBare_iff _ _).1 hbare)

theorem unlink_eq_ok (h : tree.unlink cwd path = .ok after) :
    ∃ dir name, tree.seekParent cwd path = .ok (dir, .name name) ∧ tree.Loose (dir ++ [name]) ∧
      after = tree.erase (dir ++ [name]) := by
  rw [unlink] at h
  obtain ⟨⟨dir, last⟩, hseek, h⟩ := ok_of_bind h
  cases last with
  | name name =>
    refine ⟨dir, name, hseek, ?_⟩
    dsimp only at h
    cases hget : tree.get? (dir ++ [name]) with
    | none =>
      rw [hget] at h
      split_ifs at h
    | some entry =>
      rw [hget] at h
      cases entry with
      | directory => split_ifs at h
      | file content =>
        split_ifs at h
        exact ⟨.leaf hget (by simp), (Except.ok.inj h).symm⟩
      | link target =>
        split_ifs at h
        exact ⟨.leaf hget (by simp), (Except.ok.inj h).symm⟩
  | root => cases h
  | here => cases h
  | up => cases h

theorem removeDirectory_eq_ok (h : tree.removeDirectory cwd path = .ok after) :
    ∃ dir name, tree.seekParent cwd path = .ok (dir, .name name) ∧ tree.Loose (dir ++ [name]) ∧
      after = tree.erase (dir ++ [name]) := by
  rw [removeDirectory] at h
  obtain ⟨⟨dir, last⟩, hseek, h⟩ := ok_of_bind h
  cases last with
  | name name =>
    refine ⟨dir, name, hseek, ?_⟩
    dsimp only at h
    cases hget : tree.get? (dir ++ [name]) with
    | none =>
      rw [hget] at h
      split_ifs at h
    | some entry =>
      rw [hget] at h
      cases entry with
      | directory =>
        split_ifs at h with _ hbare
        exact ⟨.bare hbare, (Except.ok.inj h).symm⟩
      | file content => split_ifs at h
      | link target => split_ifs at h
  | root => cases h
  | here => cases h
  | up => cases h

theorem remove_eq_ok {step : Removal} (h : tree.remove cwd step = .ok after) :
    ∃ place, step.Finds tree cwd place ∧ tree.Loose place ∧ after = tree.erase place := by
  cases step with
  | unlink path inside =>
    rw [remove, unlinkInside] at h
    split_ifs at h with hnil
    · obtain ⟨dir, name, hseek, hloose, heq⟩ := unlink_eq_ok h
      exact ⟨_, .root hnil hseek, hloose, heq⟩
    · obtain ⟨place, hplace, h⟩ := ok_of_bind h
      refine ⟨place, .inside hplace, ?_⟩
      cases hget : tree.get? place with
      | none =>
        rw [hget] at h
        cases h
      | some entry =>
        rw [hget] at h
        cases entry with
        | directory => cases h
        | file content => exact ⟨.leaf hget (by simp), (Except.ok.inj h).symm⟩
        | link target => exact ⟨.leaf hget (by simp), (Except.ok.inj h).symm⟩
  | removeDirectory path inside =>
    rw [remove, removeInside] at h
    split_ifs at h with hnil
    · obtain ⟨dir, name, hseek, hloose, heq⟩ := removeDirectory_eq_ok h
      exact ⟨_, .root hnil hseek, hloose, heq⟩
    · obtain ⟨place, hplace, h⟩ := ok_of_bind h
      refine ⟨place, .inside hplace, ?_⟩
      cases hget : tree.get? place with
      | none =>
        rw [hget] at h
        cases h
      | some entry =>
        rw [hget] at h
        cases entry with
        | directory =>
          dsimp only at h
          split_ifs at h with hbare
          exact ⟨.bare hbare, (Except.ok.inj h).symm⟩
        | file content => cases h
        | link target => cases h

theorem Sound.unlink (h : tree.Sound) (hok : tree.unlink cwd path = .ok after) : after.Sound := by
  obtain ⟨_, _, -, hloose, rfl⟩ := unlink_eq_ok hok
  exact h.erase_loose hloose

theorem Sound.remove (h : tree.Sound) {step : Removal} (hok : tree.remove cwd step = .ok after) :
    after.Sound := by
  obtain ⟨_, -, hloose, rfl⟩ := remove_eq_ok hok
  exact h.erase_loose hloose

theorem rename_eq_ok {source target : Path} (h : tree.rename cwd source target = .ok after) :
    ∃ sourceDir sourceName targetDir targetName,
      tree.seekParent cwd source = .ok (sourceDir, .name sourceName) ∧
      tree.seekParent cwd target = .ok (targetDir, .name targetName) ∧
      (sourceDir ++ [sourceName] = targetDir ++ [targetName] ∧ after = tree ∨
        ¬ sourceDir ++ [sourceName] <+: targetDir ∧ ¬ targetDir ++ [targetName] <+: sourceDir ∧
        sourceDir ++ [sourceName] ≠ targetDir ++ [targetName] ∧
        (∃ moved, tree.get? (sourceDir ++ [sourceName]) = some moved ∧
          tree.replaceable moved (targetDir ++ [targetName]) = .ok ()) ∧
        after = tree.move (sourceDir ++ [sourceName]) (targetDir ++ [targetName])) := by
  rw [rename] at h
  obtain ⟨-, h⟩ := ok_of_guard h
  obtain ⟨⟨sourceDir, sourceLast⟩, hsource, h⟩ := ok_of_bind h
  obtain ⟨⟨targetDir, targetLast⟩, htarget, h⟩ := ok_of_bind h
  cases sourceLast with
  | name sourceName =>
    cases targetLast with
    | name targetName =>
      refine ⟨sourceDir, sourceName, targetDir, targetName, hsource, htarget, ?_⟩
      obtain ⟨-, h⟩ := ok_of_guard h
      dsimp only at h
      cases hget : tree.get? (sourceDir ++ [sourceName]) with
      | none =>
        rw [hget] at h
        cases h
      | some moved =>
        rw [hget] at h
        obtain ⟨-, h⟩ := ok_of_guard h
        obtain ⟨-, h⟩ := ok_of_guard h
        obtain ⟨hin, h⟩ := ok_of_guard h
        obtain ⟨hout, h⟩ := ok_of_guard h
        rw [List.isPrefixOf_iff_prefix] at hin hout
        split_ifs at h with heq
        · exact .inl ⟨heq, (Except.ok.inj h).symm⟩
        · obtain ⟨_, hmay, h⟩ := ok_of_bind h
          exact .inr ⟨hin, hout, heq, ⟨moved, rfl, hmay⟩, (Except.ok.inj h).symm⟩
    | root => cases h
    | here => cases h
    | up => cases h
  | root => cases h
  | here => cases h
  | up => cases h

theorem walk_of_seek {spot : Spot} (h : tree.seek cwd path follow = .ok spot) :
    tree.walk follow Path.linkLimit (path.start cwd) path.steps = .ok spot := by
  rw [seek] at h
  obtain ⟨-, -, h⟩ := ok_of_bind h
  cases hwalk : tree.walk follow Path.linkLimit (path.start cwd) path.steps with
  | error code =>
    rw [hwalk] at h
    cases h
  | ok spot =>
    rw [hwalk] at h
    obtain rfl := Except.ok.inj h
    rfl

theorem get?_of_seek {entry : Entry} (hentry : entry ≠ .directory)
    (h : tree.seek cwd path follow = .ok (.found place entry)) : tree.get? place = some entry :=
  get?_of_walk hentry (walk_of_seek h)

theorem writeFile_eq_ok {content : List UInt8} (h : tree.writeFile cwd path content = .ok after) :
    ∃ place, place ≠ [] ∧ after = tree.insert place (.file content) := by
  rw [writeFile] at h
  split_ifs at h
  · obtain ⟨-, -, h⟩ := ok_of_bind h
    cases h
  · obtain ⟨spot, hseek, h⟩ := ok_of_bind h
    cases spot with
    | missing parent name => exact ⟨parent ++ [name], by simp, (Except.ok.inj h).symm⟩
    | found place entry =>
      cases entry with
      | file old =>
        refine ⟨place, ?_, (Except.ok.inj h).symm⟩
        have hget := get?_of_seek (by simp) hseek
        rintro rfl
        cases hget
      | directory => cases h
      | link target => cases h

theorem makeLink_eq_ok {target : Path} (h : tree.makeLink cwd target path = .ok after) :
    ∃ place, place ≠ [] ∧ after = tree.insert place (.link target) := by
  rw [makeLink] at h
  obtain ⟨-, h⟩ := ok_of_guard h
  obtain ⟨-, -, h⟩ := ok_of_bind h
  obtain ⟨⟨dir, last⟩, -, h⟩ := ok_of_bind h
  cases last with
  | name name =>
    refine ⟨dir ++ [name], by simp, ?_⟩
    dsimp only at h
    split_ifs at h
    all_goals
      split at h
      all_goals first | exact (Except.ok.inj h).symm | cases h
  | root => cases h
  | here => cases h
  | up => cases h

/-- What a request can do to a tree. -/
inductive Edit (tree : Tree) : Tree → Prop
  | none : Edit tree tree
  | put {place : Place} (entry : Entry) : place ≠ [] → Edit tree (tree.insert place entry)
  | remove (place : Place) : Edit tree (tree.erase place)
  | move (source : Place) {target : Place} : target ≠ [] → Edit tree (tree.move source target)

theorem Ordered.edit (h : tree.Ordered) (hedit : tree.Edit after) : after.Ordered := by
  cases hedit with
  | none => exact h
  | put entry hne => exact h.insert hne entry
  | remove place => exact h.erase place
  | move source hne => exact h.move hne

end DirLock.Disk.Tree
