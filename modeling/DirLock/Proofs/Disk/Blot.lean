import DirLock.Proofs.Disk.Written

/-!
# Trees that differ at one place

Two trees have the same entries but for one place, at which each has a file or nothing. A way is the same
in both as long as it does not end at that place, and if it fails in one of them it fails in the other.
-/

namespace DirLock.Disk.Tree

/-- The trees have the same entries but for one place, at which each has a file or nothing. -/
structure SameBut (place : Place) (tree tree' : Tree) : Prop where
  get?_eq : ∀ q, q ≠ place → tree.get? q = tree'.get? q
  plain : tree.get? place = none ∨ ∃ content, tree.get? place = some (.file content)
  plain' : tree'.get? place = none ∨ ∃ content, tree'.get? place = some (.file content)

/-- No link of the tree leads to the place. -/
def Unlinked (tree : Tree) (place : Place) : Prop :=
  ∀ dir name target, tree.get? (dir ++ [name]) = some (.link target) →
    ∀ links spot, tree.walk true links (target.start dir) target.steps = .ok spot → ¬ IsFileAt place spot

/-- Two ways are the same, both fail, or both end at the place. -/
inductive WaysApart (place : Place) : Except Errno Spot → Except Errno Spot → Prop
  | same (result : Except Errno Spot) : WaysApart place result result
  | fail (code code' : Errno) : WaysApart place (.error code) (.error code')
  | meet {spot spot' : Spot} : IsFileAt place spot → IsFileAt place spot' →
    WaysApart place (.ok spot) (.ok spot')

variable {tree tree' : Tree} {place cwd dir : Place} {path : Path} {name child : Name}

theorem Ordered.unlinked (h : tree.Ordered) (hlinks : ∀ e ∈ tree.entries, e.2.kind ≠ .link)
    (place : Place) : tree.Unlinked place := fun _ _ _ hget =>
  absurd rfl (hlinks _ (h.mem_entries_iff.2 ⟨by simp, hget⟩))

namespace SameBut

theorem ne_nil (h : SameBut place tree tree') : place ≠ [] := by
  rintro rfl
  rcases h.plain with hnone | ⟨content, hfile⟩
  · cases hnone
  · cases hfile

theorem ends_of_plain {cur : Place} {follow : Bool} {links : Nat}
    (hplain : tree.get? (cur ++ [name]) = none ∨ ∃ content, tree.get? (cur ++ [name]) = some (.file content))
    (hdot : name ≠ Path.dot) (hup : name ≠ Path.dotDot) (hlen : name.length ≤ Path.longestName) :
    ∃ spot, tree.walk follow links cur [name] = .ok spot ∧ IsFileAt (cur ++ [name]) spot := by
  rcases hplain with hnone | ⟨content, hfile⟩
  · exact ⟨_, walk_missing hdot hup hlen hnone, .inr ⟨cur, name, rfl, rfl⟩⟩
  · exact ⟨_, walk_file hdot hup hlen hfile, .inl ⟨content, rfl⟩⟩

theorem fails_of_plain {cur : Place} {follow : Bool} {links : Nat} {more : List Name} (hmore : more ≠ [])
    (hplain : tree.get? (cur ++ [name]) = none ∨ ∃ content, tree.get? (cur ++ [name]) = some (.file content))
    (hdot : name ≠ Path.dot) (hup : name ≠ Path.dotDot) (hlen : name.length ≤ Path.longestName) :
    ∃ code, tree.walk follow links cur (name :: more) = .error code := by
  obtain ⟨next, rest, rfl⟩ := List.exists_cons_of_ne_nil hmore
  rcases hplain with hnone | ⟨content, hfile⟩
  · exact ⟨_, walk_missing_on_way hdot hup hlen hnone (List.cons_ne_nil _ _)⟩
  · refine ⟨.notDirectory, ?_⟩
    rw [walk_cons, if_neg hdot, if_neg hup, if_neg (Nat.not_lt.2 hlen), hfile]

theorem walk (h : SameBut place tree tree') (follow : Bool) (links : Nat) (cur : Place)
    (names : List Name) :
    WaysApart place (tree.walk follow links cur names) (tree'.walk follow links cur names) := by
  induction links using Nat.strongRecOn generalizing cur names with
  | ind links ihlinks =>
    induction names generalizing cur with
    | nil =>
      rw [walk_nil, walk_nil]
      exact .same _
    | cons name names ih =>
      by_cases hdot : name = Path.dot
      · rw [hdot, walk_dot, walk_dot]
        exact ih _
      by_cases hup : name = Path.dotDot
      · rw [hup, walk_dotDot, walk_dotDot]
        exact ih _
      by_cases hlong : name.length > Path.longestName
      · rw [walk_long hdot hup hlong, walk_long hdot hup hlong]
        exact .same _
      have hlen := Nat.not_lt.1 hlong
      by_cases hat : cur ++ [name] = place
      · subst hat
        cases names with
        | nil =>
          obtain ⟨spot, hwalk, hends⟩ := ends_of_plain h.plain hdot hup hlen
          obtain ⟨spot', hwalk', hends'⟩ := ends_of_plain h.plain' hdot hup hlen
          rw [hwalk, hwalk']
          exact .meet hends hends'
        | cons next rest =>
          obtain ⟨code, hwalk⟩ := fails_of_plain (List.cons_ne_nil next rest) h.plain hdot hup hlen
          obtain ⟨code', hwalk'⟩ := fails_of_plain (List.cons_ne_nil next rest) h.plain' hdot hup hlen
          rw [hwalk, hwalk']
          exact .fail code code'
      · rw [walk_cons, walk_cons, h.get?_eq _ hat, if_neg hdot, if_neg hup, if_neg hlong, if_neg hdot,
          if_neg hup, if_neg hlong]
        rcases tree'.get? (cur ++ [name]) with _ | (content | _ | target)
        · cases names <;> exact .same _
        · cases names <;> exact .same _
        · exact ih _
        · dsimp only
          split_ifs
          · exact .same _
          · cases links with
            | zero => exact .same _
            | succ links => exact ihlinks links (Nat.lt_succ_self links) _ _

theorem leadsTo (h : SameBut place tree tree') (hleads : tree.LeadsTo cwd path dir) :
    tree'.LeadsTo cwd path dir := by
  have hways := h.walk true Path.linkLimit (path.start cwd) path.names
  rw [LeadsTo] at hleads
  rw [LeadsTo]
  generalize tree.walk true Path.linkLimit (path.start cwd) path.names = result,
    tree'.walk true Path.linkLimit (path.start cwd) path.names = result' at hways hleads
  cases hways with
  | same => exact hleads
  | fail => cases hleads
  | meet hends =>
    obtain rfl := Except.ok.inj hleads
    rcases hends with ⟨content, hspot⟩ | ⟨dir, name, hspot, -⟩ <;> cases hspot

/-- The way to another file of a directory does not end at the place, unless the file is a link to it. -/
theorem not_isFileAt_of_seek (hunlinked : tree.Unlinked place) (hnames : tree.Names cwd path dir name)
    (hdirectory : tree.get? (dir ++ [name]) = some .directory) (hchild : Path.IsName child)
    (hne : dir ++ [name] ++ [child] ≠ place) {spot : Spot}
    (hseek : tree.seek cwd (path.join ⟨child⟩) true = .ok spot) : ¬ IsFileAt place spot := by
  have hshort : name.length ≤ Path.longestName := by
    by_contra hlong
    obtain ⟨fault, herror⟩ := hnames.seek_join_of_long true (Nat.not_le.1 hlong) hchild
    rw [herror] at hseek
    cases hseek
  have hnot : ∀ entry, ¬ IsFileAt place (.found (dir ++ [name] ++ [child]) entry) := by
    rintro entry (⟨content, hspot⟩ | ⟨_, _, hspot, -⟩)
    · cases hspot
      exact hne rfl
    · cases hspot
  obtain ⟨left, hway⟩ := (hnames.join hshort hdirectory hchild).seek_eq
  rw [hway] at hseek
  obtain ⟨-, -, hseek⟩ := ok_of_bind hseek
  cases hwalk : tree.walk true left (dir ++ [name]) [child] with
  | error code =>
    rw [hwalk] at hseek
    cases hseek
  | ok found =>
    rw [hwalk] at hseek
    obtain rfl := Except.ok.inj hseek
    rw [walk_cons, if_neg hchild.ne_dot, if_neg hchild.ne_dotDot] at hwalk
    split_ifs at hwalk
    cases hget : tree.get? (dir ++ [name] ++ [child]) with
    | none =>
      rw [hget] at hwalk
      obtain rfl := Except.ok.inj hwalk
      rintro (⟨content, hspot⟩ | ⟨_, _, hspot, hplace⟩)
      · cases hspot
      · cases hspot
        exact hne hplace.symm
    | some entry =>
      rw [hget] at hwalk
      cases entry with
      | file content =>
        obtain rfl := Except.ok.inj hwalk
        exact hnot _
      | directory =>
        dsimp only at hwalk
        rw [walk_nil] at hwalk
        obtain rfl := Except.ok.inj hwalk
        exact hnot _
      | link target =>
        dsimp only at hwalk
        rw [if_neg (by simp)] at hwalk
        cases left with
        | zero => cases hwalk
        | succ left =>
          dsimp only at hwalk
          rw [List.append_nil] at hwalk
          exact hunlinked _ _ _ hget _ _ hwalk

theorem readFile_join (h : SameBut place tree tree') (hunlinked : tree.Unlinked place)
    (hnames : tree.Names cwd path dir name) (hdirectory : tree.get? (dir ++ [name]) = some .directory)
    (hchild : Path.IsName child) (hne : dir ++ [name] ++ [child] ≠ place) (content : List UInt8) :
    tree.readFile cwd (path.join ⟨child⟩) = .ok content ↔
      tree'.readFile cwd (path.join ⟨child⟩) = .ok content := by
  have hnot := fun spot => @not_isFileAt_of_seek tree place cwd dir path name child hunlinked hnames
    hdirectory hchild hne spot
  rw [readFile, readFile]
  simp only [seek] at hnot ⊢
  cases hcheck : (path.join ⟨child⟩).check with
  | error fault => exact iff_of_false (fun h => by cases h) fun h => by cases h
  | ok checked =>
    rw [hcheck] at hnot
    have hways := h.walk true Path.linkLimit ((path.join ⟨child⟩).start cwd) (path.join ⟨child⟩).steps
    generalize tree.walk true Path.linkLimit ((path.join ⟨child⟩).start cwd) (path.join ⟨child⟩).steps =
      result, tree'.walk true Path.linkLimit ((path.join ⟨child⟩).start cwd)
        (path.join ⟨child⟩).steps = result' at hways hnot
    cases hways with
    | same => exact .rfl
    | fail => exact iff_of_false (fun h => by cases h) fun h => by cases h
    | meet hends => exact absurd hends (hnot _ rfl)

end SameBut

end DirLock.Disk.Tree
