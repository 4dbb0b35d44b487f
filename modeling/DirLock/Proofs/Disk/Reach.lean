import DirLock.Disk.Operation
import DirLock.Proofs.Disk.Outcome

/-!
# What stands where a path leads

Requests do not take a path that is too long for them, and they give up on one that leads through too many links. What
stands at the end of such a path stands there all the same. So whether there is an entry is one question, with any
number of links allowed (`HasEntry`), and whether a look-up finds one is another (`Finds`). A look-up that gets through
with some number of links gets through with more (`walk_of_le`), so the two agree where requests can follow the path.
-/

namespace DirLock.Disk.Tree

variable {tree : Tree} {links more left : Nat} {cwd cur place dir : Place} {path base : Path} {names : List Name}
  {name : Name} {follow : Bool}

/-- An entry of any kind stands where the path leads, however long the path is and through however many links it goes.
A link at the end of the path is such an entry. -/
def HasEntry (tree : Tree) (cwd : Place) (path : Path) : Prop :=
  ∃ links place entry, tree.walk false links (path.start cwd) path.steps = .ok (.found place entry)

/-- A look-up of the path finds an entry of any kind. -/
def Finds (tree : Tree) (cwd : Place) (path : Path) : Prop :=
  ∃ place entry, tree.seek cwd path false = .ok (.found place entry)

/-- Requests can follow the path: they take it, and it does not go through too many links. -/
structure Follows (tree : Tree) (cwd : Place) (path : Path) : Prop where
  check : path.check = .ok ()
  walk : tree.walk true Path.linkLimit (path.start cwd) path.steps ≠ .error .loop

/-! ## More links -/

theorem walkWith_congr {again again' : Place → Path → List Name → Except Errno Spot}
    (hagain : ∀ cur target rest, again cur target rest ≠ .error .loop → again' cur target rest = again cur target rest)
    (h : tree.walkWith again follow cur names ≠ .error .loop) :
    tree.walkWith again' follow cur names = tree.walkWith again follow cur names := by
  induction names generalizing cur with
  | nil => rfl
  | cons name rest ih =>
    rw [walkWith.eq_def] at h ⊢
    rw [walkWith.eq_def again]
    dsimp only at h ⊢
    by_cases hdot : name = Path.dot
    · rw [if_pos hdot] at h ⊢
      rw [if_pos hdot]
      exact ih h
    by_cases hup : name = Path.dotDot
    · rw [if_neg hdot, if_pos hup] at h ⊢
      rw [if_neg hdot, if_pos hup]
      exact ih h
    by_cases hlong : name.length > Path.longestName
    · rw [if_neg hdot, if_neg hup, if_pos hlong, if_neg hdot, if_neg hup, if_pos hlong]
    rw [if_neg hdot, if_neg hup, if_neg hlong] at h ⊢
    rw [if_neg hdot, if_neg hup, if_neg hlong]
    cases hget : tree.get? (cur ++ [name]) with
    | none => cases rest <;> rfl
    | some entry =>
      rw [hget] at h
      cases entry with
      | file content => cases rest <;> rfl
      | directory => exact ih (by cases rest <;> exact h)
      | link target =>
        cases rest with
        | nil =>
          cases follow with
          | false => rfl
          | true => exact hagain _ _ _ h
        | cons next rest => exact hagain _ _ _ h

/-- What is found with some number of links is found with more. -/
theorem walk_of_le (hle : links ≤ more) (h : tree.walk follow links cur names ≠ .error .loop) :
    tree.walk follow more cur names = tree.walk follow links cur names := by
  induction links generalizing more cur names with
  | zero =>
    cases more with
    | zero => rfl
    | succ more => exact walkWith_congr (fun _ _ _ hne => absurd rfl hne) h
  | succ links ih =>
    obtain ⟨more, rfl⟩ := Nat.exists_eq_add_of_lt hle
    exact walkWith_congr (fun _ _ _ hne => ih (by omega) hne) h

theorem walk_eq_of_ne_loop (h : tree.walk follow links cur names ≠ .error .loop)
    (h' : tree.walk follow more cur names ≠ .error .loop) :
    tree.walk follow links cur names = tree.walk follow more cur names := by
  rcases Nat.le_total links more with hle | hle
  · exact (walk_of_le hle h).symm
  · exact walk_of_le hle h'

/-! ## Entries below a path -/

theorem leads_of_walk_join (hname : Path.IsName name) {entry : Entry}
    (h : tree.walk false links ((base.join ⟨name⟩).start cwd) (base.join ⟨name⟩).steps = .ok (.found place entry)) :
    name.length ≤ Path.longestName ∧ ∃ left dir, tree.Leads links (base.start cwd) base.names left dir ∧
      tree.get? (dir ++ [name]) ≠ none := by
  rw [Path.steps, Path.endsInSlash_join hname, if_neg Bool.false_ne_true, Path.names_join hname,
    Path.start_join hname] at h
  obtain ⟨left, dir, hleads⟩ := leads_of_walk_append (List.cons_ne_nil name []) h
  rw [walk_append hleads (.inl (List.cons_ne_nil name [])), walk_cons, if_neg hname.ne_dot,
    if_neg hname.ne_dotDot] at h
  split_ifs at h with hlong
  refine ⟨Nat.not_lt.1 hlong, left, dir, hleads, fun hnone => ?_⟩
  rw [hnone] at h
  cases h

theorem Finds.hasEntry (h : tree.Finds cwd path) : tree.HasEntry cwd path := by
  obtain ⟨place, entry, hseek⟩ := h
  exact ⟨_, place, entry, walk_of_seek hseek⟩

theorem finds_of_ok {kind : EntryKind} (h : tree.entryKind cwd path = .ok kind) : tree.Finds cwd path := by
  obtain ⟨spot, hseek, hspot⟩ := ok_of_bind h
  cases spot with
  | missing parent name => cases hspot
  | found place entry => exact ⟨place, entry, hseek⟩

theorem Finds.entryKind_ne_error (h : tree.Finds cwd path) (fault : Fault) :
    tree.entryKind cwd path ≠ .error fault := by
  obtain ⟨place, entry, hseek⟩ := h
  rw [entryKind, hseek]
  exact fun h => by cases h

theorem Finds.exists_leads (h : tree.Finds cwd (base.join ⟨name⟩)) (hname : Path.IsName name) :
    name.length ≤ Path.longestName ∧ ∃ left dir, tree.Leads Path.linkLimit (base.start cwd) base.names left dir ∧
      tree.get? (dir ++ [name]) ≠ none := by
  obtain ⟨place, entry, hseek⟩ := h
  exact leads_of_walk_join hname (walk_of_seek hseek)

theorem walk_ok_of_leads (h : tree.Leads links cur names left place) :
    tree.walk true links cur names = .ok (.found place .directory) := by
  have hwalk := walk_append h (.inr rfl : ([] : List Name) ≠ [] ∨ true = true)
  rwa [List.append_nil, walk_nil] at hwalk

/-- An entry stands in a directory, and requests find the directory if they can follow the path in front of the
entry's name. -/
theorem HasEntry.isDirectory (h : tree.HasEntry cwd (base.join ⟨name⟩)) (hname : Path.IsName name)
    (hfollows : tree.Follows cwd base) : tree.isDirectory cwd base = true := by
  obtain ⟨links, place, entry, hwalk⟩ := h
  obtain ⟨-, left, dir, hleads, -⟩ := leads_of_walk_join hname hwalk
  have hsteps : tree.walk true links (base.start cwd) base.steps = .ok (.found dir .directory) := by
    rw [Path.steps]
    split_ifs
    · rw [walk_append hleads (.inr rfl), walk_dot, walk_nil]
    · exact walk_ok_of_leads hleads
  have hfound := (walk_eq_of_ne_loop (by rw [hsteps]; exact fun h => by cases h) hfollows.walk).symm.trans hsteps
  rw [Tree.isDirectory, targetKind, seek, hfollows.check, hfound]
  rfl

theorem not_hasEntry_of_notFound (hname : Path.IsName name) (hleads : tree.LeadsTo cwd base dir) {fault : Fault}
    (hfault : tree.entryKind cwd (base.join ⟨name⟩) = .error fault) (hkind : fault.kind = .notFound) :
    ¬ tree.HasEntry cwd (base.join ⟨name⟩) := by
  rintro ⟨links, place, entry, hwalk⟩
  obtain ⟨-, left, other, hother, hget⟩ := leads_of_walk_join hname hwalk
  have hsame := walk_eq_of_ne_loop (by rw [walk_ok_of_leads hother]; exact fun h => by cases h)
    (show tree.walk true Path.linkLimit (base.start cwd) base.names ≠ .error .loop by
      rw [hleads]; exact fun h => by cases h)
  rw [walk_ok_of_leads hother, hleads] at hsame
  obtain ⟨rfl, -⟩ := Spot.found.inj (Except.ok.inj hsame)
  obtain ⟨_, hleads⟩ := hleads.leads
  exact hget ((hleads.leadsTo.names_join hname).entryKind_eq_notFound (Path.bytes_join_ne_nil hname base) hfault
    hkind).2

end DirLock.Disk.Tree
