import DirLock.Proofs.Disk.Outcome
import DirLock.Proofs.Disk.Plot

/-!
# Ways that do not come by a place

A way that nobody who made it knew the name of a place does not come by the place: neither the names that
are followed nor the links on the way have that name. Such a way is the same whatever stands there.
-/

namespace DirLock.Disk.Tree

/-- No link of the tree has the name in its target. -/
def Unaware (tree : Tree) (name : Name) : Prop :=
  ∀ q target, tree.get? q = some (.link target) → name ∉ target.names

variable {ground tree : Tree} {cwd dir dir' : Place} {path : Path} {name name' : Name} {follow : Bool}
  {links : Nat}

theorem Names.leadsTo_of_join (h : tree.Names cwd (path.join ⟨name⟩) dir name) :
    tree.LeadsTo cwd path dir := by
  obtain ⟨front, left, hnames, hleads⟩ := h.names_eq
  rw [Path.names_join h.isName] at hnames
  obtain rfl := List.append_cancel_right hnames
  rw [Path.start_join h.isName] at hleads
  exact hleads.leadsTo

theorem not_mem_steps (hname : Path.IsName name) (h : name ∉ path.names) : name ∉ path.steps := by
  rw [Path.steps]
  split_ifs
  · simp [h, hname.ne_dot]
  · exact h

theorem not_prefix_start (hcwd : ¬ dir ++ [name] <+: cwd) (path : Path) :
    ¬ dir ++ [name] <+: path.start cwd := by
  unfold Path.start
  split_ifs
  · simp
  · exact hcwd

/-- A way on which the name does not occur is the same in both trees, if they differ at the place of this
name only. -/
theorem ChangesOn.walk_eq (h : ChangesOn (dir ++ [name]) ground tree) (hname : Path.IsName name)
    (hlinks : ground.Unaware name) {cur : Place} (hcur : ¬ dir ++ [name] <+: cur) {names : List Name}
    (hnames : name ∉ names) :
    tree.walk follow links cur names = ground.walk follow links cur names := by
  -- A link puts its target in front of the names, but it also uses up one of the links that are left.
  induction links using Nat.strongRecOn generalizing cur names with
  | ind links ihlinks =>
    induction names generalizing cur with
    | nil => rw [walk_nil, walk_nil]
    | cons next rest ih =>
      obtain ⟨hne, hrest⟩ := not_or.1 (fun hmem => hnames (List.mem_cons.2 hmem))
      have hapart : ¬ dir ++ [name] <+: cur ++ [next] := by
        intro hpre
        by_cases heq : dir ++ [name] = cur ++ [next]
        · exact hne (List.cons.inj (List.append_inj' heq rfl).2).1
        · have hup := prefix_dropLast hpre heq
          rw [List.dropLast_concat] at hup
          exact hcur hup
      rw [walk_cons, walk_cons, h _ hapart]
      split_ifs
      · exact ih hcur hrest
      · exact ih (fun hpre => hcur (hpre.trans (List.dropLast_prefix cur))) hrest
      · rfl
      · cases hget : ground.get? (cur ++ [next]) with
        | none => cases rest <;> rfl
        | some entry =>
          cases entry with
          | file content => cases rest <;> rfl
          | directory => exact ih hapart hrest
          | link target =>
            dsimp only
            split_ifs
            · rfl
            · cases links with
              | zero => rfl
              | succ links =>
                refine ihlinks links (Nat.lt_succ_self links) (not_prefix_start hcur target) ?_
                rw [List.mem_append, not_or]
                exact ⟨not_mem_steps hname (hlinks _ _ hget), hrest⟩

theorem ChangesOn.seekParent_eq (h : ChangesOn (dir ++ [name]) ground tree) (hname : Path.IsName name)
    (hlinks : ground.Unaware name) (hcwd : ¬ dir ++ [name] <+: cwd) (hpath : name ∉ path.names.dropLast) :
    tree.seekParent cwd path = ground.seekParent cwd path := by
  have hsteps : name ∉ path.names.dropLast ++ [Path.dot] := by
    simpa [hname.ne_dot] using hpath
  rw [seekParent, seekParent, h.walk_eq hname hlinks (not_prefix_start hcwd path) hsteps]

end DirLock.Disk.Tree
