import DirLock.Proofs.Disk.Plot

/-!
# Directories without what is in them

A directory is removed entry by entry, from the last one listed to the first, which is the directory
itself. The way to it has to stand all the time: it may lead to the directory and away from it, but not
through what is inside.
-/

namespace DirLock.Disk.Tree

/-- The tree with an empty directory in place of what stands at the place. -/
def hollow (tree : Tree) (place : Place) : Tree := (tree.prune place).insert place .directory

variable {tree after : Tree} {cwd dir place q : Place} {path : Path} {name : Name}
  {front : List (Place × Entry)} {last : Place × Entry}

theorem hollow_within (hne : place ≠ []) (h : tree.get? place = some .directory) :
    (tree.hollow place).Within tree := by
  intro q entry hget
  rw [hollow, get?_insert hne] at hget
  split_ifs at hget with heq
  · rw [← heq, h, hget]
  · by_cases hq : q = []
    · simpa [hq] using hget
    · rw [get?_prune _ hq] at hget
      split_ifs at hget
      exact hget

theorem get?_hollow (hne : place ≠ []) (hq : ¬ place <+: q) :
    (tree.hollow place).get? q = tree.get? q := by
  have hother : place ≠ q := by
    rintro rfl
    exact hq (List.prefix_refl _)
  by_cases hroot : q = []
  · simp [hroot]
  · rw [hollow, get?_insert hne, if_neg hother, get?_prune _ hroot, if_neg]
    rwa [List.isPrefixOf_iff_prefix]

theorem get?_hollow_self (hne : place ≠ []) : (tree.hollow place).get? place = some .directory := by
  rw [hollow, get?_insert hne, if_pos rfl]

theorem prune_erase (h : place <+: q) : (tree.erase q).prune place = tree.prune place := by
  rw [prune, prune, erase, List.filter_filter]
  congr 1
  refine List.filter_congr fun e _ => ?_
  by_cases he : e.1 = q
  · simp [he, List.isPrefixOf_iff_prefix.2 h]
  · simp [he]

theorem hollow_erase (h : place <+: q) : (tree.erase q).hollow place = tree.hollow place := by
  rw [hollow, hollow, prune_erase h]

theorem prune_of_under_eq_nil (h : tree.under place = []) : tree.prune place = tree := by
  obtain ⟨entries⟩ := tree
  rw [under, List.filter_eq_nil_iff] at h
  rw [prune]
  congr 1
  refine List.filter_eq_self.2 fun e he => ?_
  rw [Bool.eq_false_iff.2 (h e he)]
  rfl

/-! ## The last entry that is listed -/

section Last

variable (hsound : tree.Sound) (hunder : tree.under place = front ++ [last])
include hunder

theorem mem_under_last : last ∈ tree.under place := by
  rw [hunder]
  simp

include hsound

theorem lt_last {e : Place × Entry} (he : e ∈ front) : e.1 < last.1 := by
  have hsorted : (tree.under place).Pairwise fun a b => a.1 < b.1 := hsound.sorted.filter _
  rw [hunder, List.pairwise_append] at hsorted
  exact hsorted.2.2 e he last (by simp)

theorem get?_last_append (name : Name) : tree.get? (last.1 ++ [name]) = none := by
  rw [Option.eq_none_iff_forall_ne_some]
  intro entry hget
  obtain ⟨-, hpre, -⟩ := hsound.mem_under_iff.1 (mem_under_last hunder)
  have hmem : (last.1 ++ [name], entry) ∈ tree.under place :=
    hsound.mem_under_iff.2 ⟨by simp, hpre.trans (List.prefix_append _ _), hget⟩
  have hlonger : last.1 < last.1 ++ [name] := by
    have hlt : last.1 ++ [] < last.1 ++ [name] := List.append_left_lt (List.nil_lt_cons _ _)
    simpa using hlt
  rw [hunder, List.mem_append, List.mem_singleton] at hmem
  rcases hmem with hmem | heq
  · exact List.lt_irrefl _ (List.lt_trans hlonger (lt_last hsound hunder hmem))
  · have := congrArg (fun e => e.1.length) heq
    simp at this

theorem under_erase_last : (tree.erase last.1).under place = front := by
  have hkept : front.filter (fun e => e.1 ≠ last.1) = front := by
    refine List.filter_eq_self.2 fun e he => ?_
    have hlt := lt_last hsound hunder he
    simp only [ne_eq, decide_not, Bool.not_eq_eq_eq_not, Bool.not_true, decide_eq_false_iff_not]
    intro heq
    rw [heq] at hlt
    exact List.lt_irrefl _ hlt
  have hcomm : (tree.erase last.1).under place = (tree.under place).filter fun e => e.1 ≠ last.1 := by
    rw [under, under, erase, List.filter_filter, List.filter_filter]
    exact List.filter_congr fun e _ => Bool.and_comm _ _
  rw [hcomm, hunder, List.filter_append, hkept]
  simp

theorem sound_erase_last : (tree.erase last.1).Sound :=
  hsound.erase fun name => get?_last_append hsound hunder name

end Last

/-! ## Removing the last entry -/

theorem removalsOf_concat (path : Path) (place : Place) (front : List (Place × Entry))
    (last : Place × Entry) :
    removalsOf path place (front ++ [last]) =
      (if last.2 = .directory then .removeDirectory path (last.1.drop place.length)
        else .unlink path (last.1.drop place.length)) :: removalsOf path place front := by
  simp [removalsOf]

section Step

variable (hsound : tree.Sound) (hnames : (tree.hollow (dir ++ [name])).Names cwd path dir name)
  (hfit : Fits path name) (hdirectory : tree.get? (dir ++ [name]) = some .directory)
  (hunder : tree.under (dir ++ [name]) = front ++ [last])
include hsound hnames hfit hdirectory hunder

theorem removeInside_last (hlast : last.2 = .directory) :
    tree.removeInside cwd path (last.1.drop (dir ++ [name]).length) = .ok (tree.erase last.1) := by
  have hnames := hnames.mono (hollow_within (by simp) hdirectory)
  obtain ⟨-, ⟨inside, hinside⟩, hget⟩ := hsound.mem_under_iff.1 (mem_under_last hunder)
  have hbare : tree.isBare last.1 = true := (isBare_iff _ _).2 (get?_last_append hsound hunder)
  rw [← hinside, List.drop_left, removeInside]
  rw [← hinside] at hget hbare
  by_cases hnil : inside = []
  · rw [if_pos hnil]
    subst hnil
    rw [List.append_nil] at hbare ⊢
    exact hnames.removeDirectory_of_bare hfit hdirectory hbare
  · rw [if_neg hnil, hnames.seekInside_eq hfit hdirectory]
    simp only [bind, Except.bind, hget, hlast, hbare, if_true]
    rfl

theorem unlinkInside_last (hlast : last.2 ≠ .directory) :
    tree.unlinkInside cwd path (last.1.drop (dir ++ [name]).length) = .ok (tree.erase last.1) := by
  have hnames := hnames.mono (hollow_within (by simp) hdirectory)
  obtain ⟨-, ⟨inside, hinside⟩, hget⟩ := hsound.mem_under_iff.1 (mem_under_last hunder)
  rw [← hinside, List.drop_left, unlinkInside]
  rw [← hinside] at hget
  have hnil : inside ≠ [] := by
    rintro rfl
    rw [List.append_nil, hdirectory] at hget
    exact hlast (Option.some.inj hget).symm
  rw [if_neg hnil, hnames.seekInside_eq hfit hdirectory]
  simp only [bind, Except.bind, hget]
  cases hentry : last.2 with
  | directory => exact absurd hentry hlast
  | file content => rfl
  | link target => rfl

end Step

end DirLock.Disk.Tree
