import DirLock.Disk.Operation
import Mathlib.Data.List.Induction

/-!
# Sound trees

A tree is ordered if its entries are listed in strictly increasing order of their places and the root
is not among them; it is sound if moreover everything stands in a directory. What changes a tree
keeps it sound. What stands at a place and below it is read off `below`, which forgets where the
place is.
-/

namespace DirLock.Disk.Tree

/-- The entries are listed as trees list them. -/
structure Ordered (tree : Tree) : Prop where
  sorted : tree.entries.Pairwise fun a b => a.1 < b.1
  rootless : ∀ e ∈ tree.entries, e.1 ≠ []

/-- The tree is ordered, and whatever stands in it stands in a directory. -/
structure Sound (tree : Tree) : Prop extends Ordered tree where
  closed : ∀ e ∈ tree.entries, tree.get? e.1.dropLast = some .directory

/-- What stands at the place and below it, by the names that lead there from the place. -/
def below (tree : Tree) (place : Place) (rest : List Name) : Option Entry :=
  tree.get? (place ++ rest)

variable {tree : Tree} {place : Place} {entry : Entry}

/-! ## The list and the view -/

theorem lookup_isSome_iff (entries : List (Place × Entry)) :
    (lookup place entries).isSome = true ↔ ∃ e, (place, e) ∈ entries := by
  induction entries with
  | nil => simp [lookup]
  | cons first rest ih =>
    obtain ⟨p, e⟩ := first
    by_cases hp : p = place
    · subst hp
      simp only [lookup, if_true, Option.isSome_some, true_iff]
      exact ⟨e, by simp⟩
    · rw [lookup, if_neg hp, ih]
      simp [Ne.symm hp]

theorem lookup_eq_some_iff {entries : List (Place × Entry)}
    (hsorted : entries.Pairwise fun a b => a.1 < b.1) :
    lookup place entries = some entry ↔ (place, entry) ∈ entries := by
  induction entries with
  | nil => simp [lookup]
  | cons first rest ih =>
    obtain ⟨p, e⟩ := first
    rw [List.pairwise_cons] at hsorted
    by_cases hp : p = place
    · subst hp
      have hnot : (p, entry) ∉ rest := fun hmem => List.lt_irrefl p (hsorted.1 _ hmem)
      simp [lookup, hnot, eq_comm]
    · rw [lookup, if_neg hp, ih hsorted.2]
      simp [Ne.symm hp]

@[simp] theorem get?_nil (tree : Tree) : tree.get? [] = some .directory := rfl

theorem Ordered.mem_entries_iff (h : tree.Ordered) :
    (place, entry) ∈ tree.entries ↔ place ≠ [] ∧ tree.get? place = some entry := by
  constructor
  · intro hmem
    have hne := h.rootless _ hmem
    exact ⟨hne, by rw [get?, if_neg hne]; exact (lookup_eq_some_iff h.sorted).2 hmem⟩
  · rintro ⟨hne, hget⟩
    rw [get?, if_neg hne] at hget
    exact (lookup_eq_some_iff h.sorted).1 hget

theorem Ordered.mem_under_iff (h : tree.Ordered) {q : Place} :
    (q, entry) ∈ tree.under place ↔ q ≠ [] ∧ place <+: q ∧ tree.get? q = some entry := by
  rw [under, List.mem_filter, h.mem_entries_iff, List.isPrefixOf_iff_prefix]
  tauto

theorem eq_of_sorted {l₁ l₂ : List (Place × Entry)} (h₁ : l₁.Pairwise fun a b => a.1 < b.1)
    (h₂ : l₂.Pairwise fun a b => a.1 < b.1) (hmem : ∀ e, e ∈ l₁ ↔ e ∈ l₂) : l₁ = l₂ := by
  have hnodup : ∀ {l : List (Place × Entry)}, l.Pairwise (fun a b => a.1 < b.1) → l.Nodup := by
    intro l hl
    refine hl.imp fun {a b} hab heq => ?_
    subst heq
    exact List.lt_irrefl a.1 hab
  refine List.Perm.eq_of_pairwise ?_ h₁ h₂
    ((List.perm_ext_iff_of_nodup (hnodup h₁) (hnodup h₂)).2 hmem)
  intro a b _ _ hab hba
  exact absurd hba (List.lt_asymm hab)

theorem Ordered.ext {other : Tree} (h : tree.Ordered) (h' : other.Ordered)
    (hget : ∀ q, tree.get? q = other.get? q) : tree = other := by
  obtain ⟨entries⟩ := tree
  obtain ⟨entries'⟩ := other
  refine congrArg Tree.mk (eq_of_sorted h.sorted h'.sorted ?_)
  rintro ⟨q, entry⟩
  rw [h.mem_entries_iff, h'.mem_entries_iff, hget]

theorem isBare_iff (tree : Tree) (place : Place) :
    tree.isBare place = true ↔ ∀ name, tree.get? (place ++ [name]) = none := by
  have hget : ∀ name, tree.get? (place ++ [name]) = lookup (place ++ [name]) tree.entries := by
    intro name
    rw [get?, if_neg (by simp)]
  simp only [isBare, List.all_eq_true, hget]
  constructor
  · intro hall name
    rw [Option.eq_none_iff_forall_ne_some]
    intro e he
    obtain ⟨e', hmem⟩ := (lookup_isSome_iff tree.entries).1 (Option.isSome_of_eq_some he)
    have := hall _ hmem
    simp at this
  · rintro hnone ⟨p, e⟩ hmem
    by_cases hp : p = []
    · simp [hp]
    · have hsome := (lookup_isSome_iff tree.entries).2 ⟨e, hmem⟩
      obtain ⟨q, name, rfl⟩ : ∃ q name, p = q ++ [name] :=
        ⟨_, _, (List.dropLast_concat_getLast hp).symm⟩
      by_cases hq : q = place
      · subst hq
        rw [hnone name] at hsome
        simp at hsome
      · simp [hq]

/-! ## Everything stands in a directory -/

theorem Ordered.sound (h : tree.Ordered)
    (hclosed : ∀ q e, q ≠ [] → tree.get? q = some e → tree.get? q.dropLast = some .directory) :
    tree.Sound := by
  refine { h with closed := fun e hmem => ?_ }
  obtain ⟨hne, hget⟩ := h.mem_entries_iff.1 hmem
  exact hclosed _ _ hne hget

theorem Sound.empty : empty.Sound := by
  refine ⟨⟨?_, ?_⟩, ?_⟩
  all_goals simp [Tree.empty]

theorem Sound.get?_dropLast (h : tree.Sound) (hget : tree.get? place = some entry) :
    tree.get? place.dropLast = some .directory := by
  by_cases hne : place = []
  · simp [hne]
  · exact h.closed _ (h.mem_entries_iff.2 ⟨hne, hget⟩)

theorem Sound.get?_of_append (h : tree.Sound) {rest : List Name} (hrest : rest ≠ [])
    (hget : tree.get? (place ++ rest) = some entry) : tree.get? place = some .directory := by
  induction rest using List.reverseRecOn generalizing entry with
  | nil => exact absurd rfl hrest
  | append_singleton rest name ih =>
    have hup := h.get?_dropLast hget
    rw [← List.append_assoc, List.dropLast_concat] at hup
    by_cases hnil : rest = []
    · simpa [hnil] using hup
    · exact ih hnil hup

theorem Sound.get?_append_eq_none (h : tree.Sound) (hget : tree.get? place ≠ some .directory)
    {rest : List Name} (hrest : rest ≠ []) : tree.get? (place ++ rest) = none := by
  rw [Option.eq_none_iff_forall_ne_some]
  exact fun e he => hget (h.get?_of_append hrest he)

theorem Sound.below_eq_none (h : tree.Sound) (hget : tree.get? place = none) :
    tree.below place = fun _ => none := by
  funext rest
  by_cases hrest : rest = []
  · simpa [below, hrest] using hget
  · exact h.get?_append_eq_none (by simp [hget]) hrest

theorem Sound.not_prefix_of_get? (h : tree.Sound) (hfree : tree.get? place = none) {q : Place}
    (hget : tree.get? q = some entry) : ¬ place <+: q := by
  rintro ⟨rest, rfl⟩
  cases (congrFun (h.below_eq_none hfree) rest).symm.trans hget

theorem Sound.get?_of_isBare (h : tree.Sound) (hbare : tree.isBare place = true) {rest : List Name}
    (hrest : rest ≠ []) : tree.get? (place ++ rest) = none := by
  obtain ⟨name, more, rfl⟩ := List.exists_cons_of_ne_nil hrest
  have hbelow := congrFun (h.below_eq_none ((isBare_iff _ _).1 hbare name)) more
  rwa [below, List.append_assoc] at hbelow

theorem Sound.get?_of_prefix (h : tree.Sound) {q : Place} (hpre : place <+: q) (hne : place ≠ q)
    (hget : tree.get? q = some entry) : tree.get? place = some .directory := by
  obtain ⟨rest, rfl⟩ := hpre
  exact h.get?_of_append (by rintro rfl; simp at hne) hget

/-! ## Putting an entry -/

theorem mem_of_mem_placed {entries : List (Place × Entry)} {e : Place × Entry}
    (hmem : e ∈ placed place entry entries) : e = (place, entry) ∨ e ∈ entries := by
  induction entries with
  | nil => simpa [placed] using hmem
  | cons first rest ih =>
    unfold placed at hmem
    split_ifs at hmem with heq hlt
    · rcases List.mem_cons.1 hmem with h | h
      · exact .inl h
      · exact .inr (List.mem_cons_of_mem _ h)
    · exact List.mem_cons.1 hmem
    · rcases List.mem_cons.1 hmem with h | h
      · exact .inr (h ▸ List.mem_cons_self)
      · exact (ih h).imp_right (List.mem_cons_of_mem _)

theorem sorted_placed {entries : List (Place × Entry)}
    (hsorted : entries.Pairwise fun a b => a.1 < b.1) (place : Place) (entry : Entry) :
    (placed place entry entries).Pairwise fun a b => a.1 < b.1 := by
  induction entries with
  | nil => simp [placed]
  | cons first rest ih =>
    obtain ⟨p, e⟩ := first
    rw [List.pairwise_cons] at hsorted
    unfold placed
    split_ifs with heq hlt
    · subst heq
      exact List.pairwise_cons.2 hsorted
    · refine List.pairwise_cons.2 ⟨fun x hx => ?_, List.pairwise_cons.2 hsorted⟩
      rcases List.mem_cons.1 hx with rfl | hx
      · exact hlt
      · exact List.lt_trans hlt (hsorted.1 x hx)
    · refine List.pairwise_cons.2 ⟨fun x hx => ?_, ih hsorted.2⟩
      rcases mem_of_mem_placed hx with rfl | hx
      · by_contra hle
        exact heq (Std.Trichotomous.trichotomous (r := (· < ·)) p place hle hlt)
      · exact hsorted.1 x hx

theorem Ordered.insert (h : tree.Ordered) (hne : place ≠ []) (entry : Entry) :
    (tree.insert place entry).Ordered := by
  refine ⟨sorted_placed h.sorted place entry, fun e hmem => ?_⟩
  rcases mem_of_mem_placed hmem with rfl | hmem
  · exact hne
  · exact h.rootless e hmem

theorem dropLast_ne_self (hne : place ≠ []) : place.dropLast ≠ place := by
  intro heq
  have hlen := congrArg List.length heq
  have := List.length_pos_iff.2 hne
  rw [List.length_dropLast] at hlen
  omega

theorem Sound.insert (h : tree.Sound) (hne : place ≠ [])
    (hdir : tree.get? place.dropLast = some .directory)
    (hleaf : entry = .directory ∨ tree.get? place ≠ some .directory) :
    (tree.insert place entry).Sound := by
  refine (h.toOrdered.insert hne entry).sound fun q e hq hget => ?_
  rw [get?_insert hne] at hget ⊢
  by_cases hup : place = q.dropLast
  · rw [if_pos hup]
    rcases hleaf with rfl | hleaf
    · rfl
    · have hother : place ≠ q := by
        rintro rfl
        exact dropLast_ne_self hne hup.symm
      rw [if_neg hother] at hget
      exact absurd (hup ▸ h.get?_dropLast hget) hleaf
  · rw [if_neg hup]
    split_ifs at hget with heq
    · exact heq ▸ hdir
    · exact h.get?_dropLast hget

/-! ## Removing an entry -/

theorem Ordered.erase (h : tree.Ordered) (place : Place) : (tree.erase place).Ordered :=
  ⟨h.sorted.filter _, fun e hmem => h.rootless e (List.mem_filter.1 hmem).1⟩

theorem Sound.erase (h : tree.Sound) (hbare : ∀ name, tree.get? (place ++ [name]) = none) :
    (tree.erase place).Sound := by
  refine (h.toOrdered.erase place).sound fun q e hq hget => ?_
  rw [get?_erase tree hq] at hget
  split_ifs at hget with heq
  by_cases hroot : q.dropLast = []
  · simp [hroot]
  · rw [get?_erase tree hroot, if_neg ?_, h.get?_dropLast hget]
    rintro rfl
    rw [← List.dropLast_concat_getLast hq, hbare] at hget
    simp at hget

/-! ## Moving -/

theorem Ordered.prune (h : tree.Ordered) (place : Place) : (tree.prune place).Ordered :=
  ⟨h.sorted.filter _, fun e hmem => h.rootless e (List.mem_filter.1 hmem).1⟩

theorem get?_prune_eq (hne : place ≠ []) (tree : Tree) (q : Place) :
    (tree.prune place).get? q = if place <+: q then none else tree.get? q := by
  by_cases hq : q = []
  · simp [hq, hne]
  · rw [get?_prune tree hq]
    simp only [List.isPrefixOf_iff_prefix]

theorem get?_prune_of_not_prefix {q : Place} (hq : ¬ place <+: q) :
    (tree.prune place).get? q = tree.get? q := by
  have hne : place ≠ [] := by
    rintro rfl
    exact hq List.nil_prefix
  rw [get?_prune_eq hne, if_neg hq]

theorem Sound.prune (h : tree.Sound) (place : Place) : (tree.prune place).Sound := by
  refine (h.toOrdered.prune place).sound fun q e hq hget => ?_
  rw [get?_prune tree hq] at hget
  split_ifs at hget with hpre
  by_cases hroot : q.dropLast = []
  · simp [hroot]
  · rw [get?_prune tree hroot, if_neg, h.get?_dropLast hget]
    intro hup
    rw [List.isPrefixOf_iff_prefix] at hup hpre
    exact hpre (hup.trans (List.dropLast_prefix q))

section Fold

variable {f : Place → Place} (hf : ∀ p, f p ≠ [])
include hf

theorem Ordered.foldl_insert (h : tree.Ordered) (es : List (Place × Entry)) :
    (es.foldl (fun t e => t.insert (f e.1) e.2) tree).Ordered := by
  induction es generalizing tree with
  | nil => exact h
  | cons e es ih => exact ih (h.insert (hf _) _)

theorem get?_foldl_insert (es : List (Place × Entry)) (tree : Tree) (q : Place)
    (hq : ∀ e ∈ es, f e.1 ≠ q) :
    (es.foldl (fun t e => t.insert (f e.1) e.2) tree).get? q = tree.get? q := by
  induction es generalizing tree with
  | nil => rfl
  | cons e es ih =>
    rw [List.foldl_cons, ih _ fun e' he' => hq e' (List.mem_cons_of_mem _ he'),
      get?_insert (hf _), if_neg (hq e List.mem_cons_self)]

theorem get?_foldl_insert_of_mem {es : List (Place × Entry)}
    (hdistinct : es.Pairwise fun a b => f a.1 ≠ f b.1) (tree : Tree)
    {e : Place × Entry} (hmem : e ∈ es) :
    (es.foldl (fun t e => t.insert (f e.1) e.2) tree).get? (f e.1) = some e.2 := by
  induction es generalizing tree with
  | nil => simp at hmem
  | cons first es ih =>
    rw [List.pairwise_cons] at hdistinct
    rw [List.foldl_cons]
    rcases List.mem_cons.1 hmem with rfl | hmem
    · rw [get?_foldl_insert hf es _ _ fun e' he' => Ne.symm (hdistinct.1 e' he'),
        get?_insert (hf _), if_pos rfl]
    · exact ih hdistinct.2 _ hmem

end Fold

/-- Where what stands at or below `source` is after `source` was moved to `target`. -/
def afterMove (source target place : Place) : Place := target ++ place.drop source.length

theorem move_eq_foldl (tree : Tree) (source target : Place) :
    tree.move source target = (tree.under source).foldl
      (fun t e => t.insert (afterMove source target e.1) e.2)
      ((tree.prune source).prune target) := rfl

section Move

variable {source target : Place} (htarget : target ≠ [])
include htarget

theorem Ordered.move (h : tree.Ordered) : (tree.move source target).Ordered := by
  rw [move_eq_foldl]
  exact ((h.prune source).prune target).foldl_insert (by simp [afterMove, htarget]) _

/-- What was at and below the source is at and below the target, the source is gone, and all else
is as it was. -/
theorem Ordered.get?_move (h : tree.Ordered) (hsource : source ≠ []) (q : Place) :
    (tree.move source target).get? q =
      if target <+: q then tree.get? (source ++ q.drop target.length)
      else if source <+: q then none else tree.get? q := by
  have hf : ∀ p, afterMove source target p ≠ [] := by simp [afterMove, htarget]
  have hpruned : ((tree.prune source).prune target).get? q =
      if q = [] then some .directory
      else if target <+: q ∨ source <+: q then none else tree.get? q := by
    by_cases hq : q = []
    · simp [hq]
    · rw [get?_prune _ hq, get?_prune _ hq]
      simp only [List.isPrefixOf_iff_prefix]
      split_ifs <;> tauto
  rw [move_eq_foldl]
  by_cases hpre : target <+: q
  · obtain ⟨rest, rfl⟩ := hpre
    rw [if_pos (List.prefix_append _ _), List.drop_left]
    cases hget : tree.get? (source ++ rest) with
    | some e =>
      have hmem : (source ++ rest, e) ∈ tree.under source :=
        h.mem_under_iff.2 ⟨by simp [hsource], List.prefix_append _ _, hget⟩
      have hdistinct : (tree.under source).Pairwise
          fun a b => afterMove source target a.1 ≠ afterMove source target b.1 := by
        apply (h.sorted.filter _).imp_of_mem
        rintro ⟨p, _⟩ ⟨p', _⟩ hp hp' hlt heq
        obtain ⟨r, rfl⟩ := (h.mem_under_iff.1 hp).2.1
        obtain ⟨r', rfl⟩ := (h.mem_under_iff.1 hp').2.1
        simp only [afterMove, List.drop_left, List.append_cancel_left_eq] at heq
        subst heq
        exact List.lt_irrefl _ hlt
      have := get?_foldl_insert_of_mem hf hdistinct ((tree.prune source).prune target) hmem
      simpa [afterMove] using this
    | none =>
      rw [get?_foldl_insert hf, hpruned, if_neg (by simp [htarget]),
        if_pos (.inl (List.prefix_append _ _))]
      rintro ⟨p, e⟩ hmem heq
      obtain ⟨rest', rfl⟩ := (h.mem_under_iff.1 hmem).2.1
      simp only [afterMove, List.drop_left, List.append_cancel_left_eq] at heq
      subst heq
      rw [(h.mem_under_iff.1 hmem).2.2] at hget
      simp at hget
  · rw [if_neg hpre, get?_foldl_insert hf, hpruned]
    · by_cases hq : q = []
      · have : ¬ source <+: [] := by simpa using hsource
        simp [hq, this]
      · simp [hq, hpre]
    · intro e _ heq
      exact hpre (heq ▸ List.prefix_append _ _)

theorem Sound.move (h : tree.Sound) (hsource : source ≠ [])
    (hdir : tree.get? target.dropLast = some .directory) (hout : ¬ source <+: target.dropLast) :
    (tree.move source target).Sound := by
  have hview := h.toOrdered.get?_move htarget hsource
  refine (h.toOrdered.move htarget).sound fun q e hq hget => ?_
  rw [hview] at hget ⊢
  by_cases hpre : target <+: q
  · obtain ⟨rest, rfl⟩ := hpre
    rw [if_pos (List.prefix_append _ _), List.drop_left] at hget
    by_cases hrest : rest = []
    · subst hrest
      have hlonger : ¬ target <+: target.dropLast := by
        intro hpre
        exact dropLast_ne_self htarget
          (List.dropLast_prefix target |>.eq_of_length_le hpre.length_le)
      rw [List.append_nil, if_neg hlonger, if_neg hout, hdir]
    · have hup := h.get?_dropLast hget
      rw [List.dropLast_append_of_ne_nil hrest] at hup ⊢
      rw [if_pos (List.prefix_append _ _), List.drop_left, hup]
  · rw [if_neg hpre] at hget
    split_ifs at hget with hgone
    have hup : ∀ p : Place, ¬ p <+: q → ¬ p <+: q.dropLast :=
      fun p hp hpre' => hp (hpre'.trans (List.dropLast_prefix q))
    rw [if_neg (hup _ hpre), if_neg (hup _ hgone), h.get?_dropLast hget]

end Move

end DirLock.Disk.Tree
