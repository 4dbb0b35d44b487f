import DirLock.Proofs.Disk.Request

/-!
# Plots

A plot of a tree is a place in one of its directories at which nothing stands. Two plots are the same
or have nothing in common, so whoever changes a tree on a plot of its own changes nothing on any other
and nothing that stood in the tree before. What is made on a plot here are directories of plain files.
-/

namespace DirLock.Disk.Tree

/-- A place in a directory of the tree at which nothing stands. -/
structure Plot (ground : Tree) (place : Place) : Prop where
  ne_nil : place ≠ []
  directory : ground.get? place.dropLast = some .directory
  free : ground.get? place = none

/-- The second tree differs from the first at the place and below it only. -/
def ChangesOn (place : Place) (tree after : Tree) : Prop :=
  ∀ q, ¬ place <+: q → after.get? q = tree.get? q

/-- What is at and below a directory that holds files and nothing else. -/
def filesView (files : List (Name × List UInt8)) : List Name → Option Entry
  | [] => some .directory
  | [name] => (files.lookup name).map .file
  | _ => none

/-- What is at and below a place at which nothing stands. -/
def noView : List Name → Option Entry := fun _ => none

variable {ground tree after : Tree} {place other : Place}

/-! ## Different plots -/

theorem prefix_dropLast {p q : Place} (hpre : p <+: q) (hne : p ≠ q) : p <+: q.dropLast := by
  obtain ⟨rest, rfl⟩ := hpre
  have hrest : rest ≠ [] := by
    rintro rfl
    simp at hne
  rw [List.dropLast_append_of_ne_nil hrest]
  exact List.prefix_append _ _

theorem eq_of_concat_prefix {dir : Place} {name name' : Name} {rest : List Name}
    (hpre : dir ++ [name] <+: dir ++ [name'] ++ rest) : name = name' := by
  rw [List.append_assoc, List.prefix_append_right_inj, List.singleton_append, List.cons_prefix_cons] at hpre
  exact hpre.1

theorem Plot.not_prefix_of_get? (hground : ground.Sound) (h : ground.Plot place) {q : Place}
    {entry : Entry} (hget : ground.get? q = some entry) : ¬ place <+: q :=
  hground.not_prefix_of_get? h.free hget

theorem Plot.not_prefix (hground : ground.Sound) (h : ground.Plot place) (h' : ground.Plot other)
    (hne : place ≠ other) : ¬ place <+: other := fun hpre =>
  h.not_prefix_of_get? hground h'.directory (prefix_dropLast hpre hne)

theorem Plot.not_prefix_append (hground : ground.Sound) (h : ground.Plot place)
    (h' : ground.Plot other) (hne : place ≠ other) (rest : List Name) :
    ¬ place <+: other ++ rest := by
  intro hpre
  rcases List.prefix_or_prefix_of_prefix hpre (List.prefix_append other rest) with hp | hp
  · exact h.not_prefix hground h' hne hp
  · exact h'.not_prefix hground h (Ne.symm hne) hp

/-! ## What stays -/

theorem ChangesOn.refl (place : Place) (tree : Tree) : ChangesOn place tree tree := fun _ _ => rfl

theorem ChangesOn.below_eq (h : ChangesOn place tree after)
    (hother : ∀ rest, ¬ place <+: other ++ rest) : after.below other = tree.below other := by
  funext rest
  exact h _ (hother rest)

theorem changesOn_insert {q : Place} (hq : q ≠ []) (hpre : place <+: q) (entry : Entry) :
    ChangesOn place tree (tree.insert q entry) := by
  intro p hp
  rw [get?_insert hq, if_neg]
  rintro rfl
  exact hp hpre

theorem changesOn_erase {q : Place} (hpre : place <+: q) : ChangesOn place tree (tree.erase q) := by
  intro p hp
  by_cases hnil : p = []
  · simp [hnil]
  · rw [get?_erase tree hnil, if_neg]
    rintro rfl
    exact hp hpre

/-! ## What is made -/

theorem lookup_eq_none {files : List (Name × List UInt8)} {name : Name}
    (hnew : name ∉ files.map Prod.fst) : files.lookup name = none := by
  rw [List.lookup_eq_none_iff]
  intro file hfile
  simp only [bne_iff_ne, ne_eq]
  rintro rfl
  exact hnew (List.mem_map_of_mem hfile)

theorem lookup_concat_self {files : List (Name × List UInt8)} {name : Name}
    (hnew : name ∉ files.map Prod.fst) (content : List UInt8) :
    (files ++ [(name, content)]).lookup name = some content := by
  rw [List.lookup_append, lookup_eq_none hnew]
  simp

theorem lookup_concat_of_ne {files : List (Name × List UInt8)} {name other : Name}
    (hne : other ≠ name) (content : List UInt8) :
    (files ++ [(name, content)]).lookup other = files.lookup other := by
  rw [List.lookup_append, List.lookup_cons, beq_eq_false_iff_ne.2 hne]
  simp

theorem get?_append_of_below {view : List Name → Option Entry} (h : tree.below place = view)
    (rest : List Name) : tree.get? (place ++ rest) = view rest := congrFun h rest

theorem get?_of_below {view : List Name → Option Entry} (h : tree.below place = view) :
    tree.get? place = view [] := by
  simpa using get?_append_of_below h []

theorem below_insert_directory (hne : place ≠ []) (h : tree.below place = noView) :
    (tree.insert place .directory).below place = filesView [] := by
  funext rest
  rw [below, get?_insert hne]
  have hrest := get?_append_of_below h rest
  rcases rest with _ | ⟨name, _ | ⟨next, rest⟩⟩
  · simp [filesView]
  · simpa [filesView, noView] using hrest
  · simpa [filesView, noView] using hrest

theorem below_insert_file {files : List (Name × List UInt8)} {name : Name}
    (h : tree.below place = filesView files) (hnew : name ∉ files.map Prod.fst)
    (content : List UInt8) :
    (tree.insert (place ++ [name]) (.file content)).below place =
      filesView (files ++ [(name, content)]) := by
  funext rest
  have hrest := get?_append_of_below h rest
  rw [below, get?_insert (by simp)]
  rcases rest with _ | ⟨other, _ | ⟨next, rest⟩⟩
  · simpa [filesView] using hrest
  · by_cases heq : other = name
    · subst heq
      simp [filesView, lookup_concat_self hnew]
    · rw [if_neg (by simpa using Ne.symm heq), hrest]
      simp [filesView, lookup_concat_of_ne heq]
  · simpa [filesView] using hrest

theorem below_erase_file {files : List (Name × List UInt8)} {name : Name} {content : List UInt8}
    (hne : place ≠ []) (h : tree.below place = filesView (files ++ [(name, content)]))
    (hnew : name ∉ files.map Prod.fst) :
    (tree.erase (place ++ [name])).below place = filesView files := by
  funext rest
  have hrest := get?_append_of_below h rest
  rw [below, get?_erase tree (by simp [hne])]
  rcases rest with _ | ⟨other, _ | ⟨next, rest⟩⟩
  · simpa [filesView] using hrest
  · by_cases heq : other = name
    · subst heq
      simp [filesView, lookup_eq_none hnew]
    · rw [if_neg (by simpa using heq), hrest]
      simp [filesView, lookup_concat_of_ne heq]
  · simpa [filesView] using hrest

theorem below_erase_directory (hne : place ≠ []) (h : tree.below place = filesView []) :
    (tree.erase place).below place = noView := by
  funext rest
  have hrest := get?_append_of_below h rest
  rw [below, get?_erase tree (by simp [hne])]
  rcases rest with _ | ⟨name, _ | ⟨next, rest⟩⟩
  · simp [noView]
  · simpa [filesView, noView] using hrest
  · simpa [filesView, noView] using hrest

/-! ## What is moved -/

section Move

variable {source target : Place} (h : tree.Ordered) (hsource : source ≠ []) (htarget : target ≠ [])
include h hsource htarget

theorem below_move_target : (tree.move source target).below target = tree.below source := by
  funext rest
  rw [below, h.get?_move htarget hsource, if_pos (List.prefix_append _ _), List.drop_left]
  rfl

theorem below_move_source (hapart : ∀ rest, ¬ target <+: source ++ rest) :
    (tree.move source target).below source = noView := by
  funext rest
  rw [below, h.get?_move htarget hsource, if_neg (hapart rest), if_pos (List.prefix_append _ _)]
  rfl

theorem get?_move_of_apart {q : Place} (hs : ¬ source <+: q) (ht : ¬ target <+: q) :
    (tree.move source target).get? q = tree.get? q := by
  rw [h.get?_move htarget hsource, if_neg ht, if_neg hs]

end Move

/-! ## What is listed -/

def filesEntries (place : Place) (files : List (Name × List UInt8)) : List (Place × Entry) :=
  (place, .directory) :: files.map fun file => (place ++ [file.1], .file file.2)

theorem sorted_filesEntries (place : Place) {files : List (Name × List UInt8)}
    (hsorted : files.Pairwise fun a b => a.1 < b.1) :
    (filesEntries place files).Pairwise fun a b => a.1 < b.1 := by
  refine List.pairwise_cons.2 ⟨fun e hmem => ?_, ?_⟩
  · obtain ⟨file, -, rfl⟩ := List.mem_map.1 hmem
    have hlt : place ++ [] < place ++ [file.1] := List.append_left_lt (List.nil_lt_cons _ _)
    simpa using hlt
  · rw [List.pairwise_map]
    refine hsorted.imp fun {a b} hab => ?_
    exact List.append_left_lt (List.Lex.rel hab)

theorem lookup_eq_some_iff_mem {files : List (Name × List UInt8)}
    (hsorted : files.Pairwise fun a b => a.1 < b.1) {name : Name} {content : List UInt8} :
    files.lookup name = some content ↔ (name, content) ∈ files := by
  induction files with
  | nil => simp
  | cons first files ih =>
    obtain ⟨name', content'⟩ := first
    rw [List.pairwise_cons] at hsorted
    by_cases heq : name = name'
    · subst heq
      have hnot : (name, content) ∉ files := fun hmem => List.lt_irrefl name (hsorted.1 _ hmem)
      simp [hnot, eq_comm]
    · rw [List.lookup_cons, beq_eq_false_iff_ne.2 heq]
      simp [ih hsorted.2, heq]

theorem mem_filesEntries_iff {files : List (Name × List UInt8)}
    (hsorted : files.Pairwise fun a b => a.1 < b.1) {q : Place} {entry : Entry} :
    (q, entry) ∈ filesEntries place files ↔
      ∃ rest, q = place ++ rest ∧ filesView files rest = some entry := by
  rw [filesEntries, List.mem_cons, List.mem_map]
  constructor
  · rintro (heq | ⟨file, hmem, heq⟩)
    · obtain ⟨rfl, rfl⟩ := Prod.mk.inj heq
      exact ⟨[], by simp, rfl⟩
    · obtain ⟨rfl, rfl⟩ := Prod.mk.inj heq
      refine ⟨[file.1], rfl, ?_⟩
      rw [filesView, (lookup_eq_some_iff_mem hsorted).2 hmem]
      rfl
  · rintro ⟨rest, rfl, hview⟩
    match rest, hview with
    | [], hview =>
      obtain rfl := Option.some.inj hview
      exact .inl (by simp)
    | [name], hview =>
      obtain ⟨content, hlookup, rfl⟩ := Option.map_eq_some_iff.1 hview
      exact .inr ⟨(name, content), (lookup_eq_some_iff_mem hsorted).1 hlookup, rfl⟩

theorem under_eq_filesEntries (h : tree.Ordered) (hne : place ≠ [])
    {files : List (Name × List UInt8)} (hsorted : files.Pairwise fun a b => a.1 < b.1)
    (hbelow : tree.below place = filesView files) :
    tree.under place = filesEntries place files := by
  refine eq_of_sorted (h.sorted.filter _) (sorted_filesEntries place hsorted) ?_
  rintro ⟨q, entry⟩
  rw [h.mem_under_iff, mem_filesEntries_iff hsorted]
  constructor
  · rintro ⟨-, ⟨rest, rfl⟩, hget⟩
    exact ⟨rest, rfl, by rw [← hget, get?_append_of_below hbelow]⟩
  · rintro ⟨rest, rfl, hview⟩
    exact ⟨by simp [hne], List.prefix_append _ _, by rw [get?_append_of_below hbelow, hview]⟩

end DirLock.Disk.Tree
