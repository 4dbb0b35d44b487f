import DirLock.Disk.Path

/-!
# File trees

A tree says what stands at each place. It is kept as a list of places in increasing order, so that
two trees with the same entries are the same list; everything is read off `get?`.
-/

namespace DirLock.Disk

/-- Where an entry stands: the names from the root down. The root is the empty list. -/
abbrev Place := List Name

def Place.path (place : Place) : Path :=
  ⟨if place.isEmpty then [Path.slash] else place.flatMap fun name => Path.slash :: name⟩

inductive Entry where
  | file (content : List UInt8)
  | directory
  | link (target : Path)
  deriving DecidableEq, Repr

inductive EntryKind where
  | file
  | directory
  | link
  deriving DecidableEq, Repr

def Entry.kind : Entry → EntryKind
  | .file _ => .file
  | .directory => .directory
  | .link _ => .link

/-- The entries of a file system below its root. -/
structure Tree where
  entries : List (Place × Entry)
  deriving DecidableEq, Repr

namespace Tree

/-- The first entry recorded for the place. -/
def lookup (place : Place) : List (Place × Entry) → Option Entry
  | [] => none
  | (q, e) :: rest => if q = place then some e else lookup place rest

/-- Put an entry into a list in its order, in place of one that is there already. -/
def placed (place : Place) (entry : Entry) : List (Place × Entry) → List (Place × Entry)
  | [] => [(place, entry)]
  | (q, e) :: rest =>
    if q = place then (place, entry) :: rest
    else if place < q then (place, entry) :: (q, e) :: rest
    else (q, e) :: placed place entry rest

/-- The tree with nothing below the root. -/
def empty : Tree := ⟨[]⟩

/-- What stands at the place. The root is a directory in every tree. -/
def get? (tree : Tree) (place : Place) : Option Entry :=
  if place = [] then some .directory else lookup place tree.entries

/-- Let the entry stand at the place. -/
def insert (tree : Tree) (place : Place) (entry : Entry) : Tree :=
  ⟨placed place entry tree.entries⟩

/-- Remove the entry at the place, and only that. -/
def erase (tree : Tree) (place : Place) : Tree :=
  ⟨tree.entries.filter fun e => e.1 ≠ place⟩

/-- The entries at the place and below it. -/
def under (tree : Tree) (place : Place) : List (Place × Entry) :=
  tree.entries.filter fun e => place.isPrefixOf e.1

/-- Remove the place and everything below it. -/
def prune (tree : Tree) (place : Place) : Tree :=
  ⟨tree.entries.filter fun e => !place.isPrefixOf e.1⟩

/-- Move the place and everything below it to another place, which loses what it had. -/
def move (tree : Tree) (source target : Place) : Tree :=
  (tree.under source).foldl
    (fun t e => t.insert (target ++ e.1.drop source.length) e.2)
    ((tree.prune source).prune target)

/-- The names in the directory at the place, in order. -/
def children (tree : Tree) (place : Place) : List Name :=
  tree.entries.filterMap fun e =>
    if e.1.dropLast = place then e.1.getLast? else none

/-- Whether nothing stands directly below the place. -/
def isBare (tree : Tree) (place : Place) : Bool :=
  tree.entries.all fun e => !(e.1.dropLast = place && e.1 ≠ [])

/-! ## What each operation does to the view -/

theorem lookup_placed (place q : Place) (entry : Entry) (entries : List (Place × Entry)) :
    lookup q (placed place entry entries) = if place = q then some entry else lookup q entries := by
  induction entries with
  | nil => simp [placed, lookup]
  | cons first rest ih =>
    obtain ⟨p, e⟩ := first
    unfold placed
    split
    · rename_i h
      subst h
      by_cases hq : p = q <;> simp [lookup, hq]
    · split
      · simp [lookup]
      · rename_i h _
        by_cases hq : p = q
        · subst hq
          simp [lookup, Ne.symm h]
        · simp [lookup, ih, hq]

theorem get?_insert {place : Place} (h : place ≠ []) (tree : Tree) (entry : Entry) (q : Place) :
    (tree.insert place entry).get? q = if place = q then some entry else tree.get? q := by
  by_cases hq : q = []
  · subst hq; simp [get?, h]
  · simp [get?, insert, hq, lookup_placed]

theorem lookup_filter (keep : Place → Bool) (q : Place) (entries : List (Place × Entry)) :
    lookup q (entries.filter fun e => keep e.1) = if keep q then lookup q entries else none := by
  induction entries with
  | nil => simp [lookup]
  | cons first rest ih =>
    obtain ⟨p, e⟩ := first
    by_cases hp : p = q
    · subst hp
      cases hk : keep p <;> simp [lookup, hk, ih]
    · cases hk : keep p <;> simp [hk, lookup, hp, ih]

theorem get?_erase {place : Place} (tree : Tree) {q : Place} (h : q ≠ []) :
    (tree.erase place).get? q = if q = place then none else tree.get? q := by
  have := lookup_filter (fun p => decide (p ≠ place)) q tree.entries
  by_cases hq : q = place <;> simp_all [get?, erase]

theorem get?_prune {place : Place} (tree : Tree) {q : Place} (h : q ≠ []) :
    (tree.prune place).get? q = if place.isPrefixOf q then none else tree.get? q := by
  have := lookup_filter (fun p => !place.isPrefixOf p) q tree.entries
  cases hq : place.isPrefixOf q <;> simp_all [get?, prune]

end Tree

end DirLock.Disk
