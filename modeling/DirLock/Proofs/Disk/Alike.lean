import DirLock.Proofs.Disk.Outcome

/-!
# Trees that differ in what is written in files

Two trees have the same entries, except that some files of the one hold contents that stand for those of
the other. No request but that for the content of a file tells the two apart, and no request makes them
differ in anything else.
-/

namespace DirLock.Disk

/-- The same entry, or two files with contents that stand for each other. -/
inductive EntryAlike (like : List UInt8 → List UInt8 → Prop) : Option Entry → Option Entry → Prop
  | same (entry : Option Entry) : EntryAlike like entry entry
  | files {content content' : List UInt8} : like content content' →
    EntryAlike like (some (.file content)) (some (.file content'))

/-- The same result, or two files at one place with contents that stand for each other. -/
inductive SpotAlike (like : List UInt8 → List UInt8 → Prop) {ε : Type} :
    Except ε Spot → Except ε Spot → Prop
  | same (result : Except ε Spot) : SpotAlike like result result
  | files (place : Place) {content content' : List UInt8} : like content content' →
    SpotAlike like (.ok (.found place (.file content))) (.ok (.found place (.file content')))

variable {like : List UInt8 → List UInt8 → Prop}

theorem EntryAlike.none_iff {entry entry' : Option Entry} (h : EntryAlike like entry entry') :
    entry = none ↔ entry' = none := by
  cases h with
  | same => exact .rfl
  | files => simp

theorem SpotAlike.mapError {ε ε' : Type} (f : ε → ε') {result result' : Except ε Spot}
    (h : SpotAlike like result result') : SpotAlike like (result.mapError f) (result'.mapError f) := by
  cases h with
  | same => exact .same _
  | files place hlike => exact .files place hlike

theorem bind_rel {ε α β : Type} {x : Except ε α} {f f' : α → Except ε β}
    {r : Except ε β → Except ε β → Prop} (herror : ∀ error, r (.error error) (.error error))
    (h : ∀ value, r (f value) (f' value)) : r (x >>= f) (x >>= f') := by
  cases x with
  | error error => exact herror error
  | ok value => exact h value

/-- What goes on in related ways from every spot, and from two files that are alike, goes on in related
ways from spots that are alike. -/
theorem SpotAlike.bind {ε α : Type} {f f' : Spot → Except ε α} {r : Except ε α → Except ε α → Prop}
    {result result' : Except ε Spot} (h : SpotAlike like result result')
    (herror : ∀ error, r (.error error) (.error error)) (hsame : ∀ spot, r (f spot) (f' spot))
    (hfiles : ∀ place content content', like content content' →
      r (f (.found place (.file content))) (f' (.found place (.file content')))) :
    r (result >>= f) (result' >>= f') := by
  cases h with
  | same result =>
    cases result with
    | error error => exact herror error
    | ok spot => exact hsame spot
  | files place hlike => exact hfiles place _ _ hlike

theorem SpotAlike.bind_eq {ε α : Type} {f : Spot → Except ε α} {result result' : Except ε Spot}
    (h : SpotAlike like result result')
    (hfiles : ∀ place content content',
      f (.found place (.file content)) = f (.found place (.file content'))) :
    (result >>= f) = (result' >>= f) :=
  h.bind (r := Eq) (fun _ => rfl) (fun _ => rfl) fun place content content' _ =>
    hfiles place content content'

namespace Tree

/-- The trees have the same entries, but for the contents of files. -/
def Alike (like : List UInt8 → List UInt8 → Prop) (tree tree' : Tree) : Prop :=
  ∀ q, EntryAlike like (tree.get? q) (tree'.get? q)

/-- The same fault, or two trees in order that are alike. -/
inductive ChangeAlike (like : List UInt8 → List UInt8 → Prop) :
    Except Fault Tree → Except Fault Tree → Prop
  | failed (fault : Fault) : ChangeAlike like (.error fault) (.error fault)
  | changed {tree tree' : Tree} : tree.Alike like tree' → ChangeAlike like (.ok tree) (.ok tree')

variable {tree tree' : Tree} {cwd place : Place} {path : Path} {inside : List Name}

theorem ChangeAlike.bind {α : Type} {x : Except Fault α} {f f' : α → Except Fault Tree}
    (h : ∀ value, ChangeAlike like (f value) (f' value)) : ChangeAlike like (x >>= f) (x >>= f') :=
  bind_rel .failed h

theorem ChangeAlike.guard {c : Prop} [Decidable c] {fault : Fault} {f f' : PUnit → Except Fault Tree}
    (h : ChangeAlike like (f ()) (f' ())) :
    ChangeAlike like (if c then throw fault >>= f else f ()) (if c then throw fault >>= f' else f' ()) := by
  by_cases hc : c
  · rw [if_pos hc, if_pos hc]
    exact .failed fault
  · rwa [if_neg hc, if_neg hc]

theorem Alike.of_eq (h : ∀ q, tree.get? q = tree'.get? q) : tree.Alike like tree' :=
  fun q => h q ▸ .same _

theorem Alike.get?_cases (h : tree.Alike like tree') (q : Place) :
    tree.get? q = tree'.get? q ∨ ∃ content content', like content content' ∧
      tree.get? q = some (.file content) ∧ tree'.get? q = some (.file content') := by
  have hat := h q
  generalize hentry : tree.get? q = entry, hentry' : tree'.get? q = entry' at hat
  cases hat with
  | same => exact .inl rfl
  | files hlike => exact .inr ⟨_, _, hlike, rfl, rfl⟩

theorem Alike.isBare_eq (h : tree.Alike like tree') (place : Place) :
    tree.isBare place = tree'.isBare place := by
  rw [Bool.eq_iff_iff, isBare_iff, isBare_iff]
  exact forall_congr' fun name => (h _).none_iff

/-! ## Ways -/

theorem Alike.walk (h : tree.Alike like tree') (follow : Bool) (links : Nat) (cur : Place)
    (names : List Name) :
    SpotAlike like (tree.walk follow links cur names) (tree'.walk follow links cur names) := by
  induction links using Nat.strongRecOn generalizing cur names with
  | ind links ihlinks =>
    induction names generalizing cur with
    | nil =>
      rw [walk_nil, walk_nil]
      exact .same _
    | cons name names ih =>
      rw [walk_cons, walk_cons]
      split_ifs
      · exact ih _
      · exact ih _
      · exact .same _
      · rcases h.get?_cases (cur ++ [name]) with heq | ⟨content, content', hlike, heq, heq'⟩
        · rw [heq]
          rcases tree'.get? (cur ++ [name]) with _ | (content | _ | target)
          · cases names <;> exact .same _
          · cases names <;> exact .same _
          · exact ih _
          · dsimp only
            split_ifs
            · exact .same _
            · cases links with
              | zero => exact .same _
              | succ links => exact ihlinks links (Nat.lt_succ_self links) _ _
        · rw [heq, heq']
          cases names with
          | nil => exact .files _ hlike
          | cons next rest => exact .same _

theorem Alike.seek (h : tree.Alike like tree') (cwd : Place) (path : Path) (follow : Bool) :
    SpotAlike like (tree.seek cwd path follow) (tree'.seek cwd path follow) := by
  rw [Tree.seek, Tree.seek]
  refine bind_rel (fun _ => .same _) fun _ => ?_
  exact (h.walk _ _ _ _).mapError _

theorem Alike.seekParent_eq (h : tree.Alike like tree') (cwd : Place) (path : Path) :
    tree.seekParent cwd path = tree'.seekParent cwd path := by
  rw [Tree.seekParent, Tree.seekParent]
  refine bind_rel (r := Eq) (fun _ => rfl) fun _ => ?_
  exact ((h.walk _ _ _ _).mapError _).bind_eq fun _ _ _ => rfl

/-! ## Looking -/

theorem Alike.entryKind_eq (h : tree.Alike like tree') (cwd : Place) (path : Path) :
    tree.entryKind cwd path = tree'.entryKind cwd path :=
  (h.seek cwd path false).bind_eq fun _ _ _ => rfl

theorem Alike.readFile (h : tree.Alike like tree') (cwd : Place) (path : Path) :
    tree.readFile cwd path = tree'.readFile cwd path ∨ ∃ content content', like content content' ∧
      tree.readFile cwd path = .ok content ∧ tree'.readFile cwd path = .ok content' := by
  refine (h.seek cwd path true).bind (r := fun read read' => read = read' ∨ ∃ content content',
    like content content' ∧ read = .ok content ∧ read' = .ok content') (fun _ => .inl rfl)
    (fun _ => .inl rfl) ?_
  exact fun place content content' hlike => .inr ⟨content, content', hlike, rfl, rfl⟩

/-! ## Changing one entry -/

theorem get?_insert_cases (tree : Tree) (place : Place) (entry : Entry) (q : Place) :
    (tree.insert place entry).get? q =
      if place = q ∧ place ≠ [] then some entry else tree.get? q := by
  by_cases hne : place = []
  · subst hne
    by_cases hq : q = []
    · simp [hq]
    · simp [get?, Tree.insert, lookup_placed, hq, Ne.symm hq]
  · rw [get?_insert hne]
    simp [hne]

theorem Alike.insert (h : tree.Alike like tree') (place : Place) {entry entry' : Entry}
    (hentry : EntryAlike like (some entry) (some entry')) :
    (tree.insert place entry).Alike like (tree'.insert place entry') := by
  intro q
  rw [get?_insert_cases, get?_insert_cases]
  split_ifs
  · exact hentry
  · exact h q

theorem Alike.erase (h : tree.Alike like tree') (place : Place) :
    (tree.erase place).Alike like (tree'.erase place) := by
  intro q
  by_cases hq : q = []
  · subst hq
    exact .same _
  · rw [get?_erase _ hq, get?_erase _ hq]
    split_ifs
    · exact .same _
    · exact h q

theorem Alike.makeDirectory (h : tree.Alike like tree') (cwd : Place) (path : Path) :
    ChangeAlike like (tree.makeDirectory cwd path) (tree'.makeDirectory cwd path) := by
  rw [Tree.makeDirectory, Tree.makeDirectory, h.seekParent_eq]
  refine .bind ?_
  rintro ⟨parent, _ | _ | _ | name⟩
  · exact .failed _
  · exact .failed _
  · exact .failed _
  · dsimp only
    split_ifs
    · exact .failed _
    · rcases h.get?_cases (parent ++ [name]) with heq | ⟨content, content', -, heq, heq'⟩
      · rw [heq]
        cases tree'.get? (parent ++ [name]) with
        | some entry => exact .failed _
        | none => exact .changed (h.insert _ (.same _))
      · rw [heq, heq']
        exact .failed _

theorem Alike.writeFile (h : tree.Alike like tree') (cwd : Place) (path : Path)
    {content content' : List UInt8} (hcontent : content = content' ∨ like content content') :
    ChangeAlike like (tree.writeFile cwd path content) (tree'.writeFile cwd path content') := by
  have hentry : EntryAlike like (some (.file content)) (some (.file content')) := by
    rcases hcontent with rfl | hlike
    · exact .same _
    · exact .files hlike
  rw [Tree.writeFile, Tree.writeFile, h.seekParent_eq]
  split_ifs
  · exact .bind fun _ => .failed _
  · refine (h.seek cwd path true).bind .failed ?_ fun place _ _ _ => .changed (h.insert place hentry)
    rintro (⟨place, _ | _ | _⟩ | ⟨parent, name⟩)
    · exact .changed (h.insert _ hentry)
    · exact .failed _
    · exact .failed _
    · exact .changed (h.insert _ hentry)

theorem Alike.unlink (h : tree.Alike like tree') (cwd : Place) (path : Path) :
    ChangeAlike like (tree.unlink cwd path) (tree'.unlink cwd path) := by
  rw [Tree.unlink, Tree.unlink, h.seekParent_eq]
  refine .bind ?_
  rintro ⟨parent, _ | _ | _ | name⟩
  · exact .failed _
  · exact .failed _
  · exact .failed _
  · dsimp only
    split_ifs
    · exact .failed _
    all_goals
      rcases h.get?_cases (parent ++ [name]) with heq | ⟨content, content', -, heq, heq'⟩
      · rw [heq]
        rcases tree'.get? (parent ++ [name]) with _ | (content | _ | target)
        all_goals first | exact .failed _ | exact .changed (h.erase _)
      · rw [heq, heq']
        first | exact .failed _ | exact .changed (h.erase _)

theorem Alike.removeDirectory (h : tree.Alike like tree') (cwd : Place) (path : Path) :
    ChangeAlike like (tree.removeDirectory cwd path) (tree'.removeDirectory cwd path) := by
  rw [Tree.removeDirectory, Tree.removeDirectory, h.seekParent_eq]
  refine .bind ?_
  rintro ⟨parent, _ | _ | _ | name⟩
  · exact .failed _
  · exact .failed _
  · exact .failed _
  · dsimp only
    rw [h.isBare_eq]
    split_ifs
    · exact .failed _
    all_goals
      rcases h.get?_cases (parent ++ [name]) with heq | ⟨content, content', -, heq, heq'⟩
      · rw [heq]
        rcases tree'.get? (parent ++ [name]) with _ | (content | _ | target)
        all_goals first | exact .failed _ | exact .changed (h.erase _)
      · rw [heq, heq']
        exact .failed _

/-! ## Moving -/

theorem Alike.replaceable_eq (h : tree.Alike like tree') (moved : Entry) (place : Place) :
    tree.replaceable moved place = tree'.replaceable moved place := by
  unfold replaceable
  rw [h.isBare_eq]
  rcases h.get?_cases place with heq | ⟨content, content', -, heq, heq'⟩
  · rw [heq]
  · rw [heq, heq']
    cases moved <;> rfl

theorem replaceable_file (tree : Tree) (content content' : List UInt8) (place : Place) :
    tree.replaceable (.file content) place = tree.replaceable (.file content') place := by
  unfold replaceable
  rcases tree.get? place with _ | (_ | _ | _) <;> rfl

theorem Alike.move (h : tree.Alike like tree') (hordered : tree.Ordered) (hordered' : tree'.Ordered)
    {source target : Place} (hsource : source ≠ []) (htarget : target ≠ []) :
    (tree.move source target).Alike like (tree'.move source target) := by
  intro q
  rw [hordered.get?_move htarget hsource, hordered'.get?_move htarget hsource]
  split_ifs
  · exact h _
  · exact .same _
  · exact h q

theorem Alike.rename (h : tree.Alike like tree') (hordered : tree.Ordered) (hordered' : tree'.Ordered)
    (cwd : Place) (source target : Path) :
    ChangeAlike like (tree.rename cwd source target) (tree'.rename cwd source target) := by
  rw [Tree.rename, Tree.rename, h.seekParent_eq, h.seekParent_eq]
  split_ifs
  · exact .failed _
  refine .bind ?_
  rintro ⟨sourceDir, sourceLast⟩
  refine .bind ?_
  rintro ⟨targetDir, targetLast⟩
  rcases sourceLast with _ | _ | _ | sourceName
  · exact .failed _
  · exact .failed _
  · exact .failed _
  rcases targetLast with _ | _ | _ | targetName
  · exact .failed _
  · exact .failed _
  · exact .failed _
  have hmove : (tree.move (sourceDir ++ [sourceName]) (targetDir ++ [targetName])).Alike like
      (tree'.move (sourceDir ++ [sourceName]) (targetDir ++ [targetName])) :=
    h.move hordered hordered' (by simp) (by simp)
  refine .guard ?_
  dsimp only
  rcases h.get?_cases (sourceDir ++ [sourceName]) with heq | ⟨content, content', -, heq, heq'⟩
  · rw [heq]
    cases tree'.get? (sourceDir ++ [sourceName]) with
    | none => exact .failed _
    | some moved =>
      refine .guard (.guard (.guard (.guard ?_)))
      rw [h.replaceable_eq]
      split_ifs
      · exact .changed h
      · exact .bind fun _ => .changed hmove
  · rw [heq, heq']
    refine .guard (.guard (.guard (.guard ?_)))
    rw [h.replaceable_eq, replaceable_file tree' content content']
    split_ifs
    · exact .changed h
    · exact .bind fun _ => .changed hmove

/-! ## Removing trees -/

/-- The entry with nothing written in it. -/
def blank : Entry → Entry
  | .file _ => .file []
  | entry => entry

theorem blank_eq_directory_iff (entry : Entry) : blank entry = .directory ↔ entry = .directory := by
  cases entry <;> simp [blank]

theorem Alike.under_map_eq (h : tree.Alike like tree') (hordered : tree.Ordered)
    (hordered' : tree'.Ordered) (place : Place) :
    (tree.under place).map (fun e => (e.1, blank e.2)) =
      (tree'.under place).map fun e => (e.1, blank e.2) := by
  have hblank : ∀ q, (tree.get? q).map blank = (tree'.get? q).map blank := by
    intro q
    rcases h.get?_cases q with heq | ⟨content, content', -, heq, heq'⟩
    · rw [heq]
    · rw [heq, heq']
      rfl
  have hmem : ∀ {t : Tree}, t.Ordered → ∀ q entry,
      (q, entry) ∈ (t.under place).map (fun e => (e.1, blank e.2)) ↔
        q ≠ [] ∧ place <+: q ∧ (t.get? q).map blank = some entry := by
    intro t ht q entry
    rw [List.mem_map, Option.map_eq_some_iff]
    constructor
    · rintro ⟨⟨p, e⟩, hlisted, heq⟩
      obtain ⟨rfl, rfl⟩ := Prod.mk.inj heq
      obtain ⟨hne, hpre, hget⟩ := ht.mem_under_iff.1 hlisted
      exact ⟨hne, hpre, e, hget, rfl⟩
    · rintro ⟨hne, hpre, e, hget, rfl⟩
      exact ⟨(q, e), ht.mem_under_iff.2 ⟨hne, hpre, hget⟩, rfl⟩
  have hsorted : ∀ {t : Tree}, t.Ordered →
      ((t.under place).map fun e => (e.1, blank e.2)).Pairwise fun a b => a.1 < b.1 := by
    intro t ht
    rw [List.pairwise_map]
    exact ht.sorted.filter _
  refine eq_of_sorted (hsorted hordered) (hsorted hordered') ?_
  rintro ⟨q, entry⟩
  rw [hmem hordered, hmem hordered', hblank]

theorem Alike.removals_eq (h : tree.Alike like tree') (hordered : tree.Ordered)
    (hordered' : tree'.Ordered) (cwd : Place) (path : Path) :
    tree.removals cwd path = tree'.removals cwd path := by
  refine (h.seek cwd path false).bind (r := Eq) (fun _ => rfl) ?_ fun _ _ _ _ => rfl
  rintro (⟨place, _ | _ | _⟩ | ⟨parent, name⟩)
  · rfl
  · -- Which step an entry takes depends on its place and on whether it is a directory.
    let step : Place × Entry → Removal := fun e =>
      if e.2 = .directory then .removeDirectory path (e.1.drop place.length)
      else .unlink path (e.1.drop place.length)
    have hstep : ∀ t : Tree, (t.under place).reverse.map step =
        ((t.under place).map fun e => (e.1, blank e.2)).reverse.map step := by
      intro t
      rw [← List.map_reverse, List.map_map]
      refine List.map_congr_left fun e _ => ?_
      simp only [step, Function.comp, blank_eq_directory_iff]
    exact congrArg Except.ok ((hstep tree).trans
      ((congrArg (fun es => es.reverse.map step) (h.under_map_eq hordered hordered' place)).trans
        (hstep tree').symm))
  · rfl
  · rfl

theorem Alike.seekInside_eq (h : tree.Alike like tree') (cwd : Place) (path : Path)
    (inside : List Name) : tree.seekInside cwd path inside = tree'.seekInside cwd path inside :=
  (h.seek cwd path false).bind_eq fun _ _ _ => rfl

theorem Alike.unlinkInside (h : tree.Alike like tree') (cwd : Place) (path : Path)
    (inside : List Name) :
    ChangeAlike like (tree.unlinkInside cwd path inside) (tree'.unlinkInside cwd path inside) := by
  rw [Tree.unlinkInside, Tree.unlinkInside, h.seekInside_eq]
  split_ifs
  · exact h.unlink cwd path
  · refine .bind fun place => ?_
    rcases h.get?_cases place with heq | ⟨content, content', -, heq, heq'⟩
    · rw [heq]
      rcases tree'.get? place with _ | (_ | _ | _)
      · exact .failed _
      · exact .changed (h.erase _)
      · exact .failed _
      · exact .changed (h.erase _)
    · rw [heq, heq']
      exact .changed (h.erase _)

theorem Alike.removeInside (h : tree.Alike like tree') (cwd : Place) (path : Path)
    (inside : List Name) :
    ChangeAlike like (tree.removeInside cwd path inside) (tree'.removeInside cwd path inside) := by
  rw [Tree.removeInside, Tree.removeInside, h.seekInside_eq]
  split_ifs
  · exact h.removeDirectory cwd path
  · refine .bind fun place => ?_
    rw [h.isBare_eq]
    rcases h.get?_cases place with heq | ⟨content, content', -, heq, heq'⟩
    · rw [heq]
      rcases tree'.get? place with _ | (_ | _ | _)
      · exact .failed _
      · exact .failed _
      · dsimp only
        split_ifs
        · exact .changed (h.erase _)
        · exact .failed _
      · exact .failed _
    · rw [heq, heq']
      exact .failed _

end Tree

end DirLock.Disk
