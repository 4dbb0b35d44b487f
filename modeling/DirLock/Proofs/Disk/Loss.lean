import DirLock.Proofs.Disk.Outcome
import DirLock.Proofs.Disk.Plot

/-!
# Trees that have lost entries

A directory is removed entry by entry, and the removal may stop anywhere. What is left by then is the tree
without some of the entries at and below one place (`Lost`). A way in such a tree leads where it led before
or comes to an end where nothing stands any more (`Dead`): it never leads elsewhere. So whatever such a
removal takes away it takes from below the same place, and if no step fails nothing is left there.
-/

namespace DirLock.Disk.Tree

/-- What stands in the first tree stands in the second, or nothing stands in its place. -/
def Thins (base tree : Tree) : Prop := ∀ q e, base.get? q = some e → tree.get? q = some e ∨ tree.get? q = none

/-- The way of the path ends where nothing stands, before the names that are written behind it. -/
def Dead (tree : Tree) (cwd : Place) (path : Path) : Prop :=
  ∀ follow more, more ≠ [] →
    tree.walk follow Path.linkLimit (path.start cwd) (path.names ++ more) = .error .notFound

/-- The second tree is the first without some of the entries at and below the place. -/
structure Lost (place : Place) (tree after : Tree) : Prop where
  sound : after.Sound
  get?_eq : ∀ q, after.get? q = tree.get? q ∨ place <+: q ∧ after.get? q = none

variable {base tree after last : Tree} {cwd dir place : Place} {path : Path} {name child : Name}

/-! ## Ways -/

theorem Thins.within (h : base.Within tree) : base.Thins tree := fun q e hget => .inl (h q e hget)

theorem LeadsTo.of_carried (h : base.LeadsTo cwd path dir)
    (hcarried : ∀ q e, base.get? q = some e → (∀ content, e ≠ .file content) → tree.get? q = some e) :
    tree.LeadsTo cwd path dir := by
  obtain ⟨left, hleads⟩ := h.leads
  suffices hcarry : ∀ {links left cur names place}, base.Leads links cur names left place →
      tree.Leads links cur names left place from (hcarry hleads).leadsTo
  intro links left cur names place hleads
  induction hleads with
  | nil => exact .nil _ _
  | here _ ih => exact .here ih
  | up _ ih => exact .up ih
  | into hdot hup hlen hget _ ih => exact .into hdot hup hlen (hcarried _ _ hget nofun) ih
  | through hdot hup hlen hget _ ih => exact .through hdot hup hlen (hcarried _ _ hget nofun) ih

theorem LeadsTo.unique {dir' : Place} (h : tree.LeadsTo cwd path dir) (h' : tree.LeadsTo cwd path dir') :
    dir = dir' := by
  have heq := h.symm.trans h'
  simpa using heq

theorem Leads.thins {links left : Nat} {cur : Place} {names : List Name}
    (h : base.Leads links cur names left place) (hthins : base.Thins tree) :
    tree.Leads links cur names left place ∨ ∀ follow more, more ≠ [] →
      tree.walk follow links cur (names ++ more) = .error .notFound := by
  induction h with
  | nil => exact .inl (.nil _ _)
  | here _ ih =>
    refine ih.imp .here fun hdead follow more hmore => ?_
    rw [List.cons_append, walk_dot, hdead follow more hmore]
  | up _ ih =>
    refine ih.imp .up fun hdead follow more hmore => ?_
    rw [List.cons_append, walk_dotDot, hdead follow more hmore]
  | into hdot hup hlen hget _ ih =>
    rcases hthins _ _ hget with hsame | hgone
    · refine ih.imp (.into hdot hup hlen hsame) fun hdead follow more hmore => ?_
      rw [List.cons_append, walk_directory hdot hup hlen hsame, hdead follow more hmore]
    · refine .inr fun follow more hmore => ?_
      rw [List.cons_append]
      exact walk_missing_on_way hdot hup hlen hgone fun hnil => hmore (List.append_eq_nil_iff.1 hnil).2
  | through hdot hup hlen hget _ ih =>
    rcases hthins _ _ hget with hsame | hgone
    · refine ih.imp (.through hdot hup hlen hsame) fun hdead follow more hmore => ?_
      rw [List.cons_append, walk_link hdot hup hlen hsame, ← List.append_assoc, hdead follow more hmore]
      exact .inl fun hnil => hmore (List.append_eq_nil_iff.1 hnil).2
    · refine .inr fun follow more hmore => ?_
      rw [List.cons_append]
      exact walk_missing_on_way hdot hup hlen hgone fun hnil => hmore (List.append_eq_nil_iff.1 hnil).2

theorem LeadsTo.thins (h : base.LeadsTo cwd path dir) (hthins : base.Thins tree) :
    tree.LeadsTo cwd path dir ∨ tree.Dead cwd path := by
  obtain ⟨left, hleads⟩ := h.leads
  exact (hleads.thins hthins).imp_left Leads.leadsTo

theorem Dead.seek_eq (h : tree.Dead cwd path) {longer : Path} {more : List Name} (hmore : more ≠ [])
    (hnames : longer.names = path.names ++ more) (hstart : longer.start cwd = path.start cwd)
    (hopen : longer.endsInSlash = false) (follow : Bool) :
    tree.seek cwd longer follow = longer.check.bind fun _ => .error (.os .notFound) := by
  have hsteps : longer.steps = path.names ++ more := by
    rw [Path.steps, hopen, if_neg Bool.false_ne_true, hnames]
  rw [seek, hsteps, hstart, h follow more hmore]
  rfl

theorem Dead.seek_join (h : tree.Dead cwd path) (hname : Path.IsName name) (follow : Bool) :
    tree.seek cwd (path.join ⟨name⟩) follow =
      (path.join ⟨name⟩).check.bind fun _ => .error (.os .notFound) :=
  h.seek_eq (List.cons_ne_nil name []) (Path.names_join hname path) (Path.start_join hname path cwd)
    (Path.endsInSlash_join hname path) follow

theorem Dead.seekParent_join (h : tree.Dead cwd path) (hname : Path.IsName name) :
    tree.seekParent cwd (path.join ⟨name⟩) =
      (path.join ⟨name⟩).check.bind fun _ => .error (.os .notFound) := by
  rw [seekParent, Path.names_join hname, List.dropLast_concat, Path.start_join hname,
    h true [Path.dot] (List.cons_ne_nil _ _)]
  rfl

/-! ## Losing entries -/

namespace Lost

theorem refl (h : tree.Sound) (place : Place) : Lost place tree tree := ⟨h, fun _ => .inl rfl⟩

theorem trans (h : Lost place tree after) (h' : Lost place after last) : Lost place tree last := by
  refine ⟨h'.sound, fun q => ?_⟩
  rcases h'.get?_eq q with heq | hgone
  · rw [heq]
    exact h.get?_eq q
  · exact .inr hgone

theorem erase {q : Place} (h : (tree.erase q).Sound) (hpre : place <+: q) : Lost place tree (tree.erase q) := by
  refine ⟨h, fun q' => ?_⟩
  by_cases hroot : q' = []
  · exact .inl (by rw [hroot]; rfl)
  · rw [get?_erase tree hroot]
    split_ifs with heq
    · exact .inr ⟨heq ▸ hpre, rfl⟩
    · exact .inl rfl

theorem prune (h : tree.Sound) (place : Place) : Lost place tree (tree.prune place) := by
  refine ⟨h.prune place, fun q => ?_⟩
  by_cases hroot : q = []
  · exact .inl (by rw [hroot]; rfl)
  · rw [get?_prune tree hroot]
    split_ifs with hpre
    · exact .inr ⟨List.isPrefixOf_iff_prefix.1 hpre, rfl⟩
    · exact .inl rfl

theorem get?_eq_none (h : Lost place tree after) {q : Place} (hget : tree.get? q = none) :
    after.get? q = none := by
  rcases h.get?_eq q with heq | ⟨-, hgone⟩
  · rw [heq, hget]
  · exact hgone

theorem thins (h : Lost place tree after) (hthins : base.Thins tree) : base.Thins after := by
  intro q e hget
  rcases h.get?_eq q with heq | ⟨-, hgone⟩
  · rw [heq]
    exact hthins q e hget
  · exact .inr hgone

theorem eq_prune (h : Lost place tree after) (htree : tree.Ordered)
    (hall : ∀ q, place <+: q → after.get? q = none) : after = tree.prune place := by
  refine h.sound.toOrdered.ext (htree.prune place) fun q => ?_
  by_cases hroot : q = []
  · rw [hroot]
    rfl
  · rw [get?_prune tree hroot]
    split_ifs with hpre
    · exact hall q (List.isPrefixOf_iff_prefix.1 hpre)
    · rcases h.get?_eq q with heq | ⟨hunder, -⟩
      · exact heq
      · exact absurd (List.isPrefixOf_iff_prefix.2 hunder) hpre

end Lost

theorem Sound.prune_of_none (h : tree.Sound) (hget : tree.get? place = none) : tree.prune place = tree :=
  ((Lost.refl h place).eq_prune h.toOrdered fun q hpre => by
    obtain ⟨rest, rfl⟩ := hpre
    exact congrFun (h.below_eq_none hget) rest).symm

/-! ## One step of a removal -/

theorem Names.seekParent_eq_ok (h : tree.Names cwd path dir name) {dir' : Place} {name' : Name}
    (hok : tree.seekParent cwd path = .ok (dir', .name name')) : dir' ++ [name'] = dir ++ [name] := by
  rw [h.seekParent_eq] at hok
  cases hcheck : path.check with
  | error fault =>
    rw [hcheck] at hok
    cases hok
  | ok _ =>
    rw [hcheck] at hok
    obtain ⟨rfl, hname⟩ := Prod.mk.inj (Except.ok.inj hok)
    obtain rfl := LastName.name.inj hname
    rfl

theorem Names.seekInside_eq_ok {inside : List Name} (h : tree.Names cwd path dir name)
    (hok : tree.seekInside cwd path inside = .ok place) : place = dir ++ [name] ++ inside := by
  obtain ⟨left, hseek⟩ := h.seek_eq
  rw [seekInside, hseek] at hok
  obtain ⟨spot, hspot, hok⟩ := ok_of_bind hok
  obtain ⟨-, -, hspot⟩ := ok_of_bind hspot
  rw [walk_cons, if_neg h.isName.ne_dot, if_neg h.isName.ne_dotDot] at hspot
  split_ifs at hspot
  · cases hspot
  · cases hget : tree.get? (dir ++ [name]) with
    | none =>
      rw [hget] at hspot
      obtain rfl := Except.ok.inj hspot
      cases hok
    | some entry =>
      rw [hget] at hspot
      cases entry with
      | file content =>
        obtain rfl := Except.ok.inj hspot
        cases hok
      | directory =>
        dsimp only at hspot
        rw [walk_nil] at hspot
        obtain rfl := Except.ok.inj hspot
        exact (Except.ok.inj hok).symm
      | link target =>
        obtain rfl := Except.ok.inj hspot
        cases hok

theorem Names.remove_eq_ok {step : Removal} (h : tree.Names cwd step.root dir name)
    (hok : tree.remove cwd step = .ok after) : after = tree.erase (dir ++ [name] ++ step.inside) := by
  obtain ⟨place, hfinds, -, rfl⟩ := Tree.remove_eq_ok hok
  cases hfinds with
  | root hnil hseek => rw [h.seekParent_eq_ok hseek, hnil, List.append_nil]
  | inside hplace => rw [h.seekInside_eq_ok hplace]

theorem Dead.remove_join (h : tree.Dead cwd path) (hname : Path.IsName name) {step : Removal}
    (hroot : step.root = path.join ⟨name⟩) : ∃ fault, tree.remove cwd step = .error fault := by
  have hparent : ∃ fault, tree.seekParent cwd (path.join ⟨name⟩) = .error fault := by
    rw [h.seekParent_join hname]
    cases (path.join ⟨name⟩).check <;> exact ⟨_, rfl⟩
  have hinside : ∀ inside, ∃ fault, tree.seekInside cwd (path.join ⟨name⟩) inside = .error fault := by
    intro inside
    rw [seekInside, h.seek_join hname]
    cases (path.join ⟨name⟩).check <;> exact ⟨_, rfl⟩
  obtain ⟨fault, hparent⟩ := hparent
  cases step with
  | unlink base inside =>
    obtain rfl : base = path.join ⟨name⟩ := hroot
    obtain ⟨fault', hinside⟩ := hinside inside
    rw [remove, unlinkInside, unlink, hparent, hinside]
    split_ifs <;> exact ⟨_, rfl⟩
  | removeDirectory base inside =>
    obtain rfl : base = path.join ⟨name⟩ := hroot
    obtain ⟨fault', hinside⟩ := hinside inside
    rw [remove, removeInside, removeDirectory, hparent, hinside]
    split_ifs <;> exact ⟨_, rfl⟩

/-- A step of a removal, in a tree in which ways lead where they led before or nowhere, takes one entry from
below the same place or does nothing. -/
theorem LeadsTo.remove_cases (h : base.LeadsTo cwd path dir) (hthins : base.Thins tree)
    (hname : Path.IsName name) {step : Removal} (hroot : step.root = path.join ⟨name⟩) :
    tree.remove cwd step = .ok (tree.erase (dir ++ [name] ++ step.inside)) ∨
      ∃ fault, tree.remove cwd step = .error fault := by
  cases hremove : tree.remove cwd step with
  | error fault => exact .inr ⟨fault, rfl⟩
  | ok after =>
    rcases h.thins hthins with hleads | hdead
    · refine .inl (congrArg Except.ok (Names.remove_eq_ok ?_ hremove))
      rw [hroot]
      exact hleads.names_join hname
    · obtain ⟨fault, herror⟩ := hdead.remove_join hname hroot
      rw [herror] at hremove
      cases hremove

/-! ## What is to be removed -/

theorem Names.removals_eq_ok (h : tree.Names cwd path dir name) (hsound : tree.Sound) {steps : List Removal}
    (hok : tree.removals cwd path = .ok steps) :
    (∀ step ∈ steps, step.root = path) ∧ ∀ q, dir ++ [name] <+: q → tree.get? q ≠ none →
      ∃ step ∈ steps, dir ++ [name] ++ step.inside = q := by
  obtain ⟨left, hseek⟩ := h.seek_eq
  by_cases hfit : Fits path name
  · cases hget : tree.get? (dir ++ [name]) with
    | none =>
      rw [removals, h.seek_of_none hfit hget] at hok
      cases hok
    | some entry =>
      cases entry with
      | directory =>
        rw [h.removals_of_directory hfit hget] at hok
        obtain rfl := Except.ok.inj hok
        refine ⟨fun step hstep => ?_, fun q hpre hsome => ?_⟩
        · obtain ⟨e, -, rfl⟩ := List.mem_map.1 hstep
          dsimp only
          split_ifs <;> rfl
        · obtain ⟨e, he⟩ := Option.ne_none_iff_exists'.1 hsome
          have hne : q ≠ [] := by
            rintro rfl
            simp at hpre
          have hmem : (q, e) ∈ tree.under (dir ++ [name]) := hsound.mem_under_iff.2 ⟨hne, hpre, he⟩
          refine ⟨_, List.mem_map.2 ⟨(q, e), List.mem_reverse.2 hmem, rfl⟩, ?_⟩
          obtain ⟨rest, rfl⟩ := hpre
          dsimp only
          split_ifs <;> rw [Removal.inside, List.drop_left]
      | file content =>
        rw [removals, h.seek_of_file hfit hget] at hok
        cases hok
      | link target =>
        rw [removals, hseek, hfit.check, walk_cons, if_neg h.isName.ne_dot, if_neg h.isName.ne_dotDot,
          if_neg (Nat.not_lt.2 hfit.short), hget] at hok
        obtain rfl := Except.ok.inj hok
        refine ⟨fun step hstep => ?_, fun q hpre hsome => ⟨_, List.mem_singleton_self _, ?_⟩⟩
        · obtain rfl := List.mem_singleton.1 hstep
          rfl
        · obtain ⟨rest, rfl⟩ := hpre
          by_cases hrest : rest = []
          · rw [hrest]
            rfl
          · exact absurd (hsound.get?_append_eq_none (by simp [hget]) hrest) hsome
  · rw [h.removals_of_not_fits hfit] at hok
    cases hok

end DirLock.Disk.Tree
