import DirLock.Proofs.Disk.Component
import DirLock.Proofs.Disk.Outcome

/-!
# A row of new directories

Making the directories of a path that are missing adds a row of directories, each of which holds the next one and
nothing else, to a tree in which nothing else changes. The row lies along the path: the names before it led to the
directory that it starts in, and they lead through the row now. Another directory that is made for a path that
starts with the same names is the next of the row, or the first. For it cannot stand elsewhere: where the row is
long enough its place is taken, and where it is too short there is no way to the place.
-/

namespace DirLock.Disk.Tree

variable {tree before now next : Tree} {links left left' : Nat} {cur start base place place' : Place}
  {names more front row rest way : List Name} {name : Name}

/-! ## Ways in parts -/

theorem Leads.split (h : tree.Leads links cur (names ++ more) left place) :
    ∃ fewer mid, tree.Leads links cur names fewer mid ∧ tree.Leads fewer mid more left place := by
  generalize hall : names ++ more = all at h
  induction h generalizing names with
  | nil =>
    obtain ⟨rfl, rfl⟩ := List.append_eq_nil_iff.1 hall
    exact ⟨_, _, .nil _ _, .nil _ _⟩
  | here h ih =>
    rcases List.append_eq_cons_iff.1 hall with ⟨rfl, rfl⟩ | ⟨names, rfl, hrest⟩
    · exact ⟨_, _, .nil _ _, .here h⟩
    · obtain ⟨fewer, mid, hfirst, hsecond⟩ := ih hrest.symm
      exact ⟨fewer, mid, .here hfirst, hsecond⟩
  | up h ih =>
    rcases List.append_eq_cons_iff.1 hall with ⟨rfl, rfl⟩ | ⟨names, rfl, hrest⟩
    · exact ⟨_, _, .nil _ _, .up h⟩
    · obtain ⟨fewer, mid, hfirst, hsecond⟩ := ih hrest.symm
      exact ⟨fewer, mid, .up hfirst, hsecond⟩
  | into hdot hup hlen hget h ih =>
    rcases List.append_eq_cons_iff.1 hall with ⟨rfl, rfl⟩ | ⟨names, rfl, hrest⟩
    · exact ⟨_, _, .nil _ _, .into hdot hup hlen hget h⟩
    · obtain ⟨fewer, mid, hfirst, hsecond⟩ := ih hrest.symm
      exact ⟨fewer, mid, .into hdot hup hlen hget hfirst, hsecond⟩
  | through hdot hup hlen hget h ih =>
    rcases List.append_eq_cons_iff.1 hall with ⟨rfl, rfl⟩ | ⟨names, rfl, hrest⟩
    · exact ⟨_, _, .nil _ _, .through hdot hup hlen hget h⟩
    · obtain ⟨fewer, mid, hfirst, hsecond⟩ := ih (by rw [hrest, List.append_assoc])
      exact ⟨fewer, mid, .through hdot hup hlen hget hfirst, hsecond⟩

theorem Leads.unique (h : tree.Leads links cur names left place) (h' : tree.Leads links cur names left' place') :
    left = left' ∧ place = place' := by
  induction h with
  | nil =>
    cases h'
    exact ⟨rfl, rfl⟩
  | here _ ih =>
    cases h' with
    | here h' => exact ih h'
    | into hdot => exact absurd rfl hdot
    | through hdot => exact absurd rfl hdot
  | up _ ih =>
    cases h' with
    | up h' => exact ih h'
    | into _ hup => exact absurd rfl hup
    | through _ hup => exact absurd rfl hup
  | into hdot hup _ hget _ ih =>
    cases h' with
    | here => exact absurd rfl hdot
    | up => exact absurd rfl hup
    | into _ _ _ _ h' => exact ih h'
    | through _ _ _ hlink => cases hlink.symm.trans hget
  | through hdot hup _ hget _ ih =>
    cases h' with
    | here => exact absurd rfl hdot
    | up => exact absurd rfl hup
    | into _ _ _ hdir => cases hdir.symm.trans hget
    | through _ _ _ hlink h' =>
      obtain rfl := Entry.link.inj (Option.some.inj (hlink.symm.trans hget))
      exact ih h'

theorem Leads.plain (h : tree.Leads links cur names left place) :
    tree.Leads links cur (names.filter (· ≠ Path.dot)) left place := by
  induction names generalizing links cur with
  | nil => exact h
  | cons name names ih =>
    rw [← List.singleton_append] at h
    obtain ⟨fewer, mid, hname, hnames⟩ := h.split
    by_cases hdot : name = Path.dot
    · rw [List.filter_cons_of_neg (by simpa using hdot)]
      subst hdot
      cases hname with
      | here hnil =>
        cases hnil
        exact ih hnames
      | into hdot => exact absurd rfl hdot
      | through hdot => exact absurd rfl hdot
    · rw [List.filter_cons_of_pos (by simpa using hdot)]
      exact hname.append (ih hnames)

theorem Leads.get?_ne_none (h : tree.Leads links cur (name :: more) left place) (hdot : name ≠ Path.dot)
    (hup : name ≠ Path.dotDot) : tree.get? (cur ++ [name]) ≠ none := by
  cases h with
  | here => exact absurd rfl hdot
  | up => exact absurd rfl hup
  | into _ _ _ hget => simp [hget]
  | through _ _ _ hget => simp [hget]

/-! ## Rows -/

/-- From the one tree to the other, a row of directories was made where nothing stood, each inside the one before
and the first in the directory at `base`. Nothing else has changed. -/
structure Paves (before after : Tree) (base : Place) (row : List Name) : Prop where
  made : ∀ front, front ≠ [] → front <+: row →
    before.get? (base ++ front) = none ∧ after.get? (base ++ front) = some .directory
  kept : ∀ q, (∀ front, front ≠ [] → front <+: row → q ≠ base ++ front) → after.get? q = before.get? q
  short : ∀ name ∈ row, name.length ≤ Path.longestName

/-- The names are followed along directories: there are no steps up and no dots among them. -/
def Plain (names : List Name) : Prop := ∀ name ∈ names, name ≠ Path.dot ∧ name ≠ Path.dotDot

theorem Paves.refl (tree : Tree) (base : Place) : tree.Paves tree base [] :=
  ⟨fun _ hne hnil => absurd (List.prefix_nil.1 hnil) hne, fun _ _ => rfl, nofun⟩

theorem Paves.within (h : before.Paves now base row) : before.Within now := by
  intro q entry hget
  rw [h.kept q ?_, hget]
  rintro front hne hfront rfl
  rw [(h.made front hne hfront).1] at hget
  cases hget

theorem Paves.bare (h : before.Paves now base row) (hsound : before.Sound) (hne : row ≠ []) (name : Name) :
    now.get? (base ++ row ++ [name]) = none := by
  rw [h.kept]
  · apply hsound.get?_append_eq_none
    · rw [(h.made row hne (List.prefix_refl _)).1]
      exact nofun
    · exact List.cons_ne_nil _ _
  · rintro front - hfront heq
    rw [List.append_assoc] at heq
    have hlong := hfront.length_le
    rw [← List.append_cancel_left heq, List.length_append, List.length_singleton] at hlong
    omega

theorem Paves.leads (h : before.Paves now base row) (hplain : Plain row)
    (hleads : before.Leads links cur front left base) : now.Leads links cur (front ++ row) left (base ++ row) := by
  apply (hleads.mono h.within).append
  -- The row is walked from its start: what was walked of it is a part of it, and so a directory.
  have hrow : ∀ walked rest, walked ++ rest = row → now.Leads left (base ++ walked) rest left (base ++ row) := by
    intro walked rest
    induction rest generalizing walked with
    | nil =>
      intro hwalked
      rw [List.append_nil] at hwalked
      rw [hwalked]
      exact .nil _ _
    | cons name rest ih =>
      intro hwalked
      have hmem : name ∈ row := hwalked ▸ List.mem_append_right _ List.mem_cons_self
      have hwalked' : walked ++ [name] ++ rest = row := by rw [← hwalked, List.append_assoc, List.singleton_append]
      have hdir := (h.made (walked ++ [name]) (by simp) ⟨rest, hwalked'⟩).2
      rw [← List.append_assoc] at hdir
      have hrest := ih (walked ++ [name]) hwalked'
      rw [← List.append_assoc] at hrest
      exact .into (hplain name hmem).1 (hplain name hmem).2 (h.short name hmem) hdir hrest
  have hwhole := hrow [] row rfl
  rwa [List.append_nil] at hwhole

theorem Paves.concat (h : before.Paves now base row) (hlen : name.length ≤ Path.longestName)
    (hfree : now.get? (base ++ row ++ [name]) = none) :
    before.Paves (now.insert (base ++ row ++ [name]) .directory) base (row ++ [name]) := by
  have hlast : base ++ (row ++ [name]) = base ++ row ++ [name] := (List.append_assoc ..).symm
  have hnone : before.get? (base ++ row ++ [name]) = none := by
    rw [Option.eq_none_iff_forall_ne_some]
    intro entry hget
    rw [h.within _ _ hget] at hfree
    cases hfree
  refine ⟨fun front hne hfront => ?_, fun q hq => ?_, fun other hmem => ?_⟩
  · rcases List.prefix_concat_iff.1 hfront with rfl | hfront
    · rw [hlast]
      exact ⟨hnone, by rw [get?_insert (by simp), if_pos rfl]⟩
    · refine ⟨(h.made front hne hfront).1, ?_⟩
      rw [get?_insert (by simp)]
      split_ifs
      · rfl
      · exact (h.made front hne hfront).2
  · have hother : base ++ row ++ [name] ≠ q := fun heq => hq (row ++ [name]) (by simp) (List.prefix_refl _) (by
      rw [← heq, hlast])
    rw [get?_insert (by simp), if_neg hother]
    exact h.kept q fun front hne hfront => hq front hne (hfront.trans (List.prefix_append _ _))
  · rcases List.mem_append.1 hmem with hmem | hmem
    · exact h.short other hmem
    · rwa [List.mem_singleton.1 hmem]

theorem Paves.eq_of_nil (h : before.Paves now base []) (hsound : before.Sound) (hnow : now.Sound) : now = before :=
  hnow.toOrdered.ext hsound.toOrdered fun q => h.kept q fun _ hne hnil => absurd (List.prefix_nil.1 hnil) hne

/-! ## Along a way -/

/-- A row of directories was made along the way: the names of the row come after names that led to where it
starts. -/
def PavesAlong (before after : Tree) (start : Place) (way : List Name) : Prop :=
  ∃ front row rest base left, way = front ++ row ++ rest ∧ before.Leads Path.linkLimit start front left base ∧
    before.Paves after base row

theorem PavesAlong.refl (tree : Tree) (start : Place) (way : List Name) : tree.PavesAlong tree start way :=
  ⟨[], [], way, start, Path.linkLimit, rfl, .nil _ _, .refl _ _⟩

theorem Plain.of_append_left (h : Plain (names ++ more)) : Plain names :=
  fun name hmem => h name (List.mem_append_left _ hmem)

theorem Plain.of_append_right (h : Plain (names ++ more)) : Plain more :=
  fun name hmem => h name (List.mem_append_right _ hmem)

theorem Paves.ends (h : before.Paves now base row) (hsound : before.Sound) (hne : row ≠ []) (hplain : Plain more)
    (hleads : now.Leads links (base ++ row) more left place) : more = [] := by
  cases more with
  | nil => rfl
  | cons name more =>
    obtain ⟨hdot, hup⟩ := hplain name List.mem_cons_self
    exact absurd (h.bare hsound hne name) (hleads.get?_ne_none hdot hup)

theorem PavesAlong.concat (h : before.PavesAlong now start way) (hsound : before.Sound) (hnow : now.Sound)
    (hplain : Plain way) (hway : way = names ++ name :: rest)
    (hleads : now.Leads Path.linkLimit start names left place) (hlen : name.length ≤ Path.longestName)
    (hfree : now.get? (place ++ [name]) = none) :
    before.PavesAlong (now.insert (place ++ [name]) .directory) start way := by
  obtain ⟨front, row, tail, base, fewer, hparts, hfront, hpaves⟩ := h
  by_cases hrow : row = []
  · -- Nothing was made yet, so the row starts here.
    subst hrow
    obtain rfl := hpaves.eq_of_nil hsound hnow
    have hfirst := Paves.concat (.refl now place) hlen (by rwa [List.append_nil])
    rw [List.append_nil, List.nil_append] at hfirst
    exact ⟨names, [name], rest, place, left, by simpa using hway, hleads, hfirst⟩
  · have hrowPlain : Plain row := by
      rw [hparts] at hplain
      exact hplain.of_append_left.of_append_right
    have hthrough := hpaves.leads hrowPlain hfront
    have heq : names ++ (name :: rest) = (front ++ row) ++ tail := hway.symm.trans hparts
    -- Behind the end of the row, the new directory is the next one.
    have hnext : names = front ++ row →
        before.PavesAlong (now.insert (place ++ [name]) .directory) start way := by
      intro hend
      rw [hend] at hleads
      obtain ⟨-, rfl⟩ := hleads.unique hthrough
      refine ⟨front, row ++ [name], rest, base, fewer, ?_, hfront, hpaves.concat hlen hfree⟩
      rw [hway, hend]
      simp
    rcases List.append_eq_append_iff.1 heq with ⟨part, hpart, hrest⟩ | ⟨part, hpart, hrest⟩
    · cases part with
      | nil => exact hnext (by rw [hpart, List.append_nil])
      | cons first part =>
        -- The row goes on behind the place, so that something stands there.
        obtain ⟨rfl, -⟩ := List.cons.inj hrest
        rw [hpart] at hthrough
        obtain ⟨_, _, hup, hon⟩ := hthrough.split
        obtain ⟨rfl, rfl⟩ := hup.unique hleads
        have hname := hplain name (by rw [hway]; exact List.mem_append_right _ List.mem_cons_self)
        exact absurd hfree (hon.get?_ne_none hname.1 hname.2)
    · -- There is no way behind the end of the row.
      have hpartPlain : Plain part := by
        rw [hway, hpart] at hplain
        exact hplain.of_append_left.of_append_right
      have hbehind := hleads
      rw [hpart] at hbehind
      obtain ⟨_, _, hup, hon⟩ := hbehind.split
      obtain ⟨-, rfl⟩ := hup.unique hthrough
      obtain rfl := hpaves.ends hsound hrow hpartPlain hon
      exact hnext (by rw [hpart, List.append_nil])

end DirLock.Disk.Tree
