import DirLock.Proofs.Disk.Name
import DirLock.Proofs.Disk.Sound

/-!
# Ways through a tree

Names lead from a directory to a directory if following them, links included, ends there. A way that
leads somewhere goes on leading there as long as the entries it passes stay (`Leads.mono`), and what
follows the names of a longer path starts where the names before it lead (`walk_append`).
-/

namespace DirLock.Disk.Tree

/-- With so many links allowed, the names lead from the directory to a directory, and so many links
are left. -/
inductive Leads (tree : Tree) : Nat → Place → List Name → Nat → Place → Prop
  | nil (links : Nat) (cur : Place) : Leads tree links cur [] links cur
  | here {links left : Nat} {cur place : Place} {rest : List Name} :
    Leads tree links cur rest left place → Leads tree links cur (Path.dot :: rest) left place
  | up {links left : Nat} {cur place : Place} {rest : List Name} :
    Leads tree links cur.dropLast rest left place →
      Leads tree links cur (Path.dotDot :: rest) left place
  | into {links left : Nat} {cur place : Place} {name : Name} {rest : List Name} :
    name ≠ Path.dot → name ≠ Path.dotDot → name.length ≤ Path.longestName →
      tree.get? (cur ++ [name]) = some .directory →
      Leads tree links (cur ++ [name]) rest left place → Leads tree links cur (name :: rest) left place
  | through {links left : Nat} {cur place : Place} {name : Name} {target : Path}
      {rest : List Name} :
    name ≠ Path.dot → name ≠ Path.dotDot → name.length ≤ Path.longestName →
      tree.get? (cur ++ [name]) = some (.link target) →
      Leads tree links (target.start cur) (target.steps ++ rest) left place →
      Leads tree (links + 1) cur (name :: rest) left place

def LeadsTo (tree : Tree) (cwd : Place) (path : Path) (place : Place) : Prop :=
  tree.walk true Path.linkLimit (path.start cwd) path.names = .ok (.found place .directory)

/-- Whatever stands in the first tree stands in the second. -/
def Within (part whole : Tree) : Prop := ∀ q e, part.get? q = some e → whole.get? q = some e

theorem Within.refl (tree : Tree) : tree.Within tree := fun _ _ h => h

theorem Within.trans {a b c : Tree} (h : a.Within b) (h' : b.Within c) : a.Within c :=
  fun q e he => h' q e (h q e he)

variable {tree : Tree} {links left : Nat} {cur place : Place} {names more : List Name}
  {name : Name} {follow : Bool}

theorem Leads.mono {whole : Tree} (h : tree.Within whole)
    (hleads : tree.Leads links cur names left place) : whole.Leads links cur names left place := by
  induction hleads with
  | nil => exact .nil _ _
  | here _ ih => exact .here ih
  | up _ ih => exact .up ih
  | into hdot hup hlen hget _ ih => exact .into hdot hup hlen (h _ _ hget) ih
  | through hdot hup hlen hget _ ih => exact .through hdot hup hlen (h _ _ hget) ih

/-! ## One name -/

theorem walk_nil (tree : Tree) (follow : Bool) (links : Nat) (cur : Place) :
    tree.walk follow links cur [] = .ok (.found cur .directory) := by
  cases links <;> rfl

theorem walk_cons (tree : Tree) (follow : Bool) (links : Nat) (cur : Place) (name : Name)
    (rest : List Name) :
    tree.walk follow links cur (name :: rest) =
      if name = Path.dot then tree.walk follow links cur rest
      else if name = Path.dotDot then tree.walk follow links cur.dropLast rest
      else if name.length > Path.longestName then .error .nameTooLong
      else match tree.get? (cur ++ [name]), rest with
        | none, [] => .ok (.missing cur name)
        | none, _ :: _ => .error .notFound
        | some .directory, rest => tree.walk follow links (cur ++ [name]) rest
        | some (.file content), [] => .ok (.found (cur ++ [name]) (.file content))
        | some (.file _), _ :: _ => .error .notDirectory
        | some (.link target), rest =>
          if rest = [] ∧ follow = false then .ok (.found (cur ++ [name]) (.link target))
          else match links with
            | 0 => .error .loop
            | links + 1 => tree.walk follow links (target.start cur) (target.steps ++ rest) := by
  cases links
  all_goals
    rw [walk, walkWith.eq_def]
    dsimp only
    refine if_congr .rfl rfl (if_congr .rfl rfl (if_congr .rfl rfl ?_))
    cases tree.get? (cur ++ [name]) with
    | none => cases rest <;> rfl
    | some entry => cases entry <;> cases rest <;> cases follow <;> rfl

theorem walk_dot (tree : Tree) (follow : Bool) (links : Nat) (cur : Place) (rest : List Name) :
    tree.walk follow links cur (Path.dot :: rest) = tree.walk follow links cur rest := by
  rw [walk_cons, if_pos rfl]

theorem walk_dotDot (tree : Tree) (follow : Bool) (links : Nat) (cur : Place)
    (rest : List Name) :
    tree.walk follow links cur (Path.dotDot :: rest) = tree.walk follow links cur.dropLast rest := by
  rw [walk_cons, if_neg (by decide), if_pos rfl]

section Plain

variable (hdot : name ≠ Path.dot) (hup : name ≠ Path.dotDot)
include hdot hup

theorem walk_long (hlen : name.length > Path.longestName) (rest : List Name) :
    tree.walk follow links cur (name :: rest) = .error .nameTooLong := by
  rw [walk_cons, if_neg hdot, if_neg hup, if_pos hlen]

variable (hlen : name.length ≤ Path.longestName)
include hlen

theorem walk_directory (hget : tree.get? (cur ++ [name]) = some .directory) (rest : List Name) :
    tree.walk follow links cur (name :: rest) = tree.walk follow links (cur ++ [name]) rest := by
  rw [walk_cons, if_neg hdot, if_neg hup, if_neg (Nat.not_lt.2 hlen), hget]

theorem walk_missing (hget : tree.get? (cur ++ [name]) = none) :
    tree.walk follow links cur [name] = .ok (.missing cur name) := by
  rw [walk_cons, if_neg hdot, if_neg hup, if_neg (Nat.not_lt.2 hlen), hget]

theorem walk_missing_on_way (hget : tree.get? (cur ++ [name]) = none) (hmore : more ≠ []) :
    tree.walk follow links cur (name :: more) = .error .notFound := by
  rw [walk_cons, if_neg hdot, if_neg hup, if_neg (Nat.not_lt.2 hlen), hget]
  cases more with
  | nil => exact absurd rfl hmore
  | cons next rest => rfl

theorem walk_file {content : List UInt8} (hget : tree.get? (cur ++ [name]) = some (.file content)) :
    tree.walk follow links cur [name] = .ok (.found (cur ++ [name]) (.file content)) := by
  rw [walk_cons, if_neg hdot, if_neg hup, if_neg (Nat.not_lt.2 hlen), hget]

theorem walk_link {target : Path} (hget : tree.get? (cur ++ [name]) = some (.link target))
    {rest : List Name} (hfollow : rest ≠ [] ∨ follow = true) :
    tree.walk follow (links + 1) cur (name :: rest) =
      tree.walk follow links (target.start cur) (target.steps ++ rest) := by
  rw [walk_cons, if_neg hdot, if_neg hup, if_neg (Nat.not_lt.2 hlen), hget]
  refine if_neg fun hstop => ?_
  rcases hfollow with hne | htrue
  · exact hne hstop.1
  · exact absurd (htrue.symm.trans hstop.2) (by decide)

end Plain

/-! ## Whole paths -/

theorem walk_append (h : tree.Leads links cur names left place)
    (hmore : more ≠ [] ∨ follow = true) :
    tree.walk follow links cur (names ++ more) = tree.walk follow left place more := by
  induction h with
  | nil => rfl
  | here _ ih => rw [List.cons_append, walk_dot, ih]
  | up _ ih => rw [List.cons_append, walk_dotDot, ih]
  | into hdot hup hlen hget _ ih => rw [List.cons_append, walk_directory hdot hup hlen hget, ih]
  | through hdot hup hlen hget _ ih =>
    rw [List.cons_append, walk_link hdot hup hlen hget, ← List.append_assoc, ih]
    exact hmore.imp_left fun hne hnil => hne (List.append_eq_nil_iff.1 hnil).2

theorem Leads.append {left' : Nat} {place' : Place} (h : tree.Leads links cur names left place)
    (h' : tree.Leads left place more left' place') :
    tree.Leads links cur (names ++ more) left' place' := by
  induction h with
  | nil => exact h'
  | here _ ih => exact .here (ih h')
  | up _ ih => exact .up (ih h')
  | into hdot hup hlen hget _ ih => exact .into hdot hup hlen hget (ih h')
  | through hdot hup hlen hget _ ih =>
    exact .through hdot hup hlen hget (by simpa using ih h')

theorem leads_of_walkWith {again : Place → Path → List Name → Except Errno Spot}
    (hagain : ∀ {cur target rest}, again cur target rest = .ok (.found place .directory) →
      ∃ fewer left, links = fewer + 1 ∧
        tree.Leads fewer (target.start cur) (target.steps ++ rest) left place)
    (h : tree.walkWith again true cur names = .ok (.found place .directory)) :
    ∃ left, tree.Leads links cur names left place := by
  induction names generalizing cur with
  | nil =>
    simp only [walkWith, Except.ok.injEq, Spot.found.injEq, and_true] at h
    exact ⟨links, h ▸ .nil links cur⟩
  | cons name rest ih =>
    rw [walkWith.eq_def] at h
    dsimp only at h
    by_cases hdot : name = Path.dot
    · rw [if_pos hdot] at h
      obtain ⟨left, hleads⟩ := ih h
      exact ⟨left, hdot ▸ .here hleads⟩
    by_cases hup : name = Path.dotDot
    · rw [if_neg hdot, if_pos hup] at h
      obtain ⟨left, hleads⟩ := ih h
      exact ⟨left, hup ▸ .up hleads⟩
    by_cases hlong : name.length > Path.longestName
    · rw [if_neg hdot, if_neg hup, if_pos hlong] at h
      simp at h
    · have hlen := Nat.not_lt.1 hlong
      rw [if_neg hdot, if_neg hup, if_neg hlong] at h
      cases hget : tree.get? (cur ++ [name]) with
      | none => cases rest <;> simp [hget] at h
      | some entry =>
        cases entry with
        | file content => cases rest <;> simp [hget] at h
        | directory =>
          have h : tree.walkWith again true (cur ++ [name]) rest = .ok (.found place .directory) := by
            cases rest <;> simpa [hget] using h
          obtain ⟨left, hleads⟩ := ih h
          exact ⟨left, .into hdot hup hlen hget hleads⟩
        | link target =>
          have h : again cur target rest = .ok (.found place .directory) := by
            cases rest <;> simpa [hget] using h
          obtain ⟨fewer, left, rfl, hleads⟩ := hagain h
          exact ⟨left, .through hdot hup hlen hget hleads⟩

theorem leads_of_walk (h : tree.walk true links cur names = .ok (.found place .directory)) :
    ∃ left, tree.Leads links cur names left place := by
  induction links generalizing cur names with
  | zero => exact leads_of_walkWith (fun h => by simp at h) h
  | succ links ih =>
    refine leads_of_walkWith (fun {cur target rest} h => ?_) h
    obtain ⟨left, hleads⟩ := ih h
    exact ⟨links, left, rfl, hleads⟩

theorem LeadsTo.leads {cwd : Place} {path : Path} (h : tree.LeadsTo cwd path place) :
    ∃ left, tree.Leads Path.linkLimit (path.start cwd) path.names left place :=
  leads_of_walk h

theorem Leads.leadsTo {left : Nat} {cwd : Place} {path : Path}
    (h : tree.Leads Path.linkLimit (path.start cwd) path.names left place) :
    tree.LeadsTo cwd path place := by
  have hwalk := walk_append h (.inr rfl : ([] : List Name) ≠ [] ∨ true = true)
  rwa [List.append_nil, walk_nil] at hwalk

theorem LeadsTo.mono {whole : Tree} {cwd : Place} {path : Path} (h : tree.LeadsTo cwd path place)
    (hwithin : tree.Within whole) : whole.LeadsTo cwd path place := by
  obtain ⟨left, hleads⟩ := h.leads
  exact (hleads.mono hwithin).leadsTo

theorem Leads.get?_eq (hsound : tree.Sound) (h : tree.Leads links cur names left place)
    (hcur : tree.get? cur = some .directory) : tree.get? place = some .directory := by
  induction h with
  | nil => exact hcur
  | here _ ih => exact ih hcur
  | up _ ih => exact ih (hsound.get?_dropLast hcur)
  | into _ _ _ hget _ ih => exact ih hget
  | through _ _ _ _ _ ih =>
    apply ih
    unfold Path.start
    split_ifs
    · rfl
    · exact hcur

end DirLock.Disk.Tree
