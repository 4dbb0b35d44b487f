import DirLock.Proofs.Config.Valid
import DirLock.Proofs.Disk.Pave
import DirLock.Proofs.Lock.Language
import DirLock.Proofs.Lock.Query
import DirLock.Proofs.Lock.Requests

/-!
# Opening does no harm

A handle that is opened claims nothing and damages nothing. If it is refused for its name, for its settings or
because there is no nonce, nothing is touched. Otherwise directories along the parent's path are asked for, the path
and those above it, and nothing else; so what was made in the end, whether all of it or a part, is a row of new
directories along that path. A claim in the last of them would be the next of the row. It is not, since the row ends
with the path: so at the claim's place nothing has changed.
-/

namespace DirLock

open Disk (Tree Place Path Name Entry EntryKind Fault)
open Disk.Tree (Leads LeadsTo PavesAlong Paves Plain)
open Routine (Yields)

/-! ## Directories along a path -/

namespace Disk.Path

theorem mem_ancestors {depth : Nat} {path above : Path} (h : above ∈ path.ancestors depth) :
    above.plainNames <+: path.plainNames ∧ above.isAbsolute = path.isAbsolute := by
  induction depth generalizing path with
  | zero => cases h
  | succ depth ih =>
    rcases List.mem_cons.1 h with rfl | h
    · exact ⟨List.prefix_refl _, rfl⟩
    · split at h
      · cases h
      · rename_i parent hparent
        obtain ⟨hnames, hstart⟩ := ih h
        exact ⟨hnames.trans (plainNames_of_parent? hparent), hstart.trans (isAbsolute_of_parent? hparent)⟩

theorem mem_candidates {path other : Path} (h : other ∈ Routine.candidates path) :
    other.plainNames <+: path.plainNames ∧ other.isAbsolute = path.isAbsolute :=
  mem_ancestors ((List.takeWhile_prefix _).subset h)

theorem plain_plainNames {path : Path} (hup : dotDot ∉ path.names) : Plain path.plainNames := by
  intro name hmem
  obtain ⟨hname, hdot⟩ := List.mem_filter.1 hmem
  exact ⟨by simpa using hdot, fun heq => hup (heq ▸ hname)⟩

theorem exists_mem_pieces {bytes : List UInt8} {b : UInt8} (h : b ∈ bytes) (hb : b ≠ slash) :
    ∃ piece ∈ pieces bytes, b ∈ piece := by
  obtain ⟨front, back, rfl⟩ := List.append_of_mem h
  induction front with
  | nil =>
    rw [List.nil_append, pieces, if_neg hb]
    split
    · exact ⟨[b], List.mem_singleton.2 rfl, List.mem_singleton.2 rfl⟩
    · exact ⟨_, List.mem_cons_self, List.mem_cons_self⟩
  | cons first front ih =>
    obtain ⟨piece, hpiece, hmem⟩ := ih (List.mem_append_right _ List.mem_cons_self)
    rw [List.cons_append, pieces]
    split_ifs
    · exact ⟨piece, List.mem_cons_of_mem _ hpiece, hmem⟩
    · split
      · rename_i hnil
        exact absurd hnil (pieces_ne_nil _)
      · rename_i next more hmore
        rw [hmore] at hpiece
        rcases List.mem_cons.1 hpiece with rfl | hpiece
        · exact ⟨_, List.mem_cons_self, List.mem_cons_of_mem _ hmem⟩
        · exact ⟨piece, List.mem_cons_of_mem _ hpiece, hmem⟩

theorem hasZero_of_candidates_eq_nil {path : Path} (h : Routine.candidates path = []) : path.hasZero = false := by
  rw [← Bool.not_eq_true, hasZero, List.contains_iff_mem]
  intro hzero
  have hparent : path.parent? = none := by
    rw [Routine.candidates, ancestors, List.takeWhile_cons] at h
    split_ifs at h with hmade
    rw [hasName, isEmpty] at hmade
    have hne : path.bytes.isEmpty = false := List.isEmpty_eq_false_iff.2 (List.ne_nil_of_mem hzero)
    simpa [hne] using hmade
  have hnone : path.plainNames = [] := by
    rw [plainNames_eq_filterMap]
    rcases components_of_parent?_none hparent with hnil | hroot
    · rw [hnil]
      rfl
    · rw [hroot]
      rfl
  obtain ⟨piece, hpiece, hmem⟩ := exists_mem_pieces hzero (by decide)
  have hname : piece ∈ path.plainNames := by
    rw [plainNames_eq]
    refine List.mem_filter.2 ⟨hpiece, ?_⟩
    have hne : piece ≠ [] := List.ne_nil_of_mem hmem
    have hdot : piece ≠ dot := by
      rintro rfl
      exact absurd hmem (by decide)
    simp [hne, hdot]
  rw [hnone] at hname
  cases hname

theorem zero_not_mem_of_candidates {path : Path} (hcheck : Routine.candidates path ≠ [] → path.check = .ok ()) :
    0 ∉ path.bytes := by
  by_cases hnone : Routine.candidates path = []
  · have hhas := hasZero_of_candidates_eq_nil hnone
    intro hmem
    rw [hasZero, List.contains_iff_mem.2 hmem] at hhas
    cases hhas
  · exact (short_of_check (hcheck hnone)).1

end Disk.Path

/-! ## What is found along a row -/

namespace Disk.Tree

variable {before after : Tree} {cwd place : Place} {base : Path} {name : Name} {links left : Nat} {start : Place}
  {way : List Name}

theorem PavesAlong.within (h : before.PavesAlong after start way) : before.Within after := by
  obtain ⟨front, row, rest, place, left, -, -, hpaves⟩ := h
  exact hpaves.within

theorem PavesAlong.get?_cases (h : before.PavesAlong after start way) (q : Place) :
    after.get? q = before.get? q ∨ after.get? q = some .directory := by
  obtain ⟨front, row, rest, place, left, -, -, hpaves⟩ := h
  by_cases hmade : ∃ made, made ≠ [] ∧ made <+: row ∧ q = place ++ made
  · obtain ⟨made, hne, hprefix, rfl⟩ := hmade
    exact .inr (hpaves.made made hne hprefix).2
  · exact .inl (hpaves.kept q fun made hne hprefix heq => hmade ⟨made, hne, hprefix, heq⟩)

theorem Paves.holds_next {row made : List Name} (h : before.Paves after place row) (hsound : before.Sound)
    (hne : made ≠ []) (hmade : made <+: row) {child : Name}
    (hchild : after.get? (place ++ made ++ [child]) ≠ none) : made ++ [child] <+: row := by
  by_contra hnext
  apply hchild
  rw [h.kept]
  · apply hsound.get?_append_eq_none
    · rw [(h.made made hne hmade).1]
      exact nofun
    · exact List.cons_ne_nil _ _
  · rintro other - hother heq
    rw [List.append_assoc] at heq
    rw [← List.append_cancel_left heq] at hother
    exact hnext hother

section Row

variable (h : before.PavesAlong after start way) (hbefore : before.Sound) (hafter : after.Sound) (hplain : Plain way)
include h hbefore hafter hplain

theorem PavesAlong.cases_eq : after = before ∨
    (∀ left place, ¬ before.Leads Path.linkLimit start way left place) ∧
      ∀ left place, after.Leads Path.linkLimit start way left place →
        ∀ child, after.get? (place ++ [child]) = none := by
  obtain ⟨front, row, rest, dir, fewer, rfl, hfront, hpaves⟩ := h
  cases row with
  | nil => exact .inl (hpaves.eq_of_nil hbefore hafter)
  | cons first row =>
    right
    constructor
    · intro left place hleads
      rw [List.append_assoc] at hleads
      obtain ⟨_, _, hup, hon⟩ := hleads.split
      obtain ⟨-, rfl⟩ := hup.unique hfront
      have hfirst := hplain first (by simp)
      exact hon.get?_ne_none hfirst.1 hfirst.2 (hpaves.made [first] (by simp) (by simp)).1
    · intro left place hleads child
      obtain ⟨_, _, hup, hon⟩ := hleads.split
      obtain ⟨-, rfl⟩ := hup.unique (hpaves.leads hplain.of_append_left.of_append_right hfront)
      obtain rfl := hpaves.ends hbefore (List.cons_ne_nil _ _) hplain.of_append_right hon
      cases hon
      exact hpaves.bare hbefore (List.cons_ne_nil _ _) child

theorem PavesAlong.get?_eq (hleads : after.Leads Path.linkLimit start way left place) (child : Name) :
    after.get? (place ++ [child]) = before.get? (place ++ [child]) := by
  rcases h.cases_eq hbefore hafter hplain with rfl | ⟨-, hempty⟩
  · rfl
  · have hnone := hempty left place hleads child
    rw [hnone, eq_comm, Option.eq_none_iff_forall_ne_some]
    intro entry hget
    rw [h.within _ _ hget] at hnone
    cases hnone

end Row

/-- Where requests take the path, an entry is found below a path if there is one in the directory that the path leads
to. No entry has a name that is too long. -/
theorem finds_join_iff {tree : Tree} (hname : Path.IsName name) (hcheck : (base.join ⟨name⟩).check = .ok ()) :
    tree.Finds cwd (base.join ⟨name⟩) ↔ name.length ≤ Path.longestName ∧
      ∃ dir entry, tree.LeadsTo cwd base dir ∧ tree.get? (dir ++ [name]) = some entry := by
  constructor
  · intro h
    obtain ⟨hshort, left, dir, hleads, hget⟩ := h.exists_leads hname
    obtain ⟨entry, hentry⟩ := Option.ne_none_iff_exists'.1 hget
    exact ⟨hshort, dir, entry, hleads.leadsTo, hentry⟩
  · rintro ⟨hshort, dir, entry, hleads, hget⟩
    have hkind := (hleads.names_join hname).entryKind_eq ⟨hcheck, hshort⟩
    rw [hget] at hkind
    exact finds_of_ok hkind

theorem PavesAlong.finds_iff (h : before.PavesAlong after (base.start cwd) base.plainNames) (hbefore : before.Sound)
    (hafter : after.Sound) (hup : Path.dotDot ∉ base.names) (hname : Path.IsName name) :
    after.Finds cwd (base.join ⟨name⟩) ↔ before.Finds cwd (base.join ⟨name⟩) := by
  rcases h.cases_eq hbefore hafter (Path.plain_plainNames hup) with rfl | ⟨hnowhere, hempty⟩
  · rfl
  · constructor
    · intro hentry
      obtain ⟨-, left, dir, hleads, hget⟩ := hentry.exists_leads hname
      exact absurd (hempty left dir hleads.plain name) hget
    · intro hentry
      obtain ⟨-, left, dir, hleads, -⟩ := hentry.exists_leads hname
      exact absurd hleads.plain (hnowhere left dir)

end Disk.Tree

/-! ## Making the directories of a path -/

variable {supply : Supply} {programs : Machine.Programs} {machine : Machine} {cwd : Place} {ground : Tree}
  {path parent : Path}

/-- The machine works in this directory on a sound tree, which is the other one with a row of directories along the
path. -/
structure Machine.Paved (machine : Machine) (cwd : Place) (ground : Tree) (path : Path) : Prop where
  directory : machine.directory = cwd
  sound : machine.tree.Sound
  along : ground.PavesAlong machine.tree (path.start cwd) path.plainNames

theorem Machine.Paved.answer (hcwd : ground.get? cwd = some .directory) (hground : ground.Sound)
    (hup : Path.dotDot ∉ path.names) {r : Request} (hr : r.Makes (Routine.candidates path))
    (h : machine.Paved cwd ground path) : (Machine.answer supply programs r machine).2.Paved cwd ground path := by
  cases r with
  | isDirectory other => exact h
  | makeDirectory other =>
    show (machine.change (machine.tree.makeDirectory machine.directory other)).2.Paved cwd ground path
    cases hmade : machine.tree.makeDirectory machine.directory other with
    | error fault => exact h
    | ok tree =>
      obtain ⟨hsound, -, -⟩ := Tree.adds_of_makeDirectory h.sound
        (h.along.within _ _ (h.directory ▸ hcwd)) hmade
      refine ⟨h.directory, hsound, ?_⟩
      obtain ⟨⟨rest, hrest⟩, hstart⟩ := Path.mem_candidates hr
      obtain ⟨dir, name, hseek, hlen, hfree, rfl⟩ := Tree.makeDirectory_eq_ok hmade
      obtain ⟨-, hlast, left, hleads⟩ := Tree.seekParent_eq_ok hseek
      obtain ⟨hnames, hdot, -⟩ := Tree.lastName_eq_name hlast.symm
      have hplainNames : other.plainNames = other.names.dropLast.filter (· ≠ Path.dot) ++ [name] := by
        rw [Path.plainNames, hnames, List.filter_append, List.filter_cons_of_pos (by simpa using hdot), ← hnames]
        rfl
      rw [hplainNames, List.append_assoc, List.singleton_append] at hrest
      rw [Path.start, hstart, ← Path.start, h.directory] at hleads
      exact h.along.concat hground h.sound (Path.plain_plainNames hup) hrest.symm hleads.plain hlen hfree
  | _ => exact hr.elim

theorem yields_makeDirectories_paved (hcwd : ground.get? cwd = some .directory) (hground : ground.Sound)
    (hup : Path.dotDot ∉ path.names) (h : machine.Paved cwd ground path) :
    Yields (Machine.answer supply programs) (Routine.makeDirectories path) machine
      fun _ after => after.Paved cwd ground path := by
  have hkeeps (r : Request) (state : Machine) (hr : r.Makes (Routine.candidates path))
      (hkept : state.Paved cwd ground path) : (Machine.answer supply programs r state).2.Paved cwd ground path :=
    hkept.answer hcwd hground hup hr
  exact (uses_makeDirectories_makes path).run_induction hkeeps h

theorem yields_makeDirectories_check (hne : Routine.candidates path ≠ []) :
    Yields (Machine.answer supply programs) (Routine.makeDirectories path) machine
      fun result _ => result = .ok () → path.check = .ok () := by
  cases hcheck : path.check with
  | ok _ => exact fun _ => rfl
  | error fault =>
    have hmade : machine.tree.makeDirectory machine.directory path = .error fault := by
      rw [Tree.makeDirectory, Tree.seekParent, hcheck]
      rfl
    obtain ⟨hempty, above, hcandidates⟩ : path.isEmpty = false ∧ ∃ above, Routine.candidates path = path :: above := by
      rw [Routine.candidates, Path.ancestors, List.takeWhile_cons] at hne ⊢
      split_ifs at hne ⊢ with hhead
      · simp only [Bool.and_eq_true, Bool.not_eq_true'] at hhead
        exact ⟨hhead.1, _, rfl⟩
      · exact absurd rfl hne
    have hkind : fault.kind ≠ .notFound ∧ fault.kind ≠ .alreadyExists := by
      rw [Path.check, hempty, if_neg Bool.false_ne_true] at hcheck
      split_ifs at hcheck <;> obtain rfl := Except.error.inj hcheck <;> exact ⟨by decide, by decide⟩
    have hfirst : Yields (Machine.answer supply programs) (Routine.makeFirst (Routine.candidates path)) machine
        fun result _ => result = .error fault := by
      rw [hcandidates, Routine.makeFirst]
      refine yields_of_answer (change_error hmade) ?_
      dsimp only
      rw [if_neg hkind.1, if_neg hkind.2]
      exact rfl
    refine hfirst.bind fun result after hresult => ?_
    subst hresult
    exact fun hok => by cases hok

theorem Machine.Paved.get?_of_leadsTo (h : machine.Paved cwd ground path) (hcwd : ground.get? cwd = some .directory)
    {dir : Place} (hleads : machine.tree.LeadsTo cwd path dir) : machine.tree.get? dir = some .directory := by
  obtain ⟨left, hleads⟩ := hleads.leads
  apply hleads.get?_eq h.sound
  unfold Path.start
  split_ifs
  · rfl
  · exact h.along.within _ _ hcwd

theorem yields_openWith (hcwd : ground.get? cwd = some .directory) (hground : ground.Sound)
    (hup : Path.dotDot ∉ parent.names) (h : machine.Paved cwd ground parent) (name : LockName) (config : Config)
    (nonce : Nonce) :
    Yields (Machine.answer supply programs) (Lock.openWith parent name config nonce) machine
      fun result after => after.Paved cwd ground parent ∧
        ((∃ fault, result = .error (.io .createParent parent fault)) ∨
          result = .ok ⟨name, parent, nonce, config⟩ ∧ (∃ dir, after.tree.LeadsTo cwd parent dir) ∧
            (Routine.candidates parent ≠ [] → parent.check = .ok ())) := by
  have hadds : machine.Adds cwd machine.tree := ⟨h.directory, h.sound, .refl _⟩
  have hpaved := @yields_makeDirectories_paved supply programs machine cwd ground parent hcwd hground hup h
  have hleads := @yields_makeDirectories supply programs machine.tree cwd machine (h.along.within _ _ hcwd) hadds parent
  have hcheck := @yields_makeDirectories_check supply programs machine parent
  have hmade : Yields (Machine.answer supply programs) (Routine.makeDirectories parent) machine
      fun result after => after.Paved cwd ground parent ∧ (result = .ok () →
        (∃ dir, after.tree.LeadsTo cwd parent dir) ∧ (Routine.candidates parent ≠ [] → parent.check = .ok ())) :=
    ⟨hpaved, fun hok => ⟨hleads.2 hok, fun hne => hcheck hne hok⟩⟩
  refine hmade.bind ?_
  rintro (fault | _) after ⟨hafter, hok⟩
  · exact ⟨hafter, .inl ⟨fault, rfl⟩⟩
  · exact ⟨⟨hafter.directory, hafter.sound, hafter.along⟩, .inr ⟨rfl, hok rfl⟩⟩

/-! ## A handle that was opened -/

/-- A handle that has only been opened: its parent leads to a directory, it holds nothing, and the lock is taken if it
was taken before. -/
structure Lock.IsIdle (supply : Supply) (programs : Machine.Programs) (lock : Lock) (before after : Machine) :
    Prop where
  leads : ∃ dir, after.tree.LeadsTo after.directory lock.parent dir ∧ after.tree.get? dir = some .directory
  /-- Requests find the directory if the path is short enough for them. The empty path is the current directory. -/
  finds : lock.parent.bytes.length < Path.lengthLimit →
    lock.parent = .empty ∨ after.tree.isDirectory after.directory lock.parent = true
  not_held : (lock.isHeld.run (Machine.answer supply programs) after).1 = false
  taken_iff : (lock.isLocked.run (Machine.answer supply programs) after).1 = .ok true ↔
    before.tree.Finds before.directory lock.claimDir
  /-- Where the claim's path is short enough for requests, what they find is what stands in the parent. -/
  taken_iff_get? : lock.claimDir.bytes.length < Path.lengthLimit →
    ((lock.isLocked.run (Machine.answer supply programs) after).1 = .ok true ↔
      lock.name.bytes.length ≤ Path.longestName ∧ ∃ dir entry, before.tree.LeadsTo before.directory lock.parent dir ∧
        before.tree.get? (dir ++ [lock.name.bytes]) = some entry)

/-- The nonce that is drawn next is not the content of a file. -/
def Machine.Unread (supply : Supply) (machine : Machine) : Prop :=
  ∀ nonce, supply.nonce machine.drawn = .ok nonce →
    ∀ place content, machine.tree.get? place = some (.file content) → content ≠ nonce.bytes

theorem Machine.Unread.of_entries (hsound : machine.tree.Sound) (h : ∀ nonce,
    supply.nonce machine.drawn = .ok nonce → ∀ e ∈ machine.tree.entries, e.2 ≠ .file nonce.bytes) :
    machine.Unread supply := by
  rintro nonce hnonce place content hget rfl
  have hne : place ≠ [] := by
    rintro rfl
    cases hget
  exact h nonce hnonce _ (hsound.toOrdered.mem_entries_iff.2 ⟨hne, hget⟩) rfl

/-- Where nothing was made but directories, a lock whose nonce no file held before is not held. -/
theorem Lock.not_isHeldAt_of_paved {before after : Machine} {lock : Lock}
    (hfresh : ∀ place content, before.tree.get? place = some (.file content) → content ≠ lock.nonce.bytes)
    (h : after.Paved before.directory before.tree lock.parent) : ¬ lock.IsHeldAt after := by
  intro hheld
  rw [Lock.IsHeldAt, Tree.readFile] at hheld
  obtain ⟨spot, hseek, hread⟩ := Tree.ok_of_bind hheld
  rcases spot with ⟨place, entry⟩ | _
  · cases entry with
    | file content =>
      obtain rfl := Except.ok.inj hread
      have hget := Tree.get?_of_seek (by simp) hseek
      rcases h.along.get?_cases place with heq | hdir
      · exact hfresh place _ (heq.symm.trans hget) rfl
      · cases hdir.symm.trans hget
    | _ => cases hread
  · cases hread

theorem Lock.isIdle_of_paved {before after : Machine} {lock : Lock} (hsound : before.tree.Sound)
    (hcwd : before.tree.get? before.directory = some .directory) (hup : Path.dotDot ∉ lock.parent.names)
    (hfresh : ∀ place content, before.tree.get? place = some (.file content) → content ≠ lock.nonce.bytes)
    (h : after.Paved before.directory before.tree lock.parent)
    (hleads : ∃ dir, after.tree.LeadsTo before.directory lock.parent dir)
    (hcheck : Routine.candidates lock.parent ≠ [] → lock.parent.check = .ok ()) :
    lock.IsIdle supply programs before after := by
  have hzero : 0 ∉ lock.parent.bytes := Path.zero_not_mem_of_candidates hcheck
  have htaken : (lock.isLocked.run (Machine.answer supply programs) after).1 = .ok true ↔
      before.tree.Finds before.directory lock.claimDir := by
    have hinspected := @yields_isLocked_inspected supply programs lock after
    rw [hinspected.1, Lock.inspected_eq_true_iff, h.directory, Lock.claimDir_eq]
    exact h.along.finds_iff hsound h.sound hup lock.name.isName
  refine ⟨?_, fun hshort => ?_, ?_, htaken, fun hshort => htaken.trans ?_⟩
  · obtain ⟨dir, hdir⟩ := hleads
    exact ⟨dir, h.directory.symm ▸ hdir, h.get?_of_leadsTo hcwd hdir⟩
  · by_cases hempty : lock.parent.bytes = []
    · exact .inl (congrArg Disk.Path.mk hempty)
    · obtain ⟨dir, hdir⟩ := hleads
      rw [h.directory]
      exact .inr (Tree.isDirectory_of_leadsTo hdir (Path.check_of_short hempty hzero hshort))
  · rw [← Bool.not_eq_true, Lock.isHeld_run]
    exact Lock.not_isHeldAt_of_paved hfresh h
  · rw [Lock.claimDir_eq] at hshort ⊢
    exact Tree.finds_join_iff lock.name.isName (Path.check_of_short
      (Path.bytes_join_ne_nil lock.name.isName _) (Path.zero_not_mem_join lock.name.isName hzero) hshort)

/-! ## Opening a handle -/

/-- What a machine is spared in the opening of a handle: whatever stood there stands there still, and no lock in the
parent was claimed. -/
structure Machine.Spares (before after : Machine) (parent : Path) : Prop where
  directory : after.directory = before.directory
  /-- What is new is a row of directories along the path of the parent, and each of them holds the next one only.
  Everything else is as it was. -/
  along : ∃ front row rest base left, parent.plainNames = front ++ row ++ rest ∧
    before.tree.Leads Path.linkLimit (parent.start before.directory) front left base ∧
    before.tree.Paves after.tree base row ∧
    ∀ made child, made ≠ [] → made <+: row → after.tree.get? (base ++ made ++ [child]) ≠ none →
      made ++ [child] <+: row
  /-- Nothing has changed at the place of a claim. -/
  claim_get? : ∀ (name : LockName) (dir : Place), after.tree.LeadsTo after.directory parent dir →
    after.tree.get? (dir ++ [name.bytes]) = before.tree.get? (dir ++ [name.bytes])
  /-- The path of a claim leads to something if it did before. -/
  claim_found : ∀ name : LockName, after.tree.Finds after.directory (parent.join name.toPath) ↔
    before.tree.Finds before.directory (parent.join name.toPath)

theorem Machine.Paved.spares {before after : Machine} (h : after.Paved before.directory before.tree parent)
    (hsound : before.tree.Sound) (hup : Path.dotDot ∉ parent.names) : before.Spares after parent where
  directory := h.directory
  along := by
    obtain ⟨front, row, rest, base, left, hparts, hfront, hpaves⟩ := h.along
    exact ⟨front, row, rest, base, left, hparts, hfront, hpaves, fun _ _ hne hmade =>
      hpaves.holds_next hsound hne hmade⟩
  claim_get? := by
    intro name dir hleads
    rw [h.directory] at hleads
    obtain ⟨left, hleads⟩ := hleads.leads
    exact h.along.get?_eq hsound h.sound (Path.plain_plainNames hup) hleads.plain name.bytes
  claim_found := by
    intro name
    rw [h.directory]
    exact h.along.finds_iff hsound h.sound hup name.isName

/-- How the opening of a handle ends and what the machine is then. The name is looked at first, whatever else is wrong;
then the settings; and only then is a nonce drawn and the parent made. -/
inductive Lock.Opening (supply : Supply) (programs : Machine.Programs) (parent : Path) (name : String)
    (config : Config) (before : Machine) : Except LockError Lock → Machine → Prop
  /-- The name is refused, and nothing is touched. -/
  | badName : ¬ IsNameText name.toList →
    Opening supply programs parent name config before (.error (.invalidName name LockName.pattern)) before
  /-- The settings are refused, and nothing is touched. -/
  | badConfig (reason : String) : IsNameText name.toList → config.validate = .error (.config reason) →
    Opening supply programs parent name config before (.error (.config reason)) before
  /-- There is no nonce, and nothing is touched in the tree. -/
  | noNonce (reason : String) (after : Machine) : IsNameText name.toList → config.validate = .ok () →
    supply.nonce before.drawn = .error reason → after.tree = before.tree →
    Opening supply programs parent name config before (.error (.randomSource reason)) after
  /-- The directories of the parent could not all be made. -/
  | noParent (nonce : Nonce) (fault : Fault) (after : Machine) : IsNameText name.toList → config.validate = .ok () →
    supply.nonce before.drawn = .ok nonce →
    Opening supply programs parent name config before (.error (.io .createParent parent fault)) after
  /-- There is a handle for what was asked for. -/
  | opened (lock : Lock) (after : Machine) : IsNameText name.toList → config.validate = .ok () →
    supply.nonce before.drawn = .ok lock.nonce → lock.parent = parent → lock.name.text = name →
    lock.config = config → lock.IsIdle supply programs before after →
    Opening supply programs parent name config before (.ok lock) after

/-- Opening a handle claims nothing and does no harm, on any tree and however it ends. -/
theorem Lock.openIn_harmless {before after : Machine} {name : String} {config : Config}
    {result : Except LockError Lock} (hsound : before.tree.Sound)
    (hcwd : before.tree.get? before.directory = some .directory) (hup : Path.dotDot ∉ parent.names)
    (hfresh : before.Unread supply)
    (hrun : (Lock.openIn parent name config).run (Machine.answer supply programs) before = (result, after)) :
    Lock.Opening supply programs parent name config before result after ∧ before.Spares after parent := by
  suffices hends : Yields (Machine.answer supply programs) (Lock.openIn parent name config) before
      fun result after => Lock.Opening supply programs parent name config before result after ∧
        after.Paved before.directory before.tree parent by
    rw [Yields, hrun] at hends
    exact ⟨hends.1, hends.2.spares hsound hup⟩
  unfold Lock.openIn
  cases hname : validateName name with
  | error error =>
    have hbad : ¬ IsNameText name.toList := fun h => by
      obtain ⟨_, hok⟩ := validateName_eq_ok_iff.2 h
      cases hname.symm.trans hok
    obtain rfl := Except.error.inj (hname.symm.trans (validateName_eq_error hbad))
    exact ⟨.badName hbad, rfl, hsound, .refl _ _ _⟩
  | ok lockName =>
    have hgood : IsNameText name.toList := validateName_eq_ok_iff.1 ⟨lockName, hname⟩
    dsimp only
    rcases Config.validate_cases config with hvalid | ⟨reason, hinvalid⟩
    · rw [hvalid]
      dsimp only
      let drawn : Machine := { before with drawn := before.drawn + 1 }
      have hdrawn : drawn.Paved before.directory before.tree parent := ⟨rfl, hsound, .refl _ _ _⟩
      cases hnonce : supply.nonce before.drawn with
      | error reason =>
        refine yields_of_answer (congrArg (·, drawn) hnonce) ?_
        exact ⟨.noNonce reason _ hgood hvalid hnonce rfl, hdrawn⟩
      | ok nonce =>
        refine yields_of_answer (congrArg (·, drawn) hnonce) ?_
        refine (yields_openWith hcwd hsound hup hdrawn lockName config nonce).mono ?_
        rintro _ after ⟨hpaved, ⟨fault, rfl⟩ | ⟨rfl, hleads, hcheck⟩⟩
        · exact ⟨.noParent nonce fault _ hgood hvalid hnonce, hpaved⟩
        · have hidle : Lock.IsIdle supply programs ⟨lockName, parent, nonce, config⟩ before after :=
            Lock.isIdle_of_paved hsound hcwd hup (hfresh nonce hnonce) hpaved hleads hcheck
          exact ⟨.opened _ _ hgood hvalid hnonce rfl (text_of_validateName hname) rfl hidle, hpaved⟩
    · rw [hinvalid]
      exact ⟨.badConfig reason hgood hinvalid, rfl, hsound, .refl _ _ _⟩

namespace Site

/-- A machine with a directory `p`, a claim of the lock `a` in it, and a link `q` to it. -/
def linked : Machine :=
  .ofTree ⟨[([[0x70]], .directory), ([[0x70], [0x61]], .directory), ([[0x70], [0x61], heldBytes], .file [0x30]),
    ([[0x71]], .link (.ofString "p"))]⟩ [] ⟨0, 0⟩

theorem linked_sound : linked.tree.Sound := ⟨⟨by decide, by decide⟩, by decide⟩

theorem linked_unread : linked.Unread Supply.counting :=
  .of_entries linked_sound fun nonce hnonce => by
    obtain rfl := Except.ok.inj hnonce
    decide +kernel

/-- How the opening of a handle for the lock `a` ends there. -/
def linkedEnd (parent : String) : Except LockError Lock × Machine :=
  (Lock.openIn (.ofString parent) "a" .default).run (Machine.answer Supply.counting noPrograms) linked

def linkedLock (parent : String) : Lock := ⟨pair.name, .ofString parent, .ofNat 1, .default⟩

/-- Through the link, a handle finds the lock taken; behind it, two directories are made, and there is no lock. -/
theorem linked_harmless :
    (linkedLock "q").IsIdle Supply.counting noPrograms linked (linkedEnd "q").2 ∧
      linked.tree.Finds [] (linkedLock "q").claimDir ∧
      linked.Spares (linkedEnd "q/./x/y").2 (.ofString "q/./x/y") ∧
      (linkedEnd "q/./x/y").2.tree.get? [[0x70], [0x78], [0x79]] = some .directory := by
  have hopened : (linkedEnd "q").1 = .ok (linkedLock "q") := by decide +kernel
  have hopening : Lock.Opening Supply.counting noPrograms (.ofString "q") "a" .default linked (linkedEnd "q").1
      (linkedEnd "q").2 :=
    (Lock.openIn_harmless linked_sound rfl (by decide) linked_unread Prod.mk.eta.symm).1
  rw [hopened] at hopening
  refine ⟨?_, ⟨[[0x70], [0x61]], .directory, by decide +kernel⟩, ?_, by decide +kernel⟩
  · cases hopening with
    | opened _ _ _ _ _ _ _ _ hidle => exact hidle
  · exact (Lock.openIn_harmless linked_sound rfl (by decide) linked_unread
      (show linkedEnd "q/./x/y" = _ from Prod.mk.eta.symm)).2

/-- A path that is so long that requests take it, but not that of a lock below it. -/
def windingPath : Path := ⟨List.replicate 4090 0x2f⟩

/-- A machine with something at the place of the lock `longname`. -/
def windingMachine : Machine := .ofTree ⟨[([Text.bytesOf "longname"], .directory)]⟩ [] ⟨0, 0⟩

theorem windingMachine_sound : windingMachine.tree.Sound := ⟨⟨by decide, by decide⟩, by decide⟩

/-- How the opening of a handle for that lock ends there. -/
def windingEnd : Except LockError Lock × Machine :=
  (Lock.openIn windingPath "longname" .default).run (Machine.answer Supply.counting noPrograms) windingMachine

/-- A path that is too long for requests, and that leads to the root all the same. -/
def endlessPath : Path := ⟨List.replicate 4096 0x2f⟩

/-- How the opening of a handle for a lock below that path ends. -/
def endlessEnd : Except LockError Lock × Machine :=
  (Lock.openIn endlessPath "longname" .default).run (Machine.answer Supply.counting noPrograms) windingMachine

/-- A handle does not always find its lock taken if something stands at the place of the claim, and requests do not
always find the directory for which a handle was opened. -/
theorem not_taken_beyond_reach :
    (¬ ∀ (before after : Machine) (parent : Path) (name : String) (config : Config) (lock : Lock), before.tree.Sound →
      before.tree.get? before.directory = some .directory → Path.dotDot ∉ parent.names →
      before.Unread Supply.counting →
      (Lock.openIn parent name config).run (Machine.answer Supply.counting noPrograms) before = (.ok lock, after) →
      ((lock.isLocked.run (Machine.answer Supply.counting noPrograms) after).1 = .ok true ↔
        ∃ dir entry, before.tree.LeadsTo before.directory parent dir ∧
          before.tree.get? (dir ++ [Text.bytesOf name]) = some entry)) ∧
    ¬ ∀ (before after : Machine) (parent : Path) (name : String) (config : Config) (lock : Lock), before.tree.Sound →
      before.tree.get? before.directory = some .directory → Path.dotDot ∉ parent.names →
      before.Unread Supply.counting →
      (Lock.openIn parent name config).run (Machine.answer Supply.counting noPrograms) before = (.ok lock, after) →
      parent = .empty ∨ after.tree.isDirectory after.directory parent = true := by
  have hunread : windingMachine.Unread Supply.counting :=
    .of_entries windingMachine_sound fun nonce hnonce => by
      obtain rfl := Except.ok.inj hnonce
      decide +kernel
  constructor
  · intro hall
    obtain ⟨hends, hblind⟩ : windingEnd.1.toBool = true ∧ (windingEnd.1.bind fun lock =>
        (lock.isLocked.run (Machine.answer Supply.counting noPrograms) windingEnd.2).1) ≠ .ok true := by
      decide +kernel
    have hleads : windingMachine.tree.LeadsTo [] windingPath [] := by
      unfold Tree.LeadsTo
      decide +kernel
    cases hopened : windingEnd.1 with
    | error error =>
      rw [hopened] at hends
      cases hends
    | ok lock =>
      rw [hopened] at hblind
      refine hblind ((hall windingMachine windingEnd.2 windingPath "longname" .default lock windingMachine_sound rfl
        (by decide +kernel) hunread ?_).2 ⟨[], .directory, hleads, by decide⟩)
      rw [← hopened, Prod.mk.eta, windingEnd]
  · intro hall
    obtain ⟨hends, hblind⟩ : endlessEnd.1.toBool = true ∧
        endlessEnd.2.tree.isDirectory endlessEnd.2.directory endlessPath = false := by decide +kernel
    cases hopened : endlessEnd.1 with
    | error error =>
      rw [hopened] at hends
      cases hends
    | ok lock =>
      rcases hall windingMachine endlessEnd.2 endlessPath "longname" .default lock windingMachine_sound rfl
        (by decide +kernel) hunread (by rw [← hopened, Prod.mk.eta, endlessEnd]) with hempty | hfound
      · cases hempty
      · exact Bool.false_ne_true (hblind.symm.trans hfound)

end Site

end DirLock
