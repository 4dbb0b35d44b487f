import DirLock.Proofs.Disk.Name

/-!
# Components of a path

A path is read as a list of components: the root or the current directory, if it starts with them, then names
and steps up. Separators that are doubled or stand at the end say nothing, nor do dots, but for one at the very
start. The parent of a path is the path without its last component, and a plain name that is appended is one
more component.
-/

namespace DirLock.Disk

inductive Component where
  | root
  /-- The current directory, at the start of a path. -/
  | here
  | up
  | normal (name : Name)
  deriving DecidableEq, Repr

namespace Component

def ofName (name : Name) : Component := if name = Path.dotDot then .up else .normal name

def name? : Component → Option Name
  | root => none
  | here => none
  | up => some Path.dotDot
  | normal name => some name

/-- What the first of the pieces of a path says about where the path starts. -/
def lead : List Name → List Component
  | [] => []
  | first :: more =>
    if first = [] then (if more = [] then [] else [.root])
    else if first = Path.dot then [.here] else []

/-- The pieces that are names, dots left out. -/
def namesIn (pieces : List Name) : List Name := pieces.filter fun piece => piece ≠ [] ∧ piece ≠ Path.dot

def ofPieces (pieces : List Name) : List Component := lead pieces ++ (namesIn pieces).map ofName

end Component

namespace Path

def components (path : Path) : List Component := Component.ofPieces (pieces path.bytes)

/-- The names along a path, dots left out. -/
def plainNames (path : Path) : List Name := path.names.filter (· ≠ dot)

theorem plainNames_eq (path : Path) : path.plainNames = Component.namesIn (pieces path.bytes) := by
  rw [plainNames, names, List.filter_filter, Component.namesIn]
  apply List.filter_congr
  intro piece _
  cases piece with
  | nil => simp
  | cons b piece => simp

/-! ## Cutting and writing -/

theorem not_slash_of_mem_pieces {bytes : List UInt8} {piece : Name} (h : piece ∈ pieces bytes) : slash ∉ piece := by
  induction bytes generalizing piece with
  | nil =>
    rw [pieces, List.mem_singleton] at h
    rw [h]
    exact List.not_mem_nil
  | cons b bytes ih =>
    rw [pieces] at h
    split_ifs at h with hb
    · rcases List.mem_cons.1 h with rfl | h
      · exact List.not_mem_nil
      · exact ih h
    · split at h
      · rw [List.mem_singleton] at h
        rw [h, List.mem_singleton]
        exact Ne.symm hb
      · rename_i first more hpieces
        rcases List.mem_cons.1 h with rfl | h
        · rw [List.mem_cons, not_or]
          exact ⟨Ne.symm hb, ih (hpieces ▸ List.mem_cons_self)⟩
        · exact ih (hpieces ▸ List.mem_cons_of_mem _ h)

theorem pieces_joined {parts : List Name} (hne : parts ≠ []) (hslash : ∀ part ∈ parts, slash ∉ part) :
    pieces (joined parts) = parts := by
  induction parts with
  | nil => exact absurd rfl hne
  | cons part parts ih =>
    have hpart := pieces_of_no_slash (hslash part List.mem_cons_self)
    cases parts with
    | nil => exact hpart
    | cons next parts =>
      rw [joined, pieces_append_slash, hpart,
        ih (List.cons_ne_nil _ _) fun other hmem => hslash other (List.mem_cons_of_mem _ hmem)]
      · rfl
      · exact List.cons_ne_nil _ _

theorem isAbsolute_iff (path : Path) :
    path.isAbsolute = true ↔ ∃ more, pieces path.bytes = [] :: more ∧ more ≠ [] := by
  obtain ⟨bytes⟩ := path
  cases bytes with
  | nil => simp [isAbsolute, pieces]
  | cons b bytes =>
    rw [isAbsolute, pieces]
    by_cases hb : b = slash
    · simp [hb, pieces_ne_nil]
    · rw [if_neg hb]
      split
      · simp [hb]
      · simp [hb]

/-! ## Idle pieces -/

theorem dropIdle_suffix (parts : List Name) : dropIdle parts <:+ parts := by
  induction parts with
  | nil => exact List.suffix_refl _
  | cons part before ih =>
    rw [dropIdle]
    split_ifs
    · exact ih.trans (List.suffix_cons _ _)
    · exact List.suffix_refl _

theorem dropIdle_eq_cons {parts before : List Name} {part : Name} (h : dropIdle parts = part :: before) :
    part ≠ [] ∧ (part = dot → before = []) := by
  induction parts with
  | nil => cases h
  | cons first parts ih =>
    rw [dropIdle] at h
    split_ifs at h with hidle
    · exact ih h
    · obtain ⟨rfl, rfl⟩ := List.cons.inj h
      simpa using hidle

end Path

namespace Component

open DirLock.Disk.Path (dot dotDot slash pieces joined dropIdle)

variable {parts before : List Name} {part : Name}

theorem namesIn_append (front back : List Name) : namesIn (front ++ back) = namesIn front ++ namesIn back :=
  List.filter_append ..

theorem lead_append {front : List Name} (hne : front ≠ []) (hempty : front ≠ [[]]) (back : List Name) :
    lead (front ++ back) = lead front := by
  cases front with
  | nil => exact absurd rfl hne
  | cons first more =>
    rw [List.cons_append, lead, lead]
    by_cases hfirst : first = []
    · have hmore : more ≠ [] := fun hnil => hempty (by rw [hfirst, hnil])
      simp [hfirst, hmore]
    · rw [if_neg hfirst, if_neg hfirst]

theorem lead_concat {front : List Name} (hne : front ≠ []) (part other : Name) :
    lead (front ++ [part]) = lead (front ++ [other]) := by
  cases front with
  | nil => exact absurd rfl hne
  | cons first more => simp [lead]

theorem ofPieces_dropIdle (hkept : dropIdle parts ≠ []) :
    ofPieces parts.reverse = ofPieces (dropIdle parts).reverse := by
  induction parts with
  | nil => exact absurd rfl hkept
  | cons part parts ih =>
    rw [dropIdle] at hkept ⊢
    split_ifs at hkept ⊢ with hidle
    · have hne : parts.reverse ≠ [] := by
        rintro hnil
        rw [List.reverse_eq_nil_iff] at hnil
        exact hkept (by rw [hnil]; rfl)
      have hempty : parts.reverse ≠ [[]] := by
        intro hnil
        rw [List.reverse_eq_iff] at hnil
        exact hkept (by rw [hnil]; rfl)
      have hnone : namesIn [part] = [] := by
        simp only [Bool.or_eq_true, Bool.and_eq_true, List.isEmpty_iff, beq_iff_eq] at hidle
        rcases hidle with rfl | ⟨rfl, -⟩
        · rfl
        · rfl
      rw [← ih hkept, List.reverse_cons, ofPieces, lead_append hne hempty, namesIn_append, hnone, List.append_nil]
      rfl
    · rfl

theorem ofPieces_of_idle (hidle : dropIdle parts = []) (hne : parts ≠ []) :
    ∃ more, parts.reverse = [] :: more ∧ namesIn more = [] := by
  induction parts with
  | nil => exact absurd rfl hne
  | cons part parts ih =>
    rw [dropIdle] at hidle
    split_ifs at hidle with hpart
    simp only [Bool.or_eq_true, Bool.and_eq_true, List.isEmpty_iff, beq_iff_eq, Bool.not_eq_true',
      List.isEmpty_eq_false_iff] at hpart
    rw [List.reverse_cons]
    by_cases hnil : parts = []
    · subst hnil
      obtain rfl : part = [] := hpart.resolve_right fun hdot => hdot.2 rfl
      exact ⟨[], rfl, rfl⟩
    · obtain ⟨more, hmore, hnone⟩ := ih hidle hnil
      refine ⟨more ++ [part], by rw [hmore, List.cons_append], ?_⟩
      rw [namesIn_append, hnone]
      rcases hpart with rfl | ⟨rfl, -⟩
      · rfl
      · rfl

end Component

namespace Path

open Component (namesIn ofPieces ofName lead_append namesIn_append lead_concat ofPieces_dropIdle ofPieces_of_idle)

theorem namesIn_singleton {part : Name} (hpart : part ≠ []) (hdot : part ≠ dot) : namesIn [part] = [part] := by
  simp [namesIn, hpart, hdot]

theorem ofName_ne_root (name : Name) : ofName name ≠ .root := by
  rw [ofName]
  split_ifs <;> exact nofun

theorem components_of_parent?_first {path above : Path} {part : Name} {before : List Name}
    (hlast : dropIdle (pieces path.bytes).reverse = part :: before) (hidle : dropIdle before = [])
    (habove : above = if path.isAbsolute then ⟨[slash]⟩ else empty) :
    ∃ last, last ≠ .root ∧ ofPieces (before.reverse ++ [part]) = above.components ++ [last] := by
  obtain ⟨hpart, hdot⟩ := dropIdle_eq_cons hlast
  have hprefix : before.reverse ++ [part] <+: pieces path.bytes := by
    rw [← List.reverse_suffix, List.reverse_append, List.reverse_reverse, List.reverse_singleton,
      List.singleton_append, ← hlast]
    exact dropIdle_suffix _
  by_cases hnil : before = []
  · subst hnil
    have hrelative : path.isAbsolute = false := by
      rw [← Bool.not_eq_true, isAbsolute_iff]
      rintro ⟨more, hmore, -⟩
      rw [hmore, List.reverse_nil, List.nil_append, List.cons_prefix_cons] at hprefix
      exact hpart hprefix.1
    rw [hrelative, if_neg Bool.false_ne_true] at habove
    by_cases hhere : part = dot
    · exact ⟨.here, nofun, by rw [habove, hhere]; rfl⟩
    · refine ⟨ofName part, ofName_ne_root part, ?_⟩
      rw [habove, List.reverse_nil, List.nil_append, ofPieces, namesIn_singleton hpart hhere, Component.lead,
        if_neg hpart, if_neg hhere]
      rfl
  · have hname := namesIn_singleton hpart (mt hdot hnil)
    obtain ⟨more, hmore, hnone⟩ := ofPieces_of_idle hidle hnil
    have habsolute : path.isAbsolute = true := by
      obtain ⟨rest, hrest⟩ := hprefix
      rw [isAbsolute_iff, ← hrest, hmore]
      exact ⟨_, rfl, by simp⟩
    rw [habsolute, if_pos rfl] at habove
    refine ⟨ofName part, ofName_ne_root part, ?_⟩
    rw [habove, hmore, ofPieces, namesIn_append, hname, Component.namesIn, List.filter_cons_of_neg (by simp),
      ← Component.namesIn, hnone]
    cases more <;> rfl

/-- The parent of a path is the path without its last component, which is not the root. -/
theorem components_of_parent? {path above : Path} (h : path.parent? = some above) :
    ∃ last, last ≠ .root ∧ path.components = above.components ++ [last] := by
  rw [parent?] at h
  split at h
  · cases h
  rename_i part before hlast
  have hcomponents : path.components = ofPieces (before.reverse ++ [part]) := by
    have hkept : dropIdle (pieces path.bytes).reverse ≠ [] := by simp [hlast]
    have hsame := ofPieces_dropIdle hkept
    rwa [List.reverse_reverse, hlast, List.reverse_cons] at hsame
  rw [hcomponents]
  split at h
  · exact components_of_parent?_first hlast ‹_› (Option.some.inj h).symm
  · rename_i hkept
    obtain rfl := Option.some.inj h
    obtain ⟨hpart, hdot⟩ := dropIdle_eq_cons hlast
    have hne : before ≠ [] := by
      rintro rfl
      exact hkept rfl
    have hempty : before ≠ [[]] := by
      rintro rfl
      exact hkept rfl
    have hslash : ∀ piece ∈ (dropIdle before).reverse, slash ∉ piece := by
      intro piece hpiece
      have hwhole : piece ∈ dropIdle (pieces path.bytes).reverse := by
        rw [hlast]
        exact List.mem_cons_of_mem _ ((dropIdle_suffix before).subset (List.mem_reverse.1 hpiece))
      exact not_slash_of_mem_pieces (List.mem_reverse.1 ((dropIdle_suffix _).subset hwhole))
    have hpieces : pieces (joined (dropIdle before).reverse) = (dropIdle before).reverse :=
      pieces_joined (by simpa using hkept) hslash
    have habove := ofPieces_dropIdle hkept
    refine ⟨ofName part, ofName_ne_root part, ?_⟩
    rw [components, hpieces, ← habove, ofPieces, ofPieces, namesIn_append, namesIn_singleton hpart (mt hdot hne),
      lead_append (by simpa using hne) (by simpa [List.reverse_eq_iff] using hempty)]
    simp

theorem components_of_parent?_none {path : Path} (h : path.parent? = none) :
    path.components = [] ∨ path.components = [.root] := by
  have hidle : dropIdle (pieces path.bytes).reverse = [] := by
    rw [parent?] at h
    split at h
    · assumption
    · split at h <;> cases h
  obtain ⟨more, hmore, hnone⟩ := ofPieces_of_idle hidle (by simpa using pieces_ne_nil path.bytes)
  rw [List.reverse_reverse] at hmore
  rw [components, hmore, ofPieces, Component.namesIn, List.filter_cons_of_neg (by simp), ← Component.namesIn, hnone]
  cases more with
  | nil => exact .inl rfl
  | cons next more => exact .inr rfl

/-! ## Names and the start -/

theorem filterMap_lead (parts : List Name) : (Component.lead parts).filterMap Component.name? = [] := by
  cases parts with
  | nil => rfl
  | cons first more =>
    rw [Component.lead]
    split_ifs <;> rfl

theorem plainNames_eq_filterMap (path : Path) : path.plainNames = path.components.filterMap Component.name? := by
  have hname : Component.name? ∘ ofName = some := by
    funext name
    rw [Function.comp_apply, ofName]
    split_ifs with hup
    · rw [hup]
      rfl
    · rfl
  rw [plainNames_eq, components, ofPieces, List.filterMap_append, filterMap_lead, List.filterMap_map, hname,
    List.filterMap_some, List.nil_append]

theorem isAbsolute_iff_head? (path : Path) : path.isAbsolute = true ↔ path.components.head? = some .root := by
  rw [isAbsolute_iff, components, ofPieces]
  cases pieces path.bytes with
  | nil => simp [Component.lead, ofName_ne_root]
  | cons first more =>
    rw [Component.lead]
    split_ifs with hfirst hmore hdot
    · simp [hfirst, hmore, ofName_ne_root]
    · simp [hfirst, hmore]
    · simp [hfirst]
    · simp [hfirst, ofName_ne_root]

theorem plainNames_of_parent? {path above : Path} (h : path.parent? = some above) :
    above.plainNames <+: path.plainNames := by
  obtain ⟨last, -, hlast⟩ := components_of_parent? h
  rw [plainNames_eq_filterMap, plainNames_eq_filterMap, hlast, List.filterMap_append]
  exact List.prefix_append _ _

theorem isAbsolute_of_parent? {path above : Path} (h : path.parent? = some above) :
    above.isAbsolute = path.isAbsolute := by
  obtain ⟨last, hroot, hlast⟩ := components_of_parent? h
  rw [Bool.eq_iff_iff, isAbsolute_iff_head?, isAbsolute_iff_head?, hlast]
  cases above.components with
  | nil => simp [hroot]
  | cons first more => simp

/-! ## Appending a name -/

theorem components_join {name : Name} (h : IsName name) (base : Path) :
    (base.join ⟨name⟩).components = base.components ++ [.normal name] := by
  have hname : ofName name = .normal name := if_neg h.ne_dotDot
  have hpieces := pieces_of_no_slash h.no_slash
  have hsingle := namesIn_singleton h.ne_nil h.ne_dot
  rcases join_cases h base with ⟨rfl, heq⟩ | ⟨front, rfl, heq⟩ | ⟨hne, heq⟩
  · rw [heq, components, hpieces, ofPieces, hsingle, Component.lead, if_neg h.ne_nil, if_neg h.ne_dot,
      List.map_singleton, hname]
    rfl
  · have hempty : namesIn (pieces front ++ [[]]) = namesIn (pieces front) := by simp [namesIn]
    rw [heq, components, components, pieces_append_slash, pieces_append_slash, hpieces, pieces, ofPieces, ofPieces,
      lead_concat (pieces_ne_nil front) name [], hempty, namesIn_append, hsingle, List.map_append, List.map_singleton,
      hname, List.append_assoc]
  · have hlong : pieces base.bytes ≠ [[]] := by
      intro hnil
      rw [← joined_pieces base.bytes, hnil] at hne
      exact hne rfl
    rw [heq, components, components, pieces_append_slash, hpieces, ofPieces, ofPieces,
      lead_append (pieces_ne_nil base.bytes) hlong, namesIn_append, hsingle, List.map_append, List.map_singleton,
      hname, List.append_assoc]

/-- The parent of a path that a plain name was appended to is that path, but for what it says idly. -/
theorem parent?_join {name : Name} (h : IsName name) (base : Path) :
    ∃ above, (base.join ⟨name⟩).parent? = some above ∧ above.components = base.components := by
  have hsome : (base.join ⟨name⟩).parent? ≠ none := by
    intro hnone
    have hlast : .normal name ∈ (base.join ⟨name⟩).components := by
      rw [components_join h]
      exact List.mem_append_right _ (List.mem_singleton.2 rfl)
    rcases components_of_parent?_none hnone with hnil | hroot
    · rw [hnil] at hlast
      cases hlast
    · rw [hroot, List.mem_singleton] at hlast
      cases hlast
  obtain ⟨above, habove⟩ := Option.ne_none_iff_exists'.1 hsome
  refine ⟨above, habove, ?_⟩
  obtain ⟨last, -, hlast⟩ := components_of_parent? habove
  rw [components_join h] at hlast
  exact (List.append_inj_left' hlast rfl).symm

end Path

end DirLock.Disk
