import DirLock.Proofs.Config.Valid
import DirLock.Proofs.Yaml.Line

/-!
# Settings among other lines

A text with settings may have blank lines and comments anywhere and entries that mean nothing here, and its lines may
stand in any order. It is read as the defaults with just those settings changed that it has. If it has none it gives
the defaults in two ways, without being looked at if it is blank and as an empty document if it is not.

Two things that look harmless are refused, because such a text is no YAML: a name of more than 1024 characters, and a
comment with a control character. And a comment may end before its line does, since YAML knows other line breaks.
-/

namespace DirLock.Config

open Yaml (IsIdentifier IsWord Mark)

/-- A line of a text with settings. -/
inductive Line where
  | blank (spaces : Nat)
  | comment (text : List Char)
  | unknown (name value : List Char)
  | delay (millis : UInt64)
  | scratch (path : List Char)
  deriving DecidableEq, Repr

namespace Line

/-- The line as a line of YAML. -/
def toYaml : Line → Yaml.Line
  | blank spaces => .blank spaces
  | comment text => .comment text
  | unknown name value => .entry name value
  | delay millis => .entry "wait_delay_ms".toList (Nat.toDigits 10 millis.toNat)
  | scratch path => .entry "scratch_dir".toList path

/-- A comment is in one line. The name of an unknown entry is an identifier, and not that of a setting; its value is
a word, a number or a truth value. A path is absolute, and of letters, digits and four marks. -/
def IsSimple : Line → Prop
  | blank _ => True
  | comment text => '\n' ∉ text
  | unknown name value =>
    (IsIdentifier name ∧ name ≠ "wait_delay_ms".toList ∧ name ≠ "scratch_dir".toList) ∧ IsWord value
  | delay _ => True
  | scratch path => path.head? = some '/' ∧
      ∀ c ∈ path, Text.isAlphanumeric c = true ∨ c ∈ ['/', '.', '_', '-']

/-- YAML takes the line: a comment is of characters that may stand in a text and that end no line, and a name is not
too long for a key. -/
def IsTaken : Line → Prop
  | comment text => ∀ c ∈ text, Yaml.isAllowed c = true ∧ Yaml.isBreak c = false
  | unknown name _ => name.length ≤ 1024
  | _ => True

def delay? : Line → Option UInt64
  | delay millis => some millis
  | _ => none

def scratch? : Line → Option (List Char)
  | scratch path => some path
  | _ => none

def isSetting : Line → Bool
  | delay _ => true
  | scratch _ => true
  | _ => false

end Line

open Line (delay? scratch?)

def written (lines : List Line) : String := String.ofList (Yaml.Line.join (lines.map Line.toYaml))

/-- The defaults, with the settings that the lines have. -/
def settings (lines : List Line) : Config :=
  ⟨(lines.findSome? delay?).getD default.waitDelay,
    ((lines.findSome? scratch?).map fun path => some ⟨Text.utf8Encode path⟩).getD default.scratch⟩

/-- Every line is a simple one that YAML takes, and nothing is set twice. -/
structure AreSettings (lines : List Line) : Prop where
  simple : ∀ line ∈ lines, line.IsSimple
  taken : ∀ line ∈ lines, line.IsTaken
  oneDelay : (lines.filterMap delay?).length ≤ 1
  oneScratch : (lines.filterMap scratch?).length ≤ 1

instance : DecidablePred Line.IsSimple
  | .blank _ => inferInstanceAs (Decidable True)
  | .comment _ => inferInstanceAs (Decidable (_ ∉ _))
  | .unknown _ _ => inferInstanceAs (Decidable (_ ∧ _))
  | .delay _ => inferInstanceAs (Decidable True)
  | .scratch path => decidable_of_iff (path.head? = some '/' ∧
      (path.all fun c => decide (Text.isAlphanumeric c = true ∨ c ∈ ['/', '.', '_', '-'])) = true)
    (and_congr_right fun _ => ⟨Text.forall_of_all, Text.all_of_forall⟩)

instance : DecidablePred Line.IsTaken
  | .comment text => decidable_of_iff
      ((text.all fun c => decide (Yaml.isAllowed c = true ∧ Yaml.isBreak c = false)) = true)
    ⟨Text.forall_of_all, Text.all_of_forall⟩
  | .unknown _ _ => inferInstanceAs (Decidable (_ ≤ _))
  | .blank _ => inferInstanceAs (Decidable True)
  | .delay _ => inferInstanceAs (Decidable True)
  | .scratch _ => inferInstanceAs (Decidable True)

instance (lines : List Line) : Decidable (AreSettings lines) :=
  decidable_of_iff ((∀ line ∈ lines, line.IsSimple) ∧ (∀ line ∈ lines, line.IsTaken) ∧
      (lines.filterMap delay?).length ≤ 1 ∧ (lines.filterMap scratch?).length ≤ 1)
    ⟨fun h => ⟨h.1, h.2.1, h.2.2.1, h.2.2.2⟩, fun h => ⟨h.simple, h.taken, h.oneDelay, h.oneScratch⟩⟩

variable {line : Line} {lines lines' : List Line} {path : List Char}

/-! ## Lines -/

theorem isWord_digits (n : Nat) : IsWord (Nat.toDigits 10 n) where
  nonempty := Nat.toDigits_ne_nil
  chars c hc := by
    have hdigits : ∀ d < 10, Text.isAlphanumeric (Char.ofNat (0x30 + d)) = true := by decide +kernel
    obtain ⟨d, hd, rfl⟩ := Number.digit_cases (Number.isDigit_toDigits hc)
    exact .inl (hdigits d hd)
  ne_dash hdash := by
    have hdigit := Number.isDigit_toDigits (n := n) (c := '-') (by rw [hdash]; exact List.mem_cons_self)
    exact absurd hdigit (by decide)

theorem isWord_path (hroot : path.head? = some '/')
    (hchars : ∀ c ∈ path, Text.isAlphanumeric c = true ∨ c ∈ ['/', '.', '_', '-']) : IsWord path where
  nonempty := by
    rintro rfl
    cases hroot
  chars c hc := (hchars c hc).imp_right fun hmark => by
    have hmarks : ∀ d ∈ ['/', '.', '_', '-'], d ∈ ['_', '.', '+', '-', '/'] :=
      Text.forall_of_all (by decide)
    exact hmarks c hmark
  ne_dash := by
    rintro rfl
    exact absurd hroot (by decide)

theorem Line.reads (hsimple : line.IsSimple) (htaken : line.IsTaken) : line.toYaml.Reads := by
  cases line with
  | blank spaces => trivial
  | comment text => exact htaken
  | unknown name value => exact ⟨⟨hsimple.1.1, htaken⟩, hsimple.2⟩
  | delay millis => exact ⟨by decide +kernel, isWord_digits _⟩
  | scratch path => exact ⟨by decide +kernel, isWord_path hsimple.1 hsimple.2⟩

theorem Line.isSetting_eq_false (h : line.toYaml.entry? = none) : line.isSetting = false := by
  cases line <;> first | rfl | cases h

theorem AreSettings.reads (h : AreSettings lines) : ∀ line ∈ lines.map Line.toYaml, line.Reads := by
  intro yaml hmem
  obtain ⟨line, hline, rfl⟩ := List.mem_map.1 hmem
  exact Line.reads (h.simple line hline) (h.taken line hline)

/-! ## Members -/

variable {document : Yaml.Document} {around : Mark} {fields : Fields} {items rest : List Yaml.Item}
  {name value : Yaml.Item}

theorem members_unknown {node node' : Yaml.ScalarNode} (hname : name.part = .scalar node)
    (hvalue : value.part = .scalar node') (hdelay : node.value ≠ "wait_delay_ms".toList)
    (hscratch : node.value ≠ "scratch_dir".toList) (fuel : Nat) :
    members document around (fuel + 1) fields (name :: value :: rest) = members document around fuel fields rest := by
  have hnoEnd : name.part ≠ .mappingEnd := by simp [hname]
  have hother (setting : String) (hne : node.value ≠ setting.toList) : String.ofList node.value ≠ setting := by
    rintro rfl
    exact hne String.toList_ofList.symm
  have hskip : Yaml.Document.skipNode document 0 (value :: rest) = .ok rest := by
    rw [Yaml.Document.skipNode]
    simp only [hvalue, if_true]
  rw [members]
  simp only [hnoEnd, if_false, readKey_scalar hname, Bind.bind, Except.bind]
  split
  · exact absurd ‹_› (hother _ hdelay)
  · exact absurd ‹_› (hother _ hscratch)
  · rw [hskip]

theorem standsForNone_path (hroot : path.head? = some '/') :
    Yaml.Document.standsForNone ⟨none, path, .plain⟩ = .ok false := by
  obtain ⟨rest, rfl⟩ := List.head?_eq_some_iff.1 hroot
  simp [Yaml.Document.standsForNone, Yaml.Resolution.isNull]

/-- The fields, with the settings of the lines where they have none. -/
def Fields.fill (fields : Fields) (lines : List Line) : Fields :=
  ⟨fields.waitDelay.or (lines.findSome? delay?),
    fields.scratch.or ((lines.findSome? scratch?).map fun path => some ⟨Text.utf8Encode path⟩)⟩

theorem Fields.fill_cons (line : Line) (lines : List Line) :
    (fields.fill [line]).fill lines = fields.fill (line :: lines) := by
  cases line <;> simp [Fields.fill, delay?, scratch?, List.findSome?_cons, -List.map_findSome?]

theorem Fields.fill_of_not_isSetting (h : line.isSetting = false) : fields.fill [line] = fields := by
  cases line with
  | delay millis => cases h
  | scratch path => cases h
  | _ => simp [Fields.fill, delay?, scratch?]

/-- The lines set nothing that is set already, and nothing twice. -/
structure Fields.Awaits (fields : Fields) (lines : List Line) : Prop where
  delay : fields.waitDelay.toList.length + (lines.filterMap delay?).length ≤ 1
  scratch : fields.scratch.toList.length + (lines.filterMap scratch?).length ≤ 1

theorem eq_none_of_length_le {α β : Type} {field : Option α} {value : β} {others : List β}
    (h : field.toList.length + (value :: others).length ≤ 1) : field = none ∧ others = [] := by
  rw [List.length_cons] at h
  cases field with
  | none => exact ⟨rfl, List.eq_nil_of_length_eq_zero (by omega)⟩
  | some other => simp at h

theorem Fields.Awaits.step (h : fields.Awaits (line :: lines)) : (fields.fill [line]).Awaits lines := by
  obtain ⟨hdelay, hscratch⟩ := h
  cases line with
  | delay millis =>
    obtain ⟨hunset, hlast⟩ := eq_none_of_length_le hdelay
    exact ⟨by simp [Fields.fill, hunset, hlast, delay?],
      by simpa [Fields.fill, scratch?, List.filterMap_cons] using hscratch⟩
  | scratch path =>
    obtain ⟨hunset, hlast⟩ := eq_none_of_length_le hscratch
    exact ⟨by simpa [Fields.fill, delay?, List.filterMap_cons] using hdelay,
      by simp [Fields.fill, hunset, hlast, scratch?]⟩
  | _ => exact ⟨by simpa [Fields.fill, delay?, List.filterMap_cons] using hdelay,
      by simpa [Fields.fill, scratch?, List.filterMap_cons] using hscratch⟩

theorem members_line {entry : Yaml.Entry} (hsimple : line.IsSimple) (hawaits : fields.Awaits (line :: lines))
    (hentry : line.toYaml.entry? = some entry) (hname : name.part = .scalar ⟨none, entry.name, .plain⟩)
    (hvalue : value.part = .scalar ⟨none, entry.value, entry.style⟩) (fuel : Nat) :
    members document around (fuel + 1) fields (name :: value :: rest) =
      members document around fuel (fields.fill [line]) rest := by
  cases line with
  | unknown known text =>
    obtain rfl := Option.some.inj hentry
    rw [members_unknown hname hvalue hsimple.1.2.1 hsimple.1.2.2, Fields.fill_of_not_isSetting rfl]
  | delay millis =>
    obtain rfl := Option.some.inj hentry
    have hunset := (eq_none_of_length_le hawaits.delay).1
    rw [members_delay hname hvalue hunset]
    simp [Fields.fill, hunset, delay?, scratch?]
  | scratch path =>
    obtain rfl := Option.some.inj hentry
    have hunset := (eq_none_of_length_le hawaits.scratch).1
    rw [members_scratch hname hvalue (standsForNone_path hsimple.1) hunset]
    simp [Fields.fill, hunset, delay?, scratch?]
  | _ => cases hentry

theorem members_lines (hsimple : ∀ line ∈ lines, line.IsSimple) (hawaits : fields.Awaits lines)
    (hitems : items.map Yaml.Item.part =
      ((Yaml.Line.entries (lines.map Line.toYaml)).flatMap Yaml.Entry.nodes).map .scalar ++ [.mappingEnd])
    {fuel : Nat} (hfuel : (Yaml.Line.entries (lines.map Line.toYaml)).length < fuel) :
    members document around fuel fields items = .ok (fields.fill lines) := by
  obtain ⟨fuel, rfl⟩ := Nat.exists_eq_add_one.2 (Nat.zero_lt_of_lt hfuel)
  induction lines generalizing fields items fuel with
  | nil =>
    obtain ⟨closing, _, rfl, hclosing, -⟩ := List.map_eq_cons_iff.1 hitems
    rw [members_end hclosing]
    simp [Fields.fill]
  | cons line lines ih =>
    have hrest : ∀ line ∈ lines, line.IsSimple := fun line hmem => hsimple line (List.mem_cons_of_mem _ hmem)
    rw [← Fields.fill_cons]
    cases hentry : line.toYaml.entry? with
    | none =>
      have hsame : fields.fill [line] = fields := Fields.fill_of_not_isSetting (Line.isSetting_eq_false hentry)
      rw [Yaml.Line.entries, List.map_cons, List.filterMap_cons_none hentry] at hitems hfuel
      rw [hsame]
      exact ih hrest (hsame ▸ hawaits.step) hitems fuel hfuel
    | some entry =>
      rw [Yaml.Line.entries, List.map_cons, List.filterMap_cons_some hentry] at hitems hfuel
      obtain ⟨name, _, rfl, hname, hitems⟩ := List.map_eq_cons_iff.1 hitems
      obtain ⟨value, _, rfl, hvalue, hitems⟩ := List.map_eq_cons_iff.1 hitems
      rw [List.length_cons] at hfuel
      obtain ⟨fuel, rfl⟩ := Nat.exists_eq_add_one.2 (by omega : 0 < fuel)
      rw [members_line (hsimple line List.mem_cons_self) hawaits hentry hname hvalue]
      exact ih hrest hawaits.step hitems fuel (Nat.lt_of_succ_lt_succ hfuel)

theorem settings_eq_default (hnone : ∀ line ∈ lines, line.isSetting = false) : settings lines = default := by
  have hdelay : lines.findSome? delay? = none := List.findSome?_eq_none_iff.2 fun line hmem => by
    have hsets := hnone line hmem
    cases line <;> first | rfl | cases hsets
  have hscratch : lines.findSome? scratch? = none := List.findSome?_eq_none_iff.2 fun line hmem => by
    have hsets := hnone line hmem
    cases line <;> first | rfl | cases hsets
  rw [settings, hdelay, hscratch]
  rfl

theorem ofDocument_lines (h : AreSettings lines) (hitems : items.map Yaml.Item.part =
      if Yaml.Line.entries (lines.map Line.toYaml) = [] then [.void]
      else Yaml.mappingParts (Yaml.Line.entries (lines.map Line.toYaml))) :
    ofDocument ⟨items, [], none⟩ = .ok (settings lines) := by
  split_ifs at hitems with hentries
  · obtain ⟨item, _, rfl, hvoid, -⟩ := List.map_eq_cons_iff.1 hitems
    have hnone : ∀ line ∈ lines, line.isSetting = false := fun line hmem =>
      Line.isSetting_eq_false (List.filterMap_eq_nil_iff.1 hentries _ (List.mem_map_of_mem hmem))
    simp only [ofDocument, hvoid, settings_eq_default hnone]
  · obtain ⟨opening, members, rfl, hopening, hmembers⟩ := List.map_eq_cons_iff.1 hitems
    have hlong : (Yaml.Line.entries (lines.map Line.toYaml)).length < members.length + 1 := by
      have hlength := congrArg List.length hmembers
      simp [Yaml.Entry.nodes, List.length_flatMap] at hlength
      omega
    have hawaits : Fields.none.Awaits lines :=
      ⟨by simpa [Fields.none] using h.oneDelay, by simpa [Fields.none] using h.oneScratch⟩
    have hread := @members_lines lines ⟨opening :: members, [], none⟩ opening.mark Fields.none members h.simple
      hawaits hmembers _ hlong
    simp only [ofDocument, hopening, hread]
    rfl

/-! ## Texts -/

theorem parse_written (h : AreSettings lines) : parse (written lines).toList = .ok (settings lines) := by
  obtain ⟨items, hdocument, hitems⟩ := Yaml.Document.ofText_lines h.reads
  rw [written, String.toList_ofList, parse, hdocument]
  simp only [ofDocument_lines h hitems, Bind.bind, Except.bind, Bool.false_eq_true, if_false]
  rfl

theorem isSetting_eq_false_of_blank (hblank : (Text.trimmed (written lines).toList).isEmpty = true) :
    ∀ line ∈ lines, line.isSetting = false := by
  intro line hmem
  rw [Bool.eq_false_iff]
  intro hsets
  have hcolon : ':' ∈ line.toYaml.text := by
    cases line with
    | delay millis => exact List.mem_append_right _ List.mem_cons_self
    | scratch path => exact List.mem_append_right _ List.mem_cons_self
    | _ => cases hsets
  have hkept := Text.mem_trimmed (Yaml.Line.mem_join (List.mem_map_of_mem hmem) hcolon) (by decide)
  rw [written, String.toList_ofList, List.isEmpty_iff] at hblank
  rw [hblank] at hkept
  cases hkept

theorem findSome?_eq_some_iff_of_length_le {α β : Type} {f : α → Option β} {l : List α}
    (hone : (l.filterMap f).length ≤ 1) {b : β} : l.findSome? f = some b ↔ ∃ a ∈ l, f a = some b := by
  rw [← List.mem_filterMap, ← List.head?_filterMap]
  cases hfound : l.filterMap f with
  | nil => simp
  | cons first others =>
    rw [hfound, List.length_cons] at hone
    obtain rfl := List.eq_nil_of_length_eq_zero (by omega : others.length = 0)
    simp [eq_comm]

theorem findSome?_delay (h : AreSettings lines) {millis : UInt64} :
    lines.findSome? delay? = some millis ↔ .delay millis ∈ lines := by
  rw [findSome?_eq_some_iff_of_length_le h.oneDelay]
  constructor
  · rintro ⟨line, hmem, hdelay⟩
    cases line <;> cases hdelay
    exact hmem
  · exact fun hmem => ⟨_, hmem, rfl⟩

theorem findSome?_scratch (h : AreSettings lines) :
    lines.findSome? scratch? = some path ↔ .scratch path ∈ lines := by
  rw [findSome?_eq_some_iff_of_length_le h.oneScratch]
  constructor
  · rintro ⟨line, hmem, hscratch⟩
    cases line <;> cases hscratch
    exact hmem
  · exact fun hmem => ⟨_, hmem, rfl⟩

/-- What lines set does not depend on their order, nor on those of them that set nothing. -/
theorem settings_congr (h : AreSettings lines) (h' : AreSettings lines')
    (hsame : ∀ line, line.isSetting = true → (line ∈ lines ↔ line ∈ lines')) : settings lines = settings lines' := by
  have hdelay : lines.findSome? delay? = lines'.findSome? delay? :=
    Option.ext fun millis => by rw [findSome?_delay h, findSome?_delay h', hsame _ rfl]
  have hscratch : lines.findSome? scratch? = lines'.findSome? scratch? :=
    Option.ext fun path => by rw [findSome?_scratch h, findSome?_scratch h', hsame _ rfl]
  rw [settings, settings, hdelay, hscratch]

theorem waitDelay_settings (h : AreSettings lines) : (settings lines).waitDelay = 0 ↔ .delay 0 ∈ lines := by
  rw [← findSome?_delay h, settings]
  cases lines.findSome? delay? with
  | none =>
    have hdefault : default.waitDelay ≠ 0 := by decide
    exact ⟨fun hzero => absurd hzero hdefault, nofun⟩
  | some millis => simp

theorem scratch_settings (h : AreSettings lines) : (settings lines).scratch ≠ some .empty := by
  rw [settings]
  cases hfound : lines.findSome? scratch? with
  | none => exact nofun
  | some path =>
    have hroot := (h.simple _ ((findSome?_scratch h).1 hfound)).1
    obtain ⟨rest, rfl⟩ := List.head?_eq_some_iff.1 hroot
    intro hempty
    have hbytes := congrArg Disk.Path.bytes (Option.some.inj hempty)
    cases hbytes

theorem validate_settings (h : AreSettings lines) : (settings lines).validate =
    if .delay 0 ∈ lines then .error (.config "config validation failed: wait_delay_ms must be greater than 0")
    else .ok () := by
  split_ifs with hzero
  · rw [validate, if_pos ((waitDelay_settings h).2 hzero)]
  · refine validate_eq_ok_iff.2 ⟨Nat.one_le_iff_ne_zero.2 fun hnone => hzero ?_, scratch_settings h⟩
    exact (waitDelay_settings h).1 (UInt64.toNat_inj.1 hnone)

/-- What the lines set is what the text gives, unless it is a delay of zero. -/
theorem ofText_written_eq (h : AreSettings lines) : ofText (written lines) =
    if .delay 0 ∈ lines then .error (.config "config validation failed: wait_delay_ms must be greater than 0")
    else .ok (settings lines) := by
  rw [ofText]
  by_cases hblank : (Text.trimmed (written lines).toList).isEmpty = true
  · have hnone := isSetting_eq_false_of_blank hblank
    have hzero : .delay 0 ∉ lines := fun hmem => absurd (hnone _ hmem) (by decide)
    rw [if_pos hblank, if_neg hzero, settings_eq_default hnone]
  · rw [if_neg hblank, parse_written h]
    dsimp only
    rw [validate_settings h]
    split_ifs <;> rfl

/-- A text of simple lines gives the defaults with what the lines set, and is refused only for a delay of zero. Lines
that set nothing give the defaults, whether the text is blank or is looked at. Neither the order of the lines matters
nor what else is among them. -/
theorem ofText_written (h : AreSettings lines) :
    parse (written lines).toList = .ok (settings lines) ∧
    ofText (written lines) = (if .delay 0 ∈ lines then
      .error (.config "config validation failed: wait_delay_ms must be greater than 0") else .ok (settings lines)) ∧
    ((∀ line ∈ lines, line.isSetting = false) →
      ofText (written lines) = .ok default ∧ parse (written lines).toList = .ok default) ∧
    ∀ lines', AreSettings lines' → (∀ line, line.isSetting = true → (line ∈ lines ↔ line ∈ lines')) →
      ofText (written lines') = ofText (written lines) := by
  refine ⟨parse_written h, ofText_written_eq h, fun hnone => ?_, fun lines' h' hsame => ?_⟩
  · have hzero : .delay 0 ∉ lines := fun hmem => absurd (hnone _ hmem) (by decide)
    rw [ofText_written_eq h, parse_written h, if_neg hzero, settings_eq_default hnone]
    exact ⟨rfl, rfl⟩
  · have hzero : .delay 0 ∈ lines ↔ .delay 0 ∈ lines' := hsame _ rfl
    rw [ofText_written_eq h, ofText_written_eq h', settings_congr h h' hsame]
    simp only [hzero]

/-- Seven milliseconds and a directory are read out of a text with other things around them, and from the two lines
alone, the other way round. Seven spaces mean nothing, and a delay of zero is refused. -/
theorem ofText_written_seven :
    (ofText (written [.comment " wait_delay_ms: 9".toList, .unknown "retries".toList "1e3".toList,
        .scratch "/var/tmp-1".toList, .blank 2, .delay 7, .unknown "null".toList "true".toList]) =
      .ok ⟨7, some ⟨Text.utf8Encode "/var/tmp-1".toList⟩⟩ ∧
    ofText (written [.delay 7, .scratch "/var/tmp-1".toList]) =
      ofText (written [.comment " wait_delay_ms: 9".toList, .unknown "retries".toList "1e3".toList,
        .scratch "/var/tmp-1".toList, .blank 2, .delay 7, .unknown "null".toList "true".toList])) ∧
    (ofText (written [.blank 7]) = .ok default ∧ parse (written [.blank 7]).toList = .ok default) ∧
    ofText (written [.comment [], .delay 0]) =
      .error (.config "config validation failed: wait_delay_ms must be greater than 0") := by
  have hseven := @ofText_written [.comment " wait_delay_ms: 9".toList,
    .unknown "retries".toList "1e3".toList, .scratch "/var/tmp-1".toList, .blank 2, .delay 7,
    .unknown "null".toList "true".toList] (by decide +kernel)
  refine ⟨⟨hseven.2.1.trans (if_neg (by decide)), hseven.2.2.2 _ (by decide +kernel) fun line hsets => ?_⟩, ?_, ?_⟩
  · clear hseven
    cases line with
    | delay millis => simp
    | scratch path => simp
    | _ => cases hsets
  · exact (ofText_written (by decide +kernel)).2.2.1 (by decide)
  · exact (ofText_written (by decide +kernel)).2.1.trans (if_pos (by decide))

theorem isOk_ofText_eq_false {text : List Char} (hwritten : (Text.trimmed text).isEmpty = false)
    (hparse : (parse text).isOk = false) : (ofText (String.ofList text)).isOk = false := by
  rw [ofText, String.toList_ofList, hwritten, if_neg Bool.false_ne_true]
  cases hread : parse text with
  | error error => rfl
  | ok config =>
    rw [hread] at hparse
    cases hparse

/-- A name that is too long for a key is refused, and so are a comment with a control character and one that another
line break than a newline ends before its line does. -/
theorem ofText_written_refused :
    ((Line.unknown (List.replicate 1025 'a') ['1']).IsSimple ∧
      (ofText (written [.unknown (List.replicate 1025 'a') ['1']])).isOk = false) ∧
    ((Line.comment [Char.ofNat 1]).IsSimple ∧ (ofText (written [.comment [Char.ofNat 1]])).isOk = false) ∧
    (Line.comment "\u2028x".toList).IsSimple ∧ (ofText (written [.comment "\u2028x".toList])).isOk = false := by
  refine ⟨⟨?_, isOk_ofText_eq_false (by decide +kernel) (by decide +kernel)⟩,
    ⟨by decide, isOk_ofText_eq_false (by decide) (by decide +kernel)⟩,
    by decide, isOk_ofText_eq_false (by decide) (by decide +kernel)⟩
  have hletter : ∀ c ∈ List.replicate 1025 'a', Text.isAlphanumeric c = true ∨ c = '_' := fun c hc => by
    rw [List.eq_of_mem_replicate hc]
    decide +kernel
  exact ⟨⟨⟨by decide +kernel, hletter⟩, by decide +kernel, by decide +kernel⟩, by decide +kernel⟩

end DirLock.Config
