import DirLock.Config.Printer
import DirLock.Config.Reader
import DirLock.Proofs.Text.Utf8
import DirLock.Proofs.Yaml.Allowed
import DirLock.Proofs.Yaml.Mapping
import DirLock.Proofs.Yaml.Numeral

/-!
# Settings read back

The settings are written as a mapping of one or two entries. Whatever the directory for claims is
called, the reader finds the same entries in it and makes the same settings of them.
-/

namespace DirLock.Config

open Yaml (Entry Lexer Token)
open Yaml.Printer (ended scalar style)

/-! ## The text -/

def entries (delay : UInt64) (path : Option (List Char)) : List Entry :=
  ⟨"wait_delay_ms".toList, Nat.toDigits 10 delay.toNat, .plain⟩ ::
    path.toList.map fun text => ⟨"scratch_dir".toList, text, style text⟩

/-- The line about the directory, if one is set. -/
def scratchLine (path : Option (List Char)) : List Char :=
  path.elim [] fun text => line "scratch_dir" (scalar text)

variable {delay : UInt64} {path : Option (List Char)} {config : Config} {text : List Char}

theorem digits_word (n : Nat) : ∀ c ∈ Nat.toDigits 10 n, c.isAlphanum = true ∨ c = '_' := by
  intro c hc
  have hdigit := Number.isDigit_toDigits hc
  exact .inl (by simp [Char.isAlphanum, hdigit])

theorem isKey_delay : Lexer.IsKey "wait_delay_ms".toList :=
  ⟨by decide, Text.forall_of_all (by decide), by decide⟩

theorem isKey_scratch : Lexer.IsKey "scratch_dir".toList :=
  ⟨by decide, Text.forall_of_all (by decide), by decide⟩

theorem delayLine_eq (config : Config) : config.delayLine =
    "wait_delay_ms".toList ++ ':' :: ' ' :: (Nat.toDigits 10 config.waitDelay.toNat ++ ['\n']) := by
  obtain ⟨c, hlast⟩ : ∃ c, (Nat.toDigits 10 config.waitDelay.toNat).getLast? = some c :=
    ⟨_, List.getLast?_eq_some_getLast Nat.toDigits_ne_nil⟩
  have hword := digits_word config.waitDelay.toNat c (List.mem_of_getLast? hlast)
  have hsplit (digits : List Char) : "wait_delay_ms".toList ++ ':' :: ' ' :: digits =
      "wait_delay_ms".toList ++ [':', ' '] ++ digits := by simp
  rw [delayLine, line, hsplit, Lexer.ended_append _ Nat.toDigits_ne_nil,
    Lexer.ended_of_last hlast (Lexer.noBreak_of_word hword).2]
  exact (hsplit _).symm

theorem scratchLine_eq (text : List Char) : scratchLine (some text) =
    "scratch_dir".toList ++ ':' :: ' ' :: ended (scalar text) := by
  have hsplit (written : List Char) : "scratch_dir".toList ++ ':' :: ' ' :: written =
      "scratch_dir".toList ++ [':', ' '] ++ written := by simp
  rw [scratchLine, Option.elim_some, line, hsplit, Lexer.ended_append _ (Lexer.scalar_ne_nil text)]
  exact (hsplit _).symm

theorem scan_settings (config : Config) (path : Option (List Char)) : ∃ tokens,
    Token.scan (config.delayLine ++ scratchLine path) = ⟨tokens, none⟩ ∧
      tokens.map Token.kind = Yaml.mappingTokens (entries config.waitDelay path) := by
  have hvalue : Lexer.IsValue (Nat.toDigits 10 config.waitDelay.toNat ++ '\n' :: scratchLine path)
      (Lexer.AtLine (scratchLine path)) (Nat.toDigits 10 config.waitDelay.toNat) .plain := by
    refine Lexer.isValue_plain Nat.toDigits_ne_nil
      (Yaml.allowsPlain_of_word Nat.toDigits_ne_nil (digits_word _)) fun c hc => ?_
    cases path with
    | none => exact nomatch hc
    | some text =>
      rw [scratchLine_eq] at hc
      obtain rfl : 's' = c := Option.some.inj hc
      decide
  have hdelay : config.delayLine ++ scratchLine path = "wait_delay_ms".toList ++ ':' :: ' ' ::
      (Nat.toDigits 10 config.waitDelay.toNat ++ '\n' :: scratchLine path) := by
    rw [delayLine_eq]
    simp
  obtain ⟨m, hm, first, cursor, keyAllowed, candidate, hfirst, hcursor, hcandidate, hgives⟩ :=
    @Lexer.gives_member (Yaml.Cursor.ofText (config.delayLine ++ scratchLine path)) 1 (-1) [] true
      Yaml.KeyCandidate.none _ _ _ .plain _ isKey_delay.readsAsKey hvalue
      (Lexer.read_line (.inl ⟨hdelay, rfl, rfl⟩) isKey_delay.stopsGap rfl (by decide)) rfl (.inr rfl)
  have hlong : 2 ≤ (config.delayLine ++ scratchLine path).length := by
    rw [hdelay]
    simp
  cases path with
  | none =>
    obtain ⟨all, hscan, hkinds⟩ := Lexer.scan_of_gives hgives
      (Lexer.read_end hcursor hcandidate (Int.le_refl 0)) (.inl ⟨rfl, rfl⟩) hcandidate (by omega)
    refine ⟨all, hscan, hkinds.trans ?_⟩
    rw [hfirst]
    rfl
  | some text =>
    rw [scratchLine_eq] at hcursor
    obtain ⟨n, hn, second, cursor', keyAllowed', candidate', hsecond, hcursor', hcandidate', hgives'⟩ :=
      @Lexer.gives_member cursor (1 + first.length) 0 [-1] keyAllowed candidate _ _ _ _ _ isKey_scratch.readsAsKey
        (Lexer.isValue_scalar text) (Lexer.read_line hcursor isKey_scratch.stopsGap hcandidate (Int.le_refl 0))
        hcandidate (.inl rfl)
    obtain ⟨all, hscan, hkinds⟩ := Lexer.scan_of_gives (hgives.trans hgives')
      (Lexer.read_end hcursor' hcandidate' (Int.le_refl 0)) (.inl ⟨rfl, rfl⟩) hcandidate' (by omega)
    refine ⟨all, hscan, hkinds.trans ?_⟩
    rw [List.map_append, hfirst, hsecond]
    rfl

theorem isAllowed_line {name written : List Char} (hname : Lexer.IsKey name)
    (hwritten : ∀ c ∈ written, Yaml.isAllowed c = true) :
    ∀ c ∈ name ++ ':' :: ' ' :: written, Yaml.isAllowed c = true := by
  intro c hc
  rcases List.mem_append.1 hc with hc | hc
  · exact Yaml.isAllowed_of_isPrintable (Yaml.isPrintable_of_word (hname.word c hc))
  · rcases List.mem_cons.1 hc with rfl | hc
    · decide
    · rcases List.mem_cons.1 hc with rfl | hc
      · decide
      · exact hwritten c hc

theorem isAllowed_settings (config : Config) (path : Option (List Char)) :
    ∀ c ∈ config.delayLine ++ scratchLine path, Yaml.isAllowed c = true := by
  have hdelay : ∀ c ∈ config.delayLine, Yaml.isAllowed c = true := by
    rw [delayLine_eq]
    refine isAllowed_line isKey_delay fun c hc => ?_
    rcases List.mem_append.1 hc with hc | hc
    · exact Yaml.isAllowed_of_isPrintable (Yaml.isPrintable_of_word (digits_word _ c hc))
    · rw [List.mem_singleton.1 hc]
      decide
  have hscratch : ∀ c ∈ scratchLine path, Yaml.isAllowed c = true := by
    cases path with
    | none => exact fun c hc => nomatch hc
    | some text =>
      rw [scratchLine_eq]
      refine isAllowed_line isKey_scratch fun c hc => ?_
      rcases Yaml.Printer.mem_ended hc with hc | rfl
      · exact Yaml.Printer.isAllowed_scalar hc
      · decide
  intro c hc
  exact (List.mem_append.1 hc).elim (hdelay c) (hscratch c)

/-! ## The settings -/

theorem ofText_settings (config : Config) (path : Option (List Char)) : ∃ items : List Yaml.Item,
    items.map Yaml.Item.part = Yaml.mappingParts (entries config.waitDelay path) ∧
      Yaml.Document.ofText (config.delayLine ++ scratchLine path) = (⟨items, [], none⟩, false) := by
  obtain ⟨tokens, hscan, hkinds⟩ := scan_settings config path
  obtain ⟨events, hevents, hformed⟩ := Yaml.Grammar.ofTokens_mapping (List.cons_ne_nil _ _) hkinds
  obtain ⟨items, hitems, hcollect⟩ := Yaml.Document.collect_mapping hformed
  refine ⟨items, hitems, ?_⟩
  rw [Yaml.Document.ofText, Yaml.firstForbidden_eq_none (isAllowed_settings config path)]
  simp only [hscan, hevents, hcollect]

variable {document : Yaml.Document} {item : Yaml.Item} {rest items : List Yaml.Item}

theorem readKey_scalar {node : Yaml.ScalarNode} (hitem : item.part = .scalar node) :
    Yaml.Document.readKey document (item :: rest) = .ok ((node.value, String.ofList node.value), rest) := by
  simp [Yaml.Document.readKey, Yaml.Document.readText, Yaml.Document.readScalar, hitem, Except.map, Bind.bind,
    Except.bind, Pure.pure, Except.pure]

theorem readUnsigned_digits {n : Nat} (hitem : item.part = .scalar ⟨none, Nat.toDigits 10 n, .plain⟩)
    (hn : n < UInt64.size) (around : String) :
    Yaml.Document.readUnsigned around document (item :: rest) = .ok (n, rest) := by
  simp [Yaml.Document.readUnsigned, Yaml.Document.readScalar, hitem, Yaml.Resolution.unsigned?_toDigits hn,
    Except.map]

theorem standsForNone_of_style (text : List Char) :
    Yaml.Document.standsForNone ⟨none, text, style text⟩ = .ok false := by
  by_cases hstyle : style text = .plain
  · have hclear := (Lexer.plain_of_style hstyle).1
    simp only [Yaml.Printer.isAmbiguous, Bool.or_eq_false_iff] at hclear
    have hnull : (text.isEmpty || Yaml.Resolution.isNull text) = false := by
      cases hnull : text.isEmpty || Yaml.Resolution.isNull text with
      | false => rfl
      | true =>
        rw [Yaml.Resolution.resolve, hnull, if_pos rfl] at hclear
        exact absurd hclear.2 (by decide)
    simp only [Yaml.Document.standsForNone, hstyle, ne_eq, not_true_eq_false, if_false, hnull]
  · simp only [Yaml.Document.standsForNone, ne_eq, hstyle, not_false_eq_true, if_true]

theorem readScratch_scalar {node : Yaml.ScalarNode} (hitem : item.part = .scalar node)
    (hstands : Yaml.Document.standsForNone node = .ok false) (around : String) (mark : Yaml.Mark) :
    readScratch around mark document (item :: rest) = .ok (some ⟨Text.utf8Encode node.value⟩, rest) := by
  simp [readScratch, Yaml.Document.readOptional, hitem, hstands, Yaml.Document.readText,
    Yaml.Document.readScalar, Except.map, Bind.bind, Except.bind, Pure.pure, Except.pure]

variable {around : Yaml.Mark} {fields : Fields} {name value : Yaml.Item}

theorem members_delay (hname : name.part = .scalar ⟨none, "wait_delay_ms".toList, .plain⟩)
    (hvalue : value.part = .scalar ⟨none, Nat.toDigits 10 delay.toNat, .plain⟩) (hunset : fields.waitDelay = none)
    (fuel : Nat) : members document around (fuel + 1) fields (name :: value :: rest) =
      members document around fuel { fields with waitDelay := some delay } rest := by
  have hnoEnd : name.part ≠ .mappingEnd := by simp [hname]
  have hsize : delay.toNat < UInt64.size := delay.toNat_lt
  rw [members]
  simp only [hnoEnd, if_false, readKey_scalar hname, Bind.bind, Except.bind, String.ofList_toList, hunset,
    readUnsigned_digits hvalue hsize, UInt64.ofNat_toNat]
  rfl

theorem members_scratch {node : Yaml.ScalarNode} (hname : name.part = .scalar ⟨none, "scratch_dir".toList, .plain⟩)
    (hvalue : value.part = .scalar node) (hstands : Yaml.Document.standsForNone node = .ok false)
    (hunset : fields.scratch = none) (fuel : Nat) :
    members document around (fuel + 1) fields (name :: value :: rest) =
      members document around fuel { fields with scratch := some (some ⟨Text.utf8Encode node.value⟩) } rest := by
  have hnoEnd : name.part ≠ .mappingEnd := by simp [hname]
  rw [members]
  simp only [hnoEnd, if_false, readKey_scalar hname, Bind.bind, Except.bind, String.ofList_toList, hunset,
    readScratch_scalar hvalue hstands]
  rfl

theorem members_end {closing : Yaml.Item} (hclosing : closing.part = .mappingEnd) (fuel : Nat) :
    members document around (fuel + 1) fields (closing :: rest) = .ok fields := by
  rw [members]
  simp only [hclosing, if_true]

theorem ofDocument_settings (hitems : items.map Yaml.Item.part = Yaml.mappingParts (entries delay path)) :
    ofDocument ⟨items, [], none⟩ = .ok ⟨delay, path.map fun text => ⟨Text.utf8Encode text⟩⟩ := by
  obtain ⟨opening, _, rfl, hopening, hitems⟩ := List.map_eq_cons_iff.1 hitems
  obtain ⟨delayName, _, rfl, hdelayName, hitems⟩ := List.map_eq_cons_iff.1 hitems
  obtain ⟨delayValue, _, rfl, hdelayValue, hitems⟩ := List.map_eq_cons_iff.1 hitems
  cases path with
  | none =>
    obtain ⟨closing, _, rfl, hclosing, hitems⟩ := List.map_eq_cons_iff.1 hitems
    simp only [ofDocument, hopening, List.length_cons]
    rw [members_delay hdelayName hdelayValue rfl, members_end hclosing]
    rfl
  | some text =>
    obtain ⟨scratchName, _, rfl, hscratchName, hitems⟩ := List.map_eq_cons_iff.1 hitems
    obtain ⟨scratchValue, _, rfl, hscratchValue, hitems⟩ := List.map_eq_cons_iff.1 hitems
    obtain ⟨closing, _, rfl, hclosing, hitems⟩ := List.map_eq_cons_iff.1 hitems
    simp only [ofDocument, hopening, List.length_cons]
    rw [members_delay hdelayName hdelayValue rfl,
      members_scratch hscratchName hscratchValue (standsForNone_of_style text) rfl, members_end hclosing]
    rfl

theorem validate_cases (config : Config) :
    config.validate = .ok () ∨ ∃ reason, config.validate = .error (.config reason) := by
  rw [validate]
  split
  · exact .inr ⟨_, rfl⟩
  · split
    · exact .inl rfl
    · split
      · exact .inr ⟨_, rfl⟩
      · exact .inl rfl

theorem parse_settings (config : Config) (path : Option (List Char)) :
    parse (config.delayLine ++ scratchLine path) =
      .ok ⟨config.waitDelay, path.map fun text => ⟨Text.utf8Encode text⟩⟩ := by
  obtain ⟨items, hitems, hdocument⟩ := ofText_settings config path
  simp only [parse, hdocument, ofDocument_settings hitems, Bind.bind, Except.bind, Bool.false_eq_true, if_false]
  rfl

theorem ofText_settings_eq (config : Config) (path : Option (List Char)) :
    ofText (String.ofList (config.delayLine ++ scratchLine path)) =
      (Config.mk config.waitDelay (path.map fun text => ⟨Text.utf8Encode text⟩)).validate.map
        fun _ => ⟨config.waitDelay, path.map fun text => ⟨Text.utf8Encode text⟩⟩ := by
  have hword : 'w' ∈ config.delayLine ++ scratchLine path := by
    rw [delayLine_eq]
    simp
  have hwritten : (Text.trimmed (config.delayLine ++ scratchLine path)).isEmpty = false := by
    have hkept := Text.mem_trimmed hword (by decide)
    rw [List.isEmpty_eq_false_iff]
    exact List.ne_nil_of_mem hkept
  rw [ofText, String.toList_ofList, hwritten, if_neg Bool.false_ne_true, parse_settings]
  rfl

/-- Settings survive being written and read. Where the directory for claims has a name that is text,
whatever text it is, the settings can be written, and what was written is read as the same settings or,
if they make no sense, is refused for that. A name that is no text cannot be written. -/
theorem ofText_toYaml (config : Config) :
    ((∀ dir, config.scratch = some dir → ∃ path, dir.bytes = Text.utf8Encode path) →
      ∃ text, config.toYaml = .ok text ∧
        (config.validate = .ok () → ofText (String.ofList text) = .ok config) ∧
        (config.validate ≠ .ok () → ∃ reason, ofText (String.ofList text) = .error (.config reason))) ∧
    ∀ dir, config.scratch = some dir → (¬ ∃ path, dir.bytes = Text.utf8Encode path) →
      ∃ reason, config.toYaml = .error (.config reason) := by
  constructor
  · intro htext
    obtain ⟨path, hpath⟩ : ∃ path : Option (List Char),
        config.scratch = path.map fun text => ⟨Text.utf8Encode text⟩ := by
      cases hscratch : config.scratch with
      | none => exact ⟨none, rfl⟩
      | some dir =>
        obtain ⟨path, hbytes⟩ := htext dir hscratch
        exact ⟨some path, by rw [Option.map_some, ← hbytes]⟩
    have hconfig : config = ⟨config.waitDelay, path.map fun text => ⟨Text.utf8Encode text⟩⟩ := by
      rw [← hpath]
    have hread : ofText (String.ofList (config.delayLine ++ scratchLine path)) =
        config.validate.map fun _ => config := by
      rw [ofText_settings_eq, ← hconfig]
    refine ⟨config.delayLine ++ scratchLine path, ?_, ?_, ?_⟩
    · cases path with
      | none => simp [toYaml, hpath, scratchLine]
      | some text => simp [toYaml, hpath, scratchLine, Text.utf8Decode?_encode]
    · intro hvalid
      rw [hread, hvalid]
      rfl
    · intro hinvalid
      obtain ⟨reason, hreason⟩ := (validate_cases config).resolve_left hinvalid
      exact ⟨reason, by rw [hread, hreason]; rfl⟩
  · intro dir hscratch hbytes
    have hdecode : Text.utf8Decode? dir.bytes = none := by
      cases hdecode : Text.utf8Decode? dir.bytes with
      | none => rfl
      | some path => exact absurd ⟨path, Text.utf8Decode?_eq_some_iff.1 hdecode⟩ hbytes
    simp only [toYaml, hscratch, hdecode]
    exact ⟨_, rfl⟩

/-- A directory whose name would mean nothing at all without quotes is read back, and one whose name is a
lone byte above 127 cannot be written. -/
theorem ofText_toYaml_tilde :
    (∃ text, (Config.mk 5 (some ⟨Text.utf8Encode ['~']⟩)).toYaml = .ok text ∧
      ofText (String.ofList text) = .ok ⟨5, some ⟨Text.utf8Encode ['~']⟩⟩) ∧
    ∃ reason, (Config.mk 5 (some ⟨[0xff]⟩)).toYaml = .error (.config reason) := by
  constructor
  · obtain ⟨text, hwritten, hread, -⟩ := (ofText_toYaml ⟨5, some ⟨Text.utf8Encode ['~']⟩⟩).1 fun dir hdir =>
      ⟨['~'], by rw [← Option.some.inj hdir]⟩
    exact ⟨text, hwritten, hread rfl⟩
  · refine (ofText_toYaml ⟨5, some ⟨[0xff]⟩⟩).2 ⟨[0xff]⟩ rfl ?_
    rintro ⟨path, hpath⟩
    have hdecode := Text.utf8Decode?_eq_some_iff.2 hpath
    exact absurd hdecode (by simp [show Text.utf8Decode? [0xff] = none from by decide])

end DirLock.Config
