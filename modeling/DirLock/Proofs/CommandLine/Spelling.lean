import DirLock.CommandLine.Arguments

/-!
# However the options are written

The options that say which lock is meant can be written in any order, each with its letter or its word, and a
word with its value in the same argument or in the next. Reading takes them one after the other: what stands
between two options is what was given so far, with at most the last value still to be checked. After two
hyphens every argument belongs to the command that is run, whatever it looks like.
-/

namespace DirLock.CommandLine

/-- How an option is written with its value. -/
inductive Spelling where
  /-- The letter, and the value in an argument of its own. -/
  | letter
  /-- The word, and the value in an argument of its own. -/
  | word
  /-- The word and the value in one argument, an equals sign between them. -/
  | joined
  deriving DecidableEq, Repr

/-- An option as it is written, with its value. -/
structure Written where
  opt : Opt
  value : String
  spelling : Spelling
  deriving DecidableEq, Repr

namespace Written

/-- The arguments that the option is written as. -/
def arguments (written : Written) : List String :=
  match written.spelling with
  | .letter => [s!"-{written.opt.letter}", written.value]
  | .word => [s!"--{written.opt.word}", written.value]
  | .joined => [s!"--{written.opt.word}={written.value}"]

/-- The option and its value, however they are written. -/
def setting (written : Written) : Opt × String := (written.opt, written.value)

end Written

/-- The options that say which lock is meant. -/
def Opt.IsChoice (opt : Opt) : Prop := opt = .dir ∨ opt = .name ∨ opt = .config

/-- A value that is not empty and does not start like an option. -/
structure IsPlainValue (value : String) : Prop where
  ne_empty : value ≠ ""
  head_ne : value.toList.head? ≠ some '-'

variable {written : Written} {line : List Written} {given : Given} {reading : Reading} {after : List String}
  {opt : Opt} {value : String}

/-! ## What is given -/

namespace Given

def put (given : Given) (written : Written) : Given :=
  let opts := given.opts ++ [written.opt]
  match written.opt with
  | .dir => { given with dir := some written.value, opts }
  | .name => { given with name := some written.value, opts }
  | .config => { given with config := some written.value, opts }
  | _ => given

/-- The value that was given to an option. -/
def value? (given : Given) : Opt → Option String
  | .dir => given.dir
  | .name => given.name
  | .config => given.config
  | _ => .none

theorem accept_eq_put (hchoice : written.opt.IsChoice) (hnew : written.opt ∉ given.opts)
    (hplain : IsPlainValue written.value) :
    given.accept .run written.opt written.value = .ok (given.put written) := by
  have hvalue : written.value.isEmpty = false := by simpa using hplain.ne_empty
  obtain ⟨opt, value, spelling⟩ := written
  rcases hchoice with rfl | rfl | rfl <;>
    simp_all [accept, put]

theorem value?_put (hchoice : written.opt.IsChoice) :
    (given.put written).value? opt = if written.opt = opt then some written.value else given.value? opt := by
  obtain ⟨own, value, spelling⟩ := written
  rcases hchoice with rfl | rfl | rfl <;> cases opt <;> rfl

theorem opts_put (hchoice : written.opt.IsChoice) : (given.put written).opts = given.opts ++ [written.opt] := by
  obtain ⟨own, value, spelling⟩ := written
  rcases hchoice with rfl | rfl | rfl <;> rfl

theorem timeout_put : (given.put written).timeout = given.timeout := by
  rw [put]
  split <;> rfl

end Given

/-! ## Reading one option -/

theorem toList_letter (c : Char) : (s!"-{c}").toList = ['-', c] := by simp [toString]

theorem toList_word (word : String) : (s!"--{word}").toList = '-' :: '-' :: word.toList := by simp [toString]

theorem toList_joined (word value : String) :
    (s!"--{word}={value}").toList = '-' :: '-' :: (word.toList ++ '=' :: value.toList) := by simp [toString]

namespace Reading

/-- The reading stands between two options: this was given if the last value is counted, and no value is awaited. -/
structure Between (reading : Reading) (given : Given) : Prop where
  settle_eq : reading.settle .run = .ok given
  awaits_eq : reading.awaitsValue = false

theorem option_none (hchoice : opt.IsChoice) (h : reading.settle .run = .ok given) (long : Bool) :
    reading.option .run opt none long = .ok ⟨given, some (opt, none)⟩ := by
  rcases hchoice with rfl | rfl | rfl <;> simp only [option, h, bind, Except.bind] <;> rfl

theorem option_some (hchoice : opt.IsChoice) (h : reading.settle .run = .ok given) (long : Bool) :
    reading.option .run opt (some value) long = (given.accept .run opt value).map (⟨·, none⟩) := by
  rcases hchoice with rfl | rfl | rfl <;> simp only [option, h, bind, Except.bind] <;> rfl

theorem command?_run (text : String) : Scope.run.command? text = none := rfl

theorem longOption_word (hchoice : opt.IsChoice) :
    reading.longOption .run opt.word.toList after = reading.option .run opt none true := by
  rcases hchoice with rfl | rfl | rfl <;> rfl

theorem longOption_joined (hchoice : opt.IsChoice) (value : String) :
    reading.longOption .run (opt.word.toList ++ '=' :: value.toList) after =
      reading.option .run opt (some value) true := by
  have hword : ∀ c ∈ opt.word.toList, decide (c ≠ '=') = true :=
    List.all_eq_true.1 (by rcases hchoice with rfl | rfl | rfl <;> rfl)
  have hcut : cutAtEquals (opt.word.toList ++ '=' :: value.toList) = (opt.word, some value) := by
    rw [cutAtEquals, List.dropWhile_append_of_pos hword, List.takeWhile_append_of_pos hword]
    simp
  rw [longOption, hcut]
  rcases hchoice with rfl | rfl | rfl <;> rfl

theorem letters_letter (hchoice : opt.IsChoice) :
    letters .run [opt.letter] reading = reading.option .run opt none false := by
  rcases hchoice with rfl | rfl | rfl <;> rfl

theorem read_word {text : String} {c : Char} {word : List Char} (htext : text.toList = '-' :: '-' :: c :: word) :
    read .run (text :: after) reading = reading.longOption .run (c :: word) after >>= read .run after := by
  rw [read, command?_run, htext]
  simp

theorem read_letter {text : String} {c : Char} {rest : List Char} (htext : text.toList = '-' :: c :: rest)
    (hc : c ≠ '-') :
    read .run (text :: after) reading = letters .run (c :: rest) reading >>= read .run after := by
  rw [read, command?_run, htext]
  simp [hc]

theorem read_value (hplain : IsPlainValue value) :
    read .run (value :: after) ⟨given, some (opt, none)⟩ = read .run after ⟨given, some (opt, some value)⟩ := by
  have hhead := hplain.head_ne
  rw [read, command?_run]
  simp only [Option.isSome_none, Bool.and_false, Bool.false_eq_true, if_false]
  split
  case h_1 heq => rw [heq] at hhead; exact absurd rfl hhead
  case h_2 heq => rw [heq] at hhead; exact absurd rfl hhead
  case h_3 heq => rw [heq] at hhead; exact absurd rfl hhead
  case h_4 => rfl

/-- An option is read as it was meant, however it is written. -/
theorem read_written (hbetween : reading.Between given) (hchoice : written.opt.IsChoice)
    (hnew : written.opt ∉ given.opts) (hplain : IsPlainValue written.value) :
    ∃ reading' : Reading, read .run (written.arguments ++ after) reading = read .run after reading' ∧
      reading'.Between (given.put written) := by
  have haccept := Given.accept_eq_put hchoice hnew hplain
  obtain ⟨hsettle, -⟩ := hbetween
  obtain ⟨opt, value, spelling⟩ := written
  dsimp only at hchoice haccept hplain
  obtain ⟨c, word, hword⟩ : ∃ c word, opt.word.toList = c :: word := by
    rcases hchoice with rfl | rfl | rfl <;> exact ⟨_, _, rfl⟩
  have hletter : opt.letter ≠ '-' := by rcases hchoice with rfl | rfl | rfl <;> decide
  cases spelling with
  | letter =>
    refine ⟨⟨given, some (opt, some value)⟩, ?_, haccept, rfl⟩
    rw [Written.arguments, List.cons_append, List.singleton_append,
      read_letter (toList_letter opt.letter) hletter, letters_letter hchoice, option_none hchoice hsettle]
    exact read_value hplain
  | word =>
    refine ⟨⟨given, some (opt, some value)⟩, ?_, haccept, rfl⟩
    have htext : (s!"--{opt.word}").toList = '-' :: '-' :: c :: word := by rw [toList_word, hword]
    rw [Written.arguments, List.cons_append, List.singleton_append, read_word htext, ← hword,
      longOption_word hchoice, option_none hchoice hsettle]
    exact read_value hplain
  | joined =>
    refine ⟨⟨given.put ⟨opt, value, .joined⟩, none⟩, ?_, rfl, rfl⟩
    have htext : (s!"--{opt.word}={value}").toList = '-' :: '-' :: c :: (word ++ '=' :: value.toList) := by
      rw [toList_joined, hword, List.cons_append]
    rw [Written.arguments, List.singleton_append, read_word htext, ← List.cons_append, ← hword,
      longOption_joined hchoice, option_some hchoice hsettle, haccept]
    rfl

theorem read_line (hbetween : reading.Between given) (hchoice : ∀ written ∈ line, written.opt.IsChoice)
    (hplain : ∀ written ∈ line, IsPlainValue written.value) (hnodup : (given.opts ++ line.map Written.opt).Nodup) :
    ∃ reading' : Reading, read .run (line.flatMap Written.arguments ++ after) reading = read .run after reading' ∧
      reading'.Between (line.foldl Given.put given) := by
  induction line generalizing reading given with
  | nil => exact ⟨reading, rfl, hbetween⟩
  | cons written line ih =>
    have hfirst := hchoice written List.mem_cons_self
    have hnew : written.opt ∉ given.opts := fun hmem =>
      (List.nodup_append.1 hnodup).2.2 _ hmem _ List.mem_cons_self rfl
    obtain ⟨next, hread, hnext⟩ := @read_written _ _ _ (line.flatMap Written.arguments ++ after) hbetween hfirst hnew
      (hplain written List.mem_cons_self)
    obtain ⟨last, hline, hlast⟩ := ih hnext (fun other hmem => hchoice other (List.mem_cons_of_mem _ hmem))
      (fun other hmem => hplain other (List.mem_cons_of_mem _ hmem))
      (by rwa [Given.opts_put hfirst, List.append_assoc])
    refine ⟨last, ?_, hlast⟩
    rw [List.flatMap_cons, List.append_assoc, hread, hline]

/-- The options of a line end where the arguments end or two hyphens stand. -/
def IsEnd (rest : List String) : Prop := rest = [] ∨ rest.head? = some "--"

theorem read_end {rest : List String} (h : IsEnd rest) : read .run rest reading = .ok (reading, rest) := by
  cases rest with
  | nil => rfl
  | cons text rest =>
    obtain rfl : text = "--" := by simpa [IsEnd] using h
    rw [read, command?_run, Option.isSome_none, Bool.and_false]
    rfl

theorem readAll_line {rest : List String} (hend : IsEnd rest) (hchoice : ∀ written ∈ line, written.opt.IsChoice)
    (hplain : ∀ written ∈ line, IsPlainValue written.value) (hnodup : (line.map Written.opt).Nodup) :
    readAll .run (line.flatMap Written.arguments ++ rest) = .ok (line.foldl Given.put .none, rest.drop 1) := by
  have hstart : start.Between .none := ⟨rfl, rfl⟩
  obtain ⟨last, hread, hsettle, -⟩ := @read_line line .none start rest hstart hchoice hplain hnodup
  rw [readAll, hread, read_end hend]
  simp only [bind, Except.bind, hsettle]
  cases rest.drop 1 <;> rfl

end Reading

/-! ## What a line gives -/

namespace Given

theorem opts_foldl (hchoice : ∀ written ∈ line, written.opt.IsChoice) :
    (line.foldl put given).opts = given.opts ++ line.map Written.opt := by
  induction line generalizing given with
  | nil => simp
  | cons written line ih =>
    rw [List.foldl_cons, ih fun other hmem => hchoice other (List.mem_cons_of_mem _ hmem),
      opts_put (hchoice written List.mem_cons_self), List.append_assoc, List.map_cons, List.singleton_append]

theorem timeout_foldl : (line.foldl put given).timeout = given.timeout := by
  induction line generalizing given with
  | nil => rfl
  | cons written line ih => rw [List.foldl_cons, ih, timeout_put]

theorem value?_foldl_of_not_mem (hchoice : ∀ written ∈ line, written.opt.IsChoice)
    (h : opt ∉ line.map Written.opt) : (line.foldl put given).value? opt = given.value? opt := by
  induction line generalizing given with
  | nil => rfl
  | cons written line ih =>
    rw [List.map_cons, List.mem_cons, not_or] at h
    rw [List.foldl_cons, ih (fun other hmem => hchoice other (List.mem_cons_of_mem _ hmem)) h.2,
      value?_put (hchoice written List.mem_cons_self), if_neg (Ne.symm h.1)]

theorem value?_foldl_of_mem (hchoice : ∀ written ∈ line, written.opt.IsChoice)
    (hnodup : (line.map Written.opt).Nodup) (hmem : written ∈ line) :
    (line.foldl put given).value? written.opt = some written.value := by
  induction line generalizing given with
  | nil => cases hmem
  | cons first line ih =>
    have hothers : ∀ other ∈ line, other.opt.IsChoice := fun other h => hchoice other (List.mem_cons_of_mem _ h)
    rw [List.map_cons, List.nodup_cons] at hnodup
    rw [List.foldl_cons]
    rcases List.mem_cons.1 hmem with rfl | hmem
    · rw [value?_foldl_of_not_mem hothers hnodup.1, value?_put (hchoice _ List.mem_cons_self), if_pos rfl]
    · exact ih hothers hnodup.2 hmem

end Given

/-! ## Whole lines -/

/-- The options that say which lock is meant, with their values. -/
def LockChoice.settings (choice : LockChoice) : List (Opt × String) :=
  (.dir, choice.dir) :: (.name, choice.name) :: choice.config.toList.map fun config => (.config, config)

theorem readArguments_run {rest : List String} : readArguments ("run" :: rest) = readRun .none rest := rfl

theorem readRun_line {rest : List String} (hend : Reading.IsEnd rest)
    (hchoice : ∀ written ∈ line, written.opt.IsChoice) (hplain : ∀ written ∈ line, IsPlainValue written.value)
    (hnodup : (line.map Written.opt).Nodup) :
    readRun .none (line.flatMap Written.arguments ++ rest) =
      match (line.foldl Given.put .none).choice?, rest.drop 1 with
      | some lock, program :: arguments => .ok ⟨0, .run lock .none program arguments⟩
      | _, command => .error (missingError .run (line.foldl Given.put .none) command.isEmpty) := by
  have hquiet : verbosity .none (line.foldl Given.put .none) = 0 := by
    have hverbose : .verbose ∉ (line.foldl Given.put .none).opts := by
      rw [Given.opts_foldl hchoice]
      intro hmem
      obtain ⟨written, hwritten, hopt⟩ := List.mem_map.1 hmem
      have hone := hchoice written hwritten
      rw [hopt] at hone
      rcases hone with hone | hone | hone <;> cases hone
    exact if_neg hverbose
  rw [readRun, Reading.readAll_line hend hchoice hplain hnodup]
  simp only [bind, Except.bind, hquiet, Given.timeout_foldl]
  cases (line.foldl Given.put .none).choice? <;> cases rest.drop 1 <;> rfl

/-! ## Lines for a choice -/

variable {choice : LockChoice}

theorem opts_perm (hperm : (line.map Written.setting).Perm choice.settings) :
    (line.map Written.opt).Perm (choice.settings.map Prod.fst) := by
  have hmapped := hperm.map Prod.fst
  rwa [List.map_map] at hmapped

theorem opts_settings (choice : LockChoice) :
    choice.settings.map Prod.fst = .dir :: .name :: choice.config.toList.map fun _ => .config := by
  rw [LockChoice.settings, List.map_cons, List.map_cons, List.map_map]
  rfl

theorem isChoice_of_perm (hperm : (line.map Written.setting).Perm choice.settings) :
    ∀ written ∈ line, written.opt.IsChoice := by
  intro written hmem
  have hopt := (opts_perm hperm).mem_iff.1 (List.mem_map_of_mem hmem)
  rw [opts_settings, List.mem_cons, List.mem_cons, List.mem_map] at hopt
  rcases hopt with hdir | hname | ⟨-, -, hconfig⟩
  · exact .inl hdir
  · exact .inr (.inl hname)
  · exact .inr (.inr hconfig.symm)

theorem nodup_of_perm (hperm : (line.map Written.setting).Perm choice.settings) :
    (line.map Written.opt).Nodup := by
  rw [(opts_perm hperm).nodup_iff, opts_settings]
  cases choice.config <;> simp

theorem value?_foldl_of_setting (hperm : (line.map Written.setting).Perm choice.settings)
    (h : (opt, value) ∈ choice.settings) : (line.foldl Given.put .none).value? opt = some value := by
  obtain ⟨written, hmem, hsetting⟩ := List.mem_map.1 (hperm.mem_iff.2 h)
  cases hsetting
  exact Given.value?_foldl_of_mem (isChoice_of_perm hperm) (nodup_of_perm hperm) hmem

theorem choice?_foldl (hperm : (line.map Written.setting).Perm choice.settings) :
    (line.foldl Given.put .none).choice? = some choice := by
  have hdir : (line.foldl Given.put .none).dir = some choice.dir :=
    value?_foldl_of_setting hperm List.mem_cons_self
  have hname : (line.foldl Given.put .none).name = some choice.name :=
    value?_foldl_of_setting hperm (List.mem_cons_of_mem _ List.mem_cons_self)
  have hconfig : (line.foldl Given.put .none).config = choice.config := by
    cases hconfig : choice.config with
    | none =>
      have habsent : Opt.config ∉ line.map Written.opt := by
        rw [(opts_perm hperm).mem_iff, opts_settings, hconfig]
        decide
      exact Given.value?_foldl_of_not_mem (isChoice_of_perm hperm) habsent
    | some config =>
      have hsetting : (.config, config) ∈ choice.settings := by simp [LockChoice.settings, hconfig]
      exact value?_foldl_of_setting hperm hsetting
  rw [Given.choice?, hdir, hname, hconfig]
  rfl

theorem choice?_foldl_of_missing (hchoice : ∀ written ∈ line, written.opt.IsChoice)
    (hmissing : .dir ∉ line.map Written.opt ∨ .name ∉ line.map Written.opt) :
    (line.foldl Given.put .none).choice? = none := by
  rcases hmissing with hmissing | hmissing
  · have hdir : (line.foldl Given.put .none).dir = none := Given.value?_foldl_of_not_mem hchoice hmissing
    rw [Given.choice?, hdir]
    rfl
  · have hname : (line.foldl Given.put .none).name = none := Given.value?_foldl_of_not_mem hchoice hmissing
    rw [Given.choice?, hname]
    cases (line.foldl Given.put .none).dir <;> rfl

theorem missingError_foldl (hchoice : ∀ written ∈ line, written.opt.IsChoice) (command : Bool) :
    missingError .run (line.foldl Given.put .none) command =
      .missing .run (Scope.run.required.filter fun opt => !(line.map Written.opt).contains opt) command
        (line.map Written.opt) := by
  rw [missingError, Given.opts_foldl hchoice]
  rfl

/-- In whatever order and however the options are written, the lock is the one that was chosen, and everything after
the two hyphens is the command, element by element. Without a command, without a directory or without a name the line
is refused, and the error names what is missing. -/
theorem readArguments_any_order (hplain : ∀ setting ∈ choice.settings, IsPlainValue setting.2)
    (hperm : (line.map Written.setting).Perm choice.settings) :
    (∀ program arguments, readArguments ("run" :: (line.flatMap Written.arguments ++ "--" :: program :: arguments)) =
      .ok ⟨0, .run choice none program arguments⟩) ∧
    (∀ rest, rest = [] ∨ rest = ["--"] → readArguments ("run" :: (line.flatMap Written.arguments ++ rest)) =
      .error (.missing .run [] true (line.map Written.opt))) ∧
    ∀ fewer : List Written, fewer.Sublist line →
      .dir ∉ fewer.map Written.opt ∨ .name ∉ fewer.map Written.opt → ∀ rest, Reading.IsEnd rest →
        readArguments ("run" :: (fewer.flatMap Written.arguments ++ rest)) =
          .error (.missing .run (Scope.run.required.filter fun opt => !(fewer.map Written.opt).contains opt)
            (rest.drop 1).isEmpty (fewer.map Written.opt)) := by
  have hchoice := isChoice_of_perm hperm
  have hnodup := nodup_of_perm hperm
  have hvalues : ∀ written ∈ line, IsPlainValue written.value := fun written hmem =>
    hplain written.setting (hperm.mem_iff.1 (List.mem_map_of_mem hmem))
  refine ⟨fun program arguments => ?_, fun rest hrest => ?_, fun fewer hfewer hmissing rest hend => ?_⟩
  · rw [readArguments_run, readRun_line (.inr rfl) hchoice hvalues hnodup, choice?_foldl hperm]
    rfl
  · have hend : Reading.IsEnd rest := hrest.imp_right fun h => by rw [h]; rfl
    have hnone : rest.drop 1 = [] := by rcases hrest with rfl | rfl <;> rfl
    have hgiven : (Scope.run.required.filter fun opt => !(line.map Written.opt).contains opt) = [] := by
      simp [Scope.required, (opts_perm hperm).mem_iff, opts_settings]
    rw [readArguments_run, readRun_line hend hchoice hvalues hnodup, choice?_foldl hperm, hnone]
    dsimp only
    rw [missingError_foldl hchoice, hgiven]
    rfl
  · have hfewerChoice : ∀ written ∈ fewer, written.opt.IsChoice := fun written hmem =>
      hchoice written (hfewer.subset hmem)
    rw [readArguments_run, readRun_line hend hfewerChoice (fun written hmem => hvalues written (hfewer.subset hmem))
      (hnodup.sublist (hfewer.map _)), choice?_foldl_of_missing hfewerChoice hmissing]
    dsimp only
    rw [missingError_foldl hfewerChoice]

/-- A directory with an equals sign, a lock that is called like a command, settings in the same argument, and a
command that looks like options; then the same line without the name. -/
theorem readArguments_any_order_odd :
    readArguments ["run", "--config=x=-y", "-n", "run", "--dir", "a=b", "--", "", "--", "-v", "--help"] =
      .ok ⟨0, .run ⟨"a=b", "run", some "x=-y"⟩ none "" ["--", "-v", "--help"]⟩ ∧
    readArguments ["run", "--config=x=-y", "--dir", "a=b", "--", "true"] =
      .error (.missing .run [.name] false [.config, .dir]) := by
  have hplain : ∀ setting ∈ (LockChoice.mk "a=b" "run" (some "x=-y")).settings, IsPlainValue setting.2 := by
    intro setting hmem
    simp only [LockChoice.settings, Option.toList_some, List.map_cons, List.map_nil, List.mem_cons,
      List.not_mem_nil, or_false] at hmem
    rcases hmem with rfl | rfl | rfl <;> exact ⟨by decide, by decide⟩
  have hperm : ([⟨.config, "x=-y", .joined⟩, ⟨.name, "run", .letter⟩, ⟨.dir, "a=b", .word⟩].map Written.setting).Perm
      (LockChoice.mk "a=b" "run" (some "x=-y")).settings := by decide
  obtain ⟨haccepted, -, hmissing⟩ := readArguments_any_order hplain hperm
  exact ⟨haccepted "" ["--", "-v", "--help"], hmissing [⟨.config, "x=-y", .joined⟩, ⟨.dir, "a=b", .word⟩]
    (by decide) (.inr (by decide)) ["--", "true"] (.inr rfl)⟩

end DirLock.CommandLine
