import DirLock.CommandLine.Error
import DirLock.Number.Reading
import DirLock.Text.Similarity

/-!
# Reading a command line

Arguments are read from left to right. An option that takes a value takes it from its own argument
or else from the next one, and its value is checked when the next option begins; after two hyphens
nothing is an option any more. The first thing that is wrong decides the error.
-/

namespace DirLock.CommandLine

open Number (Binary64)

/-- Which lock is meant, and where its settings are. -/
structure LockChoice where
  dir : String
  name : String
  config : Option String
  deriving DecidableEq, Repr

inductive Command where
  /-- Run a program with arguments while holding the lock. -/
  | run (lock : LockChoice) (timeout : Option Binary64) (program : String) (arguments : List String)
  /-- Tell whether the lock is held. -/
  | status (lock : LockChoice)
  deriving DecidableEq, Repr

structure Arguments where
  verbosity : Nat
  command : Command
  deriving DecidableEq, Repr

/-- The options that were given so far. -/
structure Given where
  dir : Option String
  name : Option String
  config : Option String
  timeout : Option Binary64
  verbosity : Nat
  /-- The options in the order in which they were given. -/
  opts : List Opt
  deriving DecidableEq, Repr

namespace Given

def none : Given := ⟨.none, .none, .none, .none, 0, []⟩

def mostVerbose : Nat := 255

def raise (given : Given) : Given :=
  { given with
    verbosity := min mostVerbose (given.verbosity + 1)
    opts := given.opts.erase .verbose ++ [.verbose] }

/-- The number that a value stands for. -/
def number (opt : Opt) (value : String) : Except UsageError Binary64 :=
  match Number.binary64? value.toList with
  | some number => .ok number
  | .none =>
    .error (.badNumber opt value
      (if value.isEmpty then "cannot parse float from empty string" else "invalid float literal"))

/-- Give an option its value. It must be the first, and fit the option. -/
def accept (given : Given) (scope : Scope) (opt : Opt) (value : String) :
    Except UsageError Given :=
  let opts := given.opts ++ [opt]
  if opt ∈ given.opts then .error (.repeated scope opt)
  else match opt with
    | .dir =>
      if value.isEmpty then .error (.missingValue opt)
      else .ok { given with dir := some value, opts }
    | .config =>
      if value.isEmpty then .error (.missingValue opt)
      else .ok { given with config := some value, opts }
    | .name => .ok { given with name := some value, opts }
    | .timeout => do return { given with timeout := some (← number opt value), opts }
    | _ => .ok given

/-- What counts as given after a value that was not accepted: a repeated option does no more, one
with a wrong value does. -/
def afterRefusal (given : Given) (opt : Opt) : Given :=
  if opt ∈ given.opts then { given with opts := given.opts.erase opt }
  else { given with opts := given.opts ++ [opt] }

end Given

/-- How far the reading of the arguments after a command has come. -/
structure Reading where
  given : Given
  /-- An option whose value is not checked yet, and the value if it is there. -/
  pending : Option (Opt × Option String)
  deriving DecidableEq, Repr

namespace Reading

def start : Reading := ⟨.none, none⟩

def settle (reading : Reading) (scope : Scope) : Except UsageError Given :=
  match reading.pending with
  | none => .ok reading.given
  | some (opt, none) => .error (.missingValue opt)
  | some (opt, some value) => reading.given.accept scope opt value

/-- What is given if a wrong value that is pending does not matter, since something else is
wrong. -/
def settled (reading : Reading) (scope : Scope) : Given :=
  match reading.pending with
  | some (opt, some value) =>
    match reading.given.accept scope opt value with
    | .ok given => given
    | .error _ => reading.given.afterRefusal opt
  | _ => reading.given

/-- Whether the next argument is a value unless it is an option. -/
def awaitsValue (reading : Reading) : Bool :=
  match reading.pending with
  | some (_, none) => true
  | _ => false

/-- An option with the value that its own argument holds, if it holds one. -/
def option (reading : Reading) (scope : Scope) (opt : Opt) (value : Option String) (long : Bool) :
    Except UsageError Reading := do
  let given ← reading.settle scope
  match opt with
  | .help => throw (.help scope long)
  | .version => throw (.version scope)
  | .verbose => return ⟨given.raise, none⟩
  | _ =>
    match value with
    | some value => return ⟨← given.accept scope opt value, none⟩
    | none => return ⟨given, some (opt, none)⟩

/-- An option's word, and what stands after the first equals sign if there is one. -/
def cutAtEquals (text : List Char) : String × Option String :=
  match text.dropWhile (· ≠ '=') with
  | [] => (String.ofList text, none)
  | _ :: value => (String.ofList (text.takeWhile (· ≠ '=')), some (String.ofList value))

/-- The option that was meant by a word that is none: one like it, or one like it of a command that
stands further on. -/
def tipFor (scope : Scope) (word : String) (after : List String) : Option Tip :=
  let like (scope : Scope) : Option Opt :=
    (Text.similarWords word (scope.options.map Opt.word)).getLast?.bind scope.optionOfWord?
  match like scope with
  | some opt => some (.similarOption opt)
  | none =>
    let further := scope.commands.filterMap fun command =>
      match like command, after.findIdx? (· == command.word) with
      | some opt, some place => some (place, Tip.optionOf command opt)
      | _, _ => none
    match (further.mergeSort fun a b => a.1 ≤ b.1).head? with
    | some (_, tip) => some tip
    | none => if scope.takesArguments then some .afterHyphens else none

/-- An argument that starts with two hyphens. -/
def longOption (reading : Reading) (scope : Scope) (text : List Char) (after : List String) :
    Except UsageError Reading :=
  let (word, value) := cutAtEquals text
  match scope.optionOfWord? word with
  | none =>
    let given := reading.settled scope
    let tip := tipFor scope word after
    let opts := match tip with
      | some (.similarOption opt) => if opt ∈ given.opts then given.opts else given.opts ++ [opt]
      | _ => given.opts
    .error (.unknownArgument scope s!"--{word}" tip opts)
  | some opt =>
    match opt.takesValue, value with
    | false, some value => .error (.needlessValue scope opt value reading.given.opts)
    | _, _ => reading.option scope opt value true

/-- An argument that starts with one hyphen: letters of options, the last of which may be followed
by its value. -/
def letters (scope : Scope) : List Char → Reading → Except UsageError Reading
  | [], reading => .ok reading
  | c :: rest, reading =>
    match scope.optionOfLetter? c with
    | none =>
      .error (.unknownArgument scope s!"-{c}"
        (if scope.takesArguments then some .afterHyphens else none) [])
    | some opt =>
      if opt.takesValue then
        match rest with
        | [] => reading.option scope opt none false
        | '=' :: value => reading.option scope opt (some (String.ofList value)) false
        | value => reading.option scope opt (some (String.ofList value)) false
      else do letters scope rest (← reading.option scope opt none false)

/-- An argument that is no option and no value. -/
def stray (scope : Scope) (text : String) (afterHyphens : Bool) : UsageError :=
  let similar := Text.similarWords text (scope.commands.map Scope.word)
  if afterHyphens && (scope.command? text).isSome then
    .unknownArgument scope text (some .command) []
  else if scope.commands.isEmpty then .unknownArgument scope text none []
  else .unknownCommand scope text similar

/-- Read the arguments up to the end, to two hyphens or to a command. The command or the hyphens
come with the arguments after them. -/
def read (scope : Scope) : List String → Reading → Except UsageError (Reading × List String)
  | [], reading => .ok (reading, [])
  | text :: after, reading =>
    if !reading.awaitsValue && (scope.command? text).isSome then .ok (reading, text :: after)
    else match text.toList with
      | ['-', '-'] => .ok (reading, text :: after)
      | '-' :: '-' :: word => do read scope after (← reading.longOption scope word after)
      | '-' :: c :: rest => do read scope after (← letters scope (c :: rest) reading)
      | _ =>
        match reading.pending with
        | some (opt, none) => read scope after { reading with pending := some (opt, some text) }
        | _ => .error (stray scope text false)

/-- Read the arguments of a command, and those after two hyphens. -/
def readAll (scope : Scope) (arguments : List String) :
    Except UsageError (Given × List String) := do
  let (reading, after) ← read scope arguments start
  match after.drop 1 with
  | [] => return (← reading.settle scope, [])
  | text :: rest =>
    if scope.takesArguments then return (← reading.settle scope, text :: rest)
    else throw (stray scope text true)

end Reading

/-- The lock that is chosen by the options given, if they are enough. -/
def Given.choice? (given : Given) : Option LockChoice := do
  return ⟨← given.dir, ← given.name, given.config⟩

def missingError (scope : Scope) (given : Given) (command : Bool) : UsageError :=
  .missing scope (scope.required.filter fun opt => !given.opts.contains opt) command given.opts

/-- The verbosity where a command may say it anew. -/
def verbosity (before after : Given) : Nat :=
  if Opt.verbose ∈ after.opts then after.verbosity else before.verbosity

def readRun (before : Given) (arguments : List String) : Except UsageError Arguments := do
  let (given, command) ← Reading.readAll .run arguments
  match given.choice?, command with
  | some lock, program :: rest =>
    return ⟨verbosity before given, .run lock given.timeout program rest⟩
  | _, _ => throw (missingError .run given command.isEmpty)

/-- Read the arguments of the command that tells whether a lock is held. -/
def readStatus (before : Given) (arguments : List String) : Except UsageError Arguments := do
  let (given, _) ← Reading.readAll .status arguments
  match given.choice? with
  | some lock => return ⟨verbosity before given, .status lock⟩
  | none => throw (missingError .status given false)

/-- The help that is asked for by the names of commands. -/
def helpFor (scope : Scope) : List String → UsageError
  | [] => .help scope true
  | word :: rest =>
    match scope.command? word with
    | some command => helpFor command rest
    | none => .unknownCommand scope word []

def readArguments (arguments : List String) : Except UsageError Arguments := do
  let (reading, after) ← Reading.read .program arguments .start
  let before ← reading.settle .program
  match after with
  | [] => throw (if before.opts.isEmpty then .nothing else .noCommand)
  | word :: rest =>
    match Scope.program.command? word, rest with
    | some .run, _ => readRun before rest
    | some .status, _ => readStatus before rest
    | some _, _ => throw (helpFor .program rest)
    | none, [] => throw (if before.opts.isEmpty then .nothing else .noCommand)
    | none, text :: _ => throw (Reading.stray .program text true)

end DirLock.CommandLine
