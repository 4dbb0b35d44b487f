import DirLock.CommandLine.Option

/-!
# Help texts

Usage lines, and the help of the program and of each command. A help text comes in a short form, one
line for each option, and for a command that has more to say in a long form.
-/

namespace DirLock.CommandLine

def Opt.purpose : Opt → String
  | dir => "Directory containing the lock"
  | verbose => "Increase log verbosity (-v info, -vv debug). RUST_LOG takes precedence"
  | name => "Lock name (lowercase letters, digits, '.', '-'; starts with a letter)"
  | config => "YAML file with lock settings (wait_delay_ms, scratch_dir)"
  | timeout => "Give up after this many seconds (fractions allowed)"
  | help => "Print help"
  | version => "Print version"

/-- The option in a list of options. -/
def Opt.label (opt : Opt) : String := s!"-{opt.letter}, {opt.shown}"

namespace Scope

def purpose : Scope → String
  | program => "Cross-process mutual exclusion built on atomic directory renames"
  | run => "Acquire the lock, run a command, then release the lock"
  | status => "Report whether the lock is currently held, and by whom"
  | help => "Print this message or the help of the given subcommand(s)"

/-- What more there is to say about the command. -/
def details? : Scope → Option String
  | run => some <| "Waits indefinitely unless --timeout is given. Exits with the command's exit "
      ++ "code, or 4 if the lock could not be acquired in time."
  | status => some <| "Exits 0 when the lock is free and 4 when it is held. "
      ++ "Never creates the lock directory."
  | _ => none

def argumentPurpose : Scope → String
  | run => "Command to run while holding the lock"
  | _ => "Print help for the subcommand(s)"

/-- The arguments as they stand at the end of a usage line. -/
def argumentUsage : Scope → String
  | run => " -- <COMMAND>..."
  | help => " [COMMAND]..."
  | _ => ""

/-- The usage line, with the options that have to be given and those that were. Where none were, it
says that there are others. -/
def usage (scope : Scope) (called : Option String) (given : List Opt) : String :=
  let others := if given.isEmpty && !scope.options.isEmpty then " [OPTIONS]" else ""
  let opts := scope.required ++ given.filter fun opt => !scope.required.contains opt
  let command := if scope.commands.isEmpty then "" else " <COMMAND>"
  s!"Usage: {scope.path called}{others}" ++ String.join (opts.map fun opt => " " ++ opt.shown)
    ++ scope.argumentUsage ++ command

/-- The text filled up with blanks to a width. -/
def padded (text : String) (width : Nat) : String :=
  text ++ String.ofList (List.replicate (width - text.length) ' ')

/-- A list of labels, each with its explanation beside it. -/
def table (rows : List (String × String)) : String :=
  let width := (rows.map fun row => row.1.length).foldl max 0
  String.join (rows.map fun row => s!"  {padded row.1 width}  {row.2}\n")

/-- A list of labels, each with its explanation below it. -/
def sheet (rows : List (String × String)) : String :=
  "\n".intercalate (rows.map fun row => s!"  {row.1}\n          {row.2}\n")

/-- What the option does, with a word on the other form of the help text. -/
def optionPurpose (scope : Scope) (long : Bool) (opt : Opt) : String :=
  if opt = .help && scope.details?.isSome then
    if long then "Print help (see a summary with '-h')" else "Print help (see more with '--help')"
  else opt.purpose

/-- The help text. The long form differs only where there is more to say. -/
def helpText (scope : Scope) (called : Option String) (long : Bool) : String :=
  let long := long && scope.details?.isSome
  let list := if long then sheet else table
  let intro := match scope.details? with
    | some details => if long then s!"{scope.purpose}.\n\n{details}" else scope.purpose
    | none => scope.purpose
  let listed (heading : String) (rows : List (String × String)) : String :=
    if rows.isEmpty then "" else s!"\n{heading}:\n{list rows}"
  let commands := scope.commands.map fun command => (command.word, command.purpose)
  let arguments := scope.argument?.toList.map fun shown => (shown, scope.argumentPurpose)
  let options := scope.options.map fun opt => (opt.label, scope.optionPurpose long opt)
  s!"{intro}\n\n{scope.usage called []}\n" ++ listed "Commands" commands
    ++ listed "Arguments" arguments ++ listed "Options" options

def versionText (scope : Scope) : String := s!"{scope.versionName} {programVersion}\n"

end Scope

end DirLock.CommandLine
