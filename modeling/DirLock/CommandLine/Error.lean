import DirLock.CommandLine.Help
import DirLock.Lock.Error

/-!
# Command lines that are not run

A command line may ask for help or for the version, or it may be wrong. A message about a wrong one
names the first thing that is wrong, and where that is known, what may have been meant.
-/

namespace DirLock.CommandLine

/-- What may have been meant by an argument that is not known. -/
inductive Tip where
  | similarOption (opt : Opt)
  /-- An option of a command that stands further on. -/
  | optionOf (command : Scope) (opt : Opt)
  /-- An argument for the command that is to be run. -/
  | afterHyphens
  /-- A command, which cannot stand after two hyphens. -/
  | command
  deriving DecidableEq, Repr

inductive UsageError where
  /-- Help is asked for. -/
  | help (scope : Scope) (long : Bool)
  /-- The version is asked for. -/
  | version (scope : Scope)
  /-- Nothing is asked for. -/
  | nothing
  /-- There are options and no command. -/
  | noCommand
  | unknownCommand (scope : Scope) (text : String) (similar : List String)
  | unknownArgument (scope : Scope) (text : String) (tip : Option Tip) (given : List Opt)
  /-- An option that takes no value has one. -/
  | needlessValue (scope : Scope) (opt : Opt) (value : String) (given : List Opt)
  | missingValue (opt : Opt)
  /-- A value that is no number. -/
  | badNumber (opt : Opt) (value reason : String)
  | repeated (scope : Scope) (opt : Opt)
  | missing (scope : Scope) (opts : List Opt) (command : Bool) (given : List Opt)
  deriving DecidableEq, Repr

namespace UsageError

/-- The words inside single quotes, one after the other. -/
def quotedList (words : List String) : String :=
  ", ".intercalate (words.map fun word => s!"'{word}'")

def complaint (called : Option String) : UsageError → String
  | help scope long => scope.helpText called long
  | version scope => scope.versionText
  | nothing => Scope.program.helpText called false
  | noCommand =>
    let names := ", ".intercalate (Scope.program.commands.map Scope.word)
    s!"'{called.getD programName}' requires a subcommand but one was not provided\n"
      ++ s!"  [subcommands: {names}]"
  | unknownCommand _ text _ => s!"unrecognized subcommand '{text}'"
  | unknownArgument _ text _ _ => s!"unexpected argument '{text}' found"
  | needlessValue _ opt value _ =>
    s!"unexpected value '{value}' for '{opt.shown}' found; no more were expected"
  | missingValue opt => s!"a value is required for '{opt.shown}' but none was supplied"
  | badNumber opt value reason => s!"invalid value '{value}' for '{opt.shown}': {reason}"
  | repeated _ opt => s!"the argument '{opt.shown}' cannot be used multiple times"
  | missing scope opts command _ =>
    let lines := opts.map Opt.shown ++ if command then scope.argument?.toList else []
    "the following required arguments were not provided:"
      ++ String.join (lines.map fun line => "\n  " ++ line)

/-- What may have been meant, in words. -/
def tip? : UsageError → Option String
  | unknownCommand _ _ [] => none
  | unknownCommand _ _ [word] => some s!"a similar subcommand exists: {quotedList [word]}"
  | unknownCommand _ _ words => some s!"some similar subcommands exist: {quotedList words}"
  | unknownArgument _ _ (some (.similarOption opt)) _ =>
    some s!"a similar argument exists: '--{opt.word}'"
  | unknownArgument _ _ (some (.optionOf command opt)) _ =>
    some s!"'{command.word} --{opt.word}' exists"
  | unknownArgument _ text (some .afterHyphens) _ =>
    some s!"to pass '{text}' as a value, use '-- {text}'"
  | unknownArgument _ text (some .command) _ =>
    some s!"subcommand '{text}' exists; to use it, remove the '--' before it"
  | _ => none

def usage? (called : Option String) : UsageError → Option String
  | noCommand => some (Scope.program.usage called [])
  | unknownCommand scope _ _ => some (scope.usage called [])
  | unknownArgument scope _ _ given => some (scope.usage called given)
  | needlessValue scope opt _ given => some (scope.usage called (given ++ [opt]))
  | repeated scope _ => some (scope.usage called [])
  | missing scope opts _ given => some (scope.usage called (given ++ opts))
  | _ => none

/-- Whether the command line is right and asks for a text. -/
def isRequest : UsageError → Bool
  | help _ _ => true
  | version _ => true
  | _ => false

/-- The whole text, for a program called by that name. -/
def message (error : UsageError) (called : Option String) : String :=
  match error with
  | help _ _ => error.complaint called
  | version _ => error.complaint called
  | nothing => error.complaint called
  | _ =>
    s!"error: {error.complaint called}"
      ++ (error.tip?.map fun tip => s!"\n\n  tip: {tip}").getD ""
      ++ ((error.usage? called).map fun usage => s!"\n\n{usage}").getD ""
      ++ "\n\nFor more information, try '--help'.\n"

/-- The status with which the program ends. -/
def exitStatus (error : UsageError) : Nat :=
  if error.isRequest then ExitStatus.success else 2

end UsageError

end DirLock.CommandLine
