import DirLock.Disk.Path

/-!
# Commands and options

The commands that the program knows and the options that each takes. What is shown about an option,
its letter, its word and what its value is called, is said here once; help texts, usage lines and
error messages are made from it.
-/

namespace DirLock.CommandLine

inductive Opt where
  | dir
  | verbose
  | name
  | config
  | timeout
  | help
  | version
  deriving DecidableEq, Repr

namespace Opt

def letter : Opt → Char
  | dir => 'd'
  | verbose => 'v'
  | name => 'n'
  | config => 'c'
  | timeout => 't'
  | help => 'h'
  | version => 'V'

/-- The word of the option, after two hyphens. -/
def word : Opt → String
  | dir => "dir"
  | verbose => "verbose"
  | name => "name"
  | config => "config"
  | timeout => "timeout"
  | help => "help"
  | version => "version"

/-- What the option's value is called, if it takes one. -/
def valueName? : Opt → Option String
  | dir => some "DIR"
  | name => some "NAME"
  | config => some "CONFIG"
  | timeout => some "SECONDS"
  | _ => none

def takesValue (opt : Opt) : Bool := opt.valueName?.isSome

def shown (opt : Opt) : String :=
  match opt, opt.valueName? with
  | _, some value => s!"--{opt.word} <{value}>"
  | .verbose, none => s!"--{opt.word}..."
  | _, none => s!"--{opt.word}"

end Opt

/-- Where on the command line options are read: before a command, or after one. -/
inductive Scope where
  | program
  | run
  | status
  /-- The command that prints help. -/
  | help
  deriving DecidableEq, Repr

def programName : String := "fslock"

/-- The name that a program is called by when it is started as `command`: the name of its file. -/
def calledName? (command : String) : Option String :=
  ((Disk.Path.ofString command).fileName?).map Text.lossyString

def programVersion : String := "0.1.0"

namespace Scope

def word : Scope → String
  | program => programName
  | run => "run"
  | status => "status"
  | help => "help"

/-- The words that lead to the scope, where the program was called by a name. A command stands alone
where it was called by none. -/
def path (called : Option String) : Scope → String
  | program => called.getD programName
  | scope => match called with
    | some name => s!"{name} {scope.word}"
    | none => scope.word

def versionName : Scope → String
  | program => programName
  | scope => s!"{programName}-{scope.word}"

/-- The options that can stand here, in the order of help texts. -/
def options : Scope → List Opt
  | program => [.verbose, .help, .version]
  | run => [.dir, .verbose, .name, .config, .timeout, .help, .version]
  | status => [.dir, .verbose, .name, .config, .help, .version]
  | help => []

/-- The options that have to be given here. -/
def required : Scope → List Opt
  | run => [.dir, .name]
  | status => [.dir, .name]
  | _ => []

/-- The arguments that are no options, as they are shown where they have to be given. -/
def argument? : Scope → Option String
  | run => some "<COMMAND>..."
  | help => some "[COMMAND]..."
  | _ => none

/-- Whether arguments that are no options can stand here. -/
def takesArguments (scope : Scope) : Bool := scope.argument?.isSome

def commands : Scope → List Scope
  | program => [run, status, help]
  | _ => []

def optionOfLetter? (scope : Scope) (c : Char) : Option Opt :=
  scope.options.find? fun opt => opt.letter == c

def optionOfWord? (scope : Scope) (word : String) : Option Opt :=
  scope.options.find? fun opt => opt.word == word

def command? (scope : Scope) (word : String) : Option Scope :=
  scope.commands.find? fun command => command.word == word

end Scope

end DirLock.CommandLine
