import DirLock.Machine
import DirLock.Shell.Script
import DirLock.Shell.Tool

/-!
# Running programs and scripts

A program is found by its name and run with its arguments. The shell runs the commands of a script
one after the other, each under its condition, until one of them ends the shell or kills it.
-/

namespace DirLock.Shell

open Disk (Path Fault)

structure Setting where
  name : String
  arguments : List String
  pid : Nat
  /-- The status of the command before. -/
  status : Nat

def Setting.value (setting : Setting) (parameter : Char) : String :=
  match parameter with
  | '0' => setting.name
  | '$' => toString setting.pid
  | '?' => toString setting.status
  | '#' => toString setting.arguments.length
  | c =>
    if c.isDigit then setting.arguments.getD (c.toNat - 0x31) ""
    else " ".intercalate setting.arguments

/-! ## Words -/

/-- The words that are complete, last first, and the one that is being put together. -/
structure Fields where
  complete : List (List Char)
  current : Option (List Char)

def Fields.cut (fields : Fields) : Fields :=
  match fields.current with
  | none => fields
  | some word => ⟨word :: fields.complete, none⟩

def Fields.add (fields : Fields) (text : List Char) : Fields :=
  { fields with current := some (fields.current.getD [] ++ text) }

def Fields.addCut (fields : Fields) : List Char → Fields
  | [] => fields
  | c :: rest =>
    if c = ' ' || c = '\t' || c = '\n' then fields.cut.addCut rest else (fields.add [c]).addCut rest

/-- Put in the parameters of a word. It may become any number of words. -/
def expand (setting : Setting) (word : Word) : List String :=
  if word.isEmpty then [""]
  else
    let fields := word.foldl (fun (fields : Fields) piece =>
      match piece with
      | .text text => fields.add text
      | .parameter name true => fields.add (setting.value name).toList
      | .parameter name false => fields.addCut (setting.value name).toList) ⟨[], none⟩
    fields.cut.complete.reverse.map String.ofList

/-! ## Output -/

inductive Sink where
  | output
  | errors
  | nowhere
  | file (path : Path) (append : Bool)
  deriving DecidableEq, Repr

/-- Where a command's output and its complaints go. -/
structure Sinks where
  output : Sink
  errors : Sink

def Sink.write (text : String) : Sink → Routine Unit
  | output => if text.isEmpty then return () else Routine.request (.print text)
  | errors => if text.isEmpty then return () else Routine.request (.complain text)
  | nowhere => return ()
  | file path append => do
    let before ← (if append then do
        return (← Routine.request (.readFile path)).toOption.getD []
      else return [])
    let _ ← Routine.request (.writeFile path (before ++ Text.bytesOf text))

/-- The file that takes everything and keeps nothing. -/
def nullFile : String := "/dev/null"

/-- The reason a file cannot be opened for writing, in the shell's words. -/
def createFault : Fault → String
  | .os code =>
    if code = Disk.Errno.notFound || code = Disk.Errno.notDirectory then "Directory nonexistent"
    else code.text
  | fault => fault.message

/-- Open the files of redirections, in order. -/
def openAll (setting : Setting) : List Redirection → Sinks → Routine (Except String Sinks)
  | [], sinks => return .ok sinks
  | .errorsToOutput :: rest, sinks => openAll setting rest { sinks with errors := sinks.output }
  | .outputToErrors :: rest, sinks => openAll setting rest { sinks with output := sinks.errors }
  | .input source :: rest, sinks => do
    let text := String.join (expand setting source)
    match ← Routine.request (.readFile (.ofString text)) with
    | .ok _ => openAll setting rest sinks
    | .error _ => return .error s!"{setting.name}: 1: cannot open {text}: No such file\n"
  | .file toErrors append target :: rest, sinks => do
    let text := String.join (expand setting target)
    let placed (sink : Sink) : Sinks :=
      if toErrors then { sinks with errors := sink } else { sinks with output := sink }
    if text = nullFile then openAll setting rest (placed .nowhere)
    else
      let path := Path.ofString text
      let before ← (if append then do
          return (← Routine.request (.readFile path)).toOption.getD []
        else return [])
      match ← Routine.request (.writeFile path before) with
      | .ok () => openAll setting rest (placed (.file path true))
      | .error fault =>
        return .error s!"{setting.name}: 1: cannot create {text}: {createFault fault}\n"

/-! ## Commands -/

def signals : List (String × Nat) :=
  [("HUP", 1), ("INT", 2), ("QUIT", 3), ("ILL", 4), ("TRAP", 5), ("ABRT", 6), ("BUS", 7),
    ("FPE", 8), ("KILL", 9), ("USR1", 10), ("SEGV", 11), ("USR2", 12), ("PIPE", 13),
    ("ALRM", 14), ("TERM", 15), ("STKFLT", 16), ("CHLD", 17), ("CONT", 18), ("STOP", 19),
    ("TSTP", 20), ("TTIN", 21), ("TTOU", 22), ("URG", 23), ("XCPU", 24), ("XFSZ", 25),
    ("VTALRM", 26), ("PROF", 27), ("WINCH", 28), ("IO", 29), ("PWR", 30), ("SYS", 31)]

/-- The signals that do not end whoever gets them. -/
def harmless : List Nat := [0, 17, 18, 23, 28]

/-- The number of a signal that is given by number or by name. -/
def signal? (text : String) : Option Nat :=
  match text.toNat? with
  | some number => if number ≤ 64 then some number else none
  | none =>
    signals.lookup text.toUpper

inductive Outcome where
  | goesOn (report : Report)
  | stops (ending : ChildEnd) (report : Report)

/-- Send a signal. Only the shell itself can be reached. -/
def kill (setting : Setting) (arguments : List String) : Outcome :=
  let send (signal : Nat) (target : String) : Outcome :=
    if target.toNat? = some setting.pid then
      if harmless.contains signal then .goesOn .success
      else .stops (.killed signal) .success
    else .goesOn (.fails 1 s!"{setting.name}: 1: kill: No such process\n\n")
  let bad (text : String) : Outcome :=
    .goesOn (.fails 2 s!"{setting.name}: 1: kill: invalid signal number or name: {text}\n")
  let illegal (text : String) : Outcome :=
    .goesOn (.fails 2 s!"{setting.name}: 1: kill: Illegal option -{text.take 1}\n")
  match arguments with
  | ["-s", signal, target] => ((signal? signal).map (send · target)).getD (bad signal)
  | [signal, target] =>
    if signal.startsWith "-" then
      let name := String.ofList (signal.toList.drop 1)
      ((signal? name).map (send · target)).getD (illegal name)
    else send 15 target
  | [target] => send 15 target
  | _ => bad ""

def leave (setting : Setting) (arguments : List String) : Outcome :=
  match arguments with
  | [] => .stops (.exited setting.status) .success
  | text :: _ =>
    if !text.isEmpty && text.toList.all Char.isDigit then
      .stops (.exited ((text.toNat?.getD 0) % 256)) .success
    else
      .stops (.exited 2) (.fails 2 s!"{setting.name}: 1: exit: Illegal number: {text}\n")

/-- The name of a program that is given with one of the usual directories of programs. -/
def usualName (program : String) : String :=
  let text := program.toList
  if "/usr/bin/".toList.isPrefixOf text then String.ofList (text.drop 9)
  else if "/bin/".toList.isPrefixOf text then String.ofList (text.drop 5)
  else program

def runWords (setting : Setting) : List String → Routine Outcome
  | [] => return .goesOn .success
  | "exit" :: rest => return leave setting rest
  | "kill" :: rest => return kill setting rest
  | ":" :: _ => return .goesOn .success
  | "echo" :: rest => do
    let report ← echo rest
    return .goesOn { report with output := String.ofList (unescaped report.output.toList) }
  | "exec" :: program :: rest => do
    match tool? (usualName program) with
    | some tool =>
      let report ← tool rest
      return .stops (.exited report.status) report
    | none =>
      return .stops (.exited 127)
        (.fails 127 s!"{setting.name}: 1: exec: {program}: not found\n")
  | program :: rest => do
    match tool? (usualName program) with
    | some tool => return .goesOn (← tool rest)
    | none =>
      let unknown := Report.fails 127 s!"{setting.name}: 1: {program}: not found\n"
      if program.contains '/' then
        match ← Routine.request (.entryKind (.ofString program)) with
        | .ok _ => return .goesOn (.fails 126 s!"{setting.name}: 1: {program}: Permission denied\n")
        | .error _ => return .goesOn unknown
      else return .goesOn unknown

def publish (report : Report) (sinks : Sinks) : Routine Unit := do
  sinks.output.write report.output
  sinks.errors.write report.errors

def runSimple (setting : Setting) (command : Simple) : Routine (Nat × Option ChildEnd) := do
  match ← openAll setting command.redirections ⟨.output, .errors⟩ with
  | .error complaint =>
    Routine.request (.complain complaint)
    return (2, none)
  | .ok sinks =>
    match ← runWords setting (command.words.flatMap (expand setting)) with
    | .goesOn report =>
      publish report sinks
      return (report.status, none)
    | .stops ending report =>
      publish report sinks
      return (report.status, some ending)

/-- Whether a command is run after one with this status. -/
def Condition.holdsAfter (status : Nat) : Condition → Bool
  | always => true
  | afterSuccess => status = 0
  | afterFailure => status ≠ 0

/-- Run commands to the end of the script or of the shell. -/
def runAll (setting : Setting) : List Simple → Routine ChildEnd
  | [] => return .exited setting.status
  | command :: rest =>
    if command.condition.holdsAfter setting.status then do
      match ← runSimple setting command with
      | (_, some ending) => return ending
      | (status, none) => runAll { setting with status } rest
    else runAll setting rest

def runScript (setting : Setting) (text : String) : Routine ChildEnd :=
  match script? text with
  | some commands => runAll setting commands
  | none => do
    Routine.request (.complain s!"{setting.name}: 1: Syntax error\n")
    return .exited 2

def shell (pid : Nat) : List String → Routine ChildEnd
  | ["-c"] => do
    Routine.request (.complain "sh: 0: -c requires an argument\n")
    return .exited 2
  | "-c" :: text :: [] => runScript ⟨"sh", [], pid, 0⟩ text
  | "-c" :: text :: name :: rest => runScript ⟨name, rest, pid, 0⟩ text
  | [] => return .exited 0
  | path :: rest => do
    match ← Routine.request (.readFile (.ofString path)) with
    | .ok content => runScript ⟨path, rest, pid, 0⟩ (Text.lossyString content)
    | .error _ =>
      Routine.request (.complain s!"sh: 0: cannot open {path}: No such file\n")
      return .exited 2

/-- The longest name that is looked for among the programs. -/
def longestProgram : Nat := 255

/-- The programs of a machine. Files that are made on it are no programs, since nothing marks them
as such. -/
def programs (pid : Nat) : Machine.Programs := fun program arguments => do
  let name := usualName program
  if name = "sh" then return .ok (← shell pid arguments)
  match tool? name with
  | some tool =>
    let report ← tool arguments
    publish report ⟨.output, .errors⟩
    return .ok (.exited report.status)
  | none =>
    if program.contains '/' then
      let path := Path.ofString program
      if ← Routine.request (.isDirectory path) then return .error (.os .denied)
      match ← Routine.request (.readFile path) with
      | .ok _ => return .error (.os .denied)
      | .error fault => return .error fault
    else if program.utf8ByteSize > longestProgram then return .error (.os .nameTooLong)
    else return .error (.os .notFound)

end DirLock.Shell
