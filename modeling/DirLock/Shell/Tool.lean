import DirLock.Routine.Directories

/-!
# Small programs

The programs that commands are usually tried with: they look at files, make and remove them, or only
end with a status. Each takes its arguments and reports a status and what it wrote.
-/

namespace DirLock.Shell

open Disk (Path Fault EntryKind)

structure Report where
  status : Nat
  output : String
  errors : String
  deriving DecidableEq, Repr

namespace Report

/-- A program that did well and wrote nothing. -/
def success : Report := ⟨0, "", ""⟩

def writes (output : String) : Report := ⟨0, output, ""⟩

def fails (status : Nat) (errors : String) : Report := ⟨status, "", errors⟩

/-- Two reports, one after the other; the greater status counts. -/
def andThen (first second : Report) : Report :=
  ⟨max first.status second.status, first.output ++ second.output, first.errors ++ second.errors⟩

end Report

abbrev Tool := List String → Routine Report

/-- Ask for something and complain if it is refused. -/
def attempt (request : Routine (Except Fault Unit)) (complaint : Fault → String) :
    Routine Report := do
  match ← request with
  | .ok () => return .success
  | .error fault => return .fails 1 (complaint fault)

/-- A fault in the words of programs, which leave its number out. -/
def faultText : Fault → String
  | .os code => code.text
  | fault => fault.message

/-- Do the same for each of several things and join the reports. -/
def each (act : String → Routine Report) : List String → Routine Report
  | [] => return .success
  | item :: rest => do
    let first ← act item
    return first.andThen (← each act rest)

/-- The letters of the arguments that are options, and the other arguments. -/
def cutOptions (arguments : List String) : List Char × List String :=
  let isOption (argument : String) : Bool := argument.startsWith "-" && argument.length > 1
  ((arguments.filter isOption).flatMap fun argument => argument.toList.drop 1,
    arguments.filter fun argument => !isOption argument)

/-- The names to list: all, or those that do not start with a dot. -/
def listed (all : Bool) (names : List Disk.Name) : List String :=
  let names := names.map Text.lossyString
  (if all then names else names.filter fun name => !name.startsWith ".").mergeSort

def column (names : List String) : String := String.join (names.map fun name => name ++ "\n")

/-- What was found at a path that is to be listed. -/
inductive Found where
  | file (path : String)
  | directory (path : String) (names : List String)
  | missing (path : String) (fault : Fault)

/-- Look at the paths that are to be listed. -/
def lookAt (all : Bool) : List String → Routine (List Found)
  | [] => return []
  | path :: rest => do
    let first ← (do
      match ← Routine.request (.list (.ofString path)) with
      | .ok names => return .directory path (listed all names)
      | .error fault =>
        match ← Routine.request (.entryKind (.ofString path)) with
        | .ok _ => return .file path
        | .error _ => return .missing path fault)
    return first :: (← lookAt all rest)

/-- The listing of what was found: files first, then directories, with headings where there are
several paths. -/
def listing (found : List Found) : Report :=
  let files := found.filterMap fun
    | .file path => some path
    | _ => none
  let faults := found.filterMap fun
    | .missing path fault => some s!"ls: cannot access '{path}': {faultText fault}\n"
    | _ => none
  let blocks := found.filterMap fun
    | .directory path names =>
      some (if found.length > 1 then s!"{path}:\n{column names}" else column names)
    | _ => none
  let blocks := if files.isEmpty then blocks else column files :: blocks
  ⟨if faults.isEmpty then 0 else 2, "\n".intercalate blocks, String.join faults⟩

def ls : Tool := fun arguments => do
  let (options, paths) := cutOptions arguments
  let all := options.contains 'A' || options.contains 'a'
  let paths := if paths.isEmpty then ["."] else paths.mergeSort
  return listing (← lookAt all paths)

def removeOne (whole forced : Bool) (text : String) : Routine Report := do
  let path := Path.ofString text
  let complaint (fault : Fault) : String := s!"rm: cannot remove '{text}': {faultText fault}\n"
  match ← Routine.request (.entryKind path) with
  | .error fault =>
    if forced && fault.kind = .notFound then return .success
    else return .fails 1 (complaint fault)
  | .ok .directory =>
    if whole then attempt (Routine.removeTree path) complaint
    else return .fails 1 (complaint (.os .isDirectory))
  | .ok _ => attempt (Routine.request (.unlink path)) complaint

def rm : Tool := fun arguments => do
  let (options, paths) := cutOptions arguments
  let whole := options.contains 'r' || options.contains 'R'
  let forced := options.contains 'f'
  if paths.isEmpty && !forced then
    return .fails 1 "rm: missing operand\nTry 'rm --help' for more information.\n"
  each (removeOne whole forced) paths

def rmdir : Tool := fun arguments =>
  each (fun text => attempt (Routine.request (.remove (.removeDirectory (.ofString text) [])))
    fun fault => s!"rmdir: failed to remove '{text}': {faultText fault}\n") (cutOptions arguments).2

def mkdir : Tool := fun arguments =>
  let (options, paths) := cutOptions arguments
  each (fun text =>
    let path := Path.ofString text
    attempt (if options.contains 'p' then Routine.makeDirectories path
      else Routine.request (.makeDirectory path))
      fun fault => s!"mkdir: cannot create directory '{text}': {faultText fault}\n") paths

def touch : Tool := fun arguments =>
  each (fun text => do
    let path := Path.ofString text
    match ← Routine.request (.entryKind path) with
    | .ok _ => return .success
    | .error _ =>
      attempt (Routine.request (.writeFile path []))
        fun fault => s!"touch: cannot touch '{text}': {faultText fault}\n") (cutOptions arguments).2

def cat : Tool := fun arguments =>
  each (fun text => do
    match ← Routine.request (.readFile (.ofString text)) with
    | .ok content => return .writes (Text.lossyString content)
    | .error fault => return .fails 1 s!"cat: {text}: {faultText fault}\n") (cutOptions arguments).2

/-- Rename, into a directory if the last path is one. -/
def mv : Tool := fun arguments => do
  match (cutOptions arguments).2 with
  | [source, target] =>
    let into ← Routine.request (.isDirectory (.ofString target))
    let source := Path.ofString source
    let goal := if into then
        match source.lastName with
        | .name name => (Path.ofString target).join ⟨name⟩
        | _ => .ofString target
      else .ofString target
    match ← Routine.request (.entryKind source) with
    | .error fault =>
      return .fails 1 s!"mv: cannot stat '{source.display}': {faultText fault}\n"
    | .ok _ =>
      attempt (Routine.request (.rename source goal)) fun fault =>
        s!"mv: cannot move '{source.display}' to '{goal.display}': {faultText fault}\n"
  | _ => return .fails 1 "mv: missing file operand\nTry 'mv --help' for more information.\n"

def ln : Tool := fun arguments => do
  match (cutOptions arguments).2 with
  | [target, path] =>
    attempt (Routine.request (.makeLink (.ofString target) (.ofString path))) fun fault =>
      s!"ln: failed to create symbolic link '{path}': {faultText fault}\n"
  | _ => return .fails 1 "ln: missing file operand\nTry 'ln --help' for more information.\n"

def sleep : Tool := fun arguments => do
  let seconds := (arguments.filterMap String.toNat?).foldl (· + ·) 0
  let _ ← Routine.request (.pause (seconds * 1000000000))
  return .success

def echo : Tool := fun arguments =>
  match arguments with
  | "-n" :: rest => return .writes (" ".intercalate rest)
  | rest => return .writes (" ".intercalate rest ++ "\n")

/-- Put in the characters that stand behind backslashes. -/
def unescaped : List Char → List Char
  | '\\' :: 'n' :: rest => '\n' :: unescaped rest
  | '\\' :: 't' :: rest => '\t' :: unescaped rest
  | '\\' :: '\\' :: rest => '\\' :: unescaped rest
  | c :: rest => c :: unescaped rest
  | [] => []

/-- Put arguments into a pattern. Those that found no place are given too. -/
def filled : List Char → List String → List Char × List String
  | '%' :: '%' :: rest, arguments => ((filled rest arguments).map ('%' :: ·) id)
  | '%' :: c :: rest, arguments =>
    if c = 's' || c = 'd' then
      (filled rest (arguments.drop 1)).map ((arguments.headD "").toList ++ ·) id
    else (filled rest arguments).map ('%' :: c :: ·) id
  | c :: rest, arguments => (filled rest arguments).map (c :: ·) id
  | [], arguments => ([], arguments)

/-- Put arguments into a pattern until all have found a place, as long as the pattern takes any. -/
def filledAgain (pattern : List Char) : Nat → List String → List Char
  | 0, _ => []
  | rounds + 1, arguments =>
    let (text, left) := filled pattern arguments
    if left.isEmpty || left.length == arguments.length then text
    else text ++ filledAgain pattern rounds left

/-- Write the arguments in the form of a pattern. -/
def printf : Tool := fun arguments =>
  match arguments with
  | [] => return .fails 1 "printf: missing operand\n"
  | pattern :: rest =>
    return .writes (String.ofList (filledAgain (unescaped pattern.toList) (rest.length + 1) rest))

def pwd : Tool := fun _ => do
  return .writes ((← Routine.request .workingDirectory).display ++ "\n")

def pathTest (op : String) (text : String) : Routine (Option Bool) := do
  let path := Path.ofString text
  let kind : Routine (Option EntryKind) := do
    return (← Routine.request (.entryKind path)).toOption
  let reaches : Routine Bool := do
    if ← Routine.request (.isDirectory path) then return true
    return (← Routine.request (.readFile path)).isOk
  match op with
  | "-d" => return some (← Routine.request (.isDirectory path))
  | "-f" => return some (← Routine.request (.readFile path)).isOk
  | "-e" => return some (← reaches)
  | "-s" =>
    match ← Routine.request (.readFile path) with
    | .ok content => return some !content.isEmpty
    | .error _ => return some (← Routine.request (.isDirectory path))
  | "-r" => return some (← reaches)
  | "-w" => return some (← reaches)
  | "-L" => return some ((← kind) = some .link)
  | "-h" => return some ((← kind) = some .link)
  | _ => return none

def compare? (first op second : String) : Option Bool :=
  match op, first.toInt?, second.toInt? with
  | "=", _, _ => some (first == second)
  | "!=", _, _ => some (first != second)
  | "-eq", some a, some b => some (a = b)
  | "-ne", some a, some b => some (a ≠ b)
  | "-lt", some a, some b => some (a < b)
  | "-le", some a, some b => some (a ≤ b)
  | "-gt", some a, some b => some (a > b)
  | "-ge", some a, some b => some (a ≥ b)
  | _, _, _ => none

/-- Whether a condition holds; none if it is no condition. -/
def holds : List String → Routine (Option Bool)
  | [] => return some false
  | [text] => return some !text.isEmpty
  | "!" :: rest => return (← holds rest).map not
  | ["-n", text] => return some !text.isEmpty
  | ["-z", text] => return some text.isEmpty
  | [op, text] => pathTest op text
  | [first, op, second] => return compare? first op second
  | _ => return none

def test : Tool := fun arguments => do
  match ← holds arguments with
  | some true => return .success
  | some false => return ⟨1, "", ""⟩
  | none => return .fails 2 "sh: 1: test: unexpected operator\n"

def bracket : Tool := fun arguments =>
  match arguments.getLast? with
  | some "]" => test arguments.dropLast
  | _ => return .fails 2 "sh: 1: [: missing ]\n"

def tool? : String → Option Tool
  | "true" => some fun _ => return .success
  | "false" => some fun _ => return ⟨1, "", ""⟩
  | "ls" => some ls
  | "rm" => some rm
  | "rmdir" => some rmdir
  | "mkdir" => some mkdir
  | "touch" => some touch
  | "cat" => some cat
  | "mv" => some mv
  | "ln" => some ln
  | "sleep" => some sleep
  | "echo" => some echo
  | "printf" => some printf
  | "pwd" => some pwd
  | "test" => some test
  | "[" => some bracket
  | _ => none

end DirLock.Shell
