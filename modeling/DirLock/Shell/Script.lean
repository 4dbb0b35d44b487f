/-!
# Shell scripts

A small part of the shell's language: simple commands with quoting, parameters and redirections,
joined by semicolons, `&&` and `||`.
-/

namespace DirLock.Shell

inductive Piece where
  | text (text : List Char)
  /-- A parameter; its value is cut at blanks unless it is quoted. -/
  | parameter (name : Char) (quoted : Bool)
  deriving DecidableEq, Repr

/-- A word before parameters are put in. -/
abbrev Word := List Piece

inductive Token where
  | word (word : Word)
  | operator (text : String)
  deriving DecidableEq, Repr

inductive Quotes where
  | none
  | single
  | double
  deriving DecidableEq, Repr

/-- Add a character to the word that is being read. -/
def addChar (c : Char) : Option Word → Option Word
  | some (.text t :: rest) => some (.text (t ++ [c]) :: rest)
  | some word => some (.text [c] :: word)
  | none => some [.text [c]]

def isParameter (c : Char) : Bool := c.isDigit || "$?#@*".toList.contains c

/-- Begin a word if none is begun. -/
def begun (word : Option Word) : Option Word := some (word.getD [])

/-- The word that was being read, and then these tokens. -/
def closed (word : Option Word) (tokens : List Token) : List Token :=
  match word with
  | some word => .word word.reverse :: tokens
  | none => tokens

/-- The part of the text from the next line on. -/
def nextLine : List Char → List Char
  | [] => []
  | '\n' :: rest => '\n' :: rest
  | _ :: rest => nextLine rest

def operators : List String :=
  ["2>&1", "1>&2", ">&2", "2>>", "2>", "1>>", "1>", ">>", ">", "<", "&&", "||", ";", "\n"]

/-- The operator at the start of the text. A number before an arrow is part of it only where no word
is being read. -/
def operatorAt? (inWord : Bool) (text : List Char) : Option String :=
  operators.find? fun op =>
    op.toList.isPrefixOf text && !(inWord && (op.toList.head?.any Char.isDigit))

/-- Cut a script into tokens. Each round takes at least one character. -/
def tokens : Nat → Quotes → Option Word → List Char → Option (List Token)
  | 0, _, _, _ => none
  | _ + 1, .none, word, [] => some (closed word [])
  | _ + 1, _, _, [] => none
  | fuel + 1, .single, word, c :: rest =>
    if c = '\'' then tokens fuel .none word rest
    else tokens fuel .single (addChar c word) rest
  | fuel + 1, .double, word, c :: rest =>
    match c, rest with
    | '"', _ => tokens fuel .none word rest
    | '\\', d :: more =>
      if d = '"' || d = '\\' || d = '$' then tokens fuel .double (addChar d word) more
      else tokens fuel .double (addChar d (addChar c word)) more
    | '$', d :: more =>
      if isParameter d then
        tokens fuel .double (some (.parameter d true :: word.getD [])) more
      else tokens fuel .double (addChar c word) rest
    | _, _ => tokens fuel .double (addChar c word) rest
  | fuel + 1, .none, word, c :: rest =>
    match operatorAt? word.isSome (c :: rest) with
    | some op => do
      let after ← tokens fuel .none none ((c :: rest).drop op.length)
      return closed word (.operator op :: after)
    | none =>
      match c, rest with
      | ' ', _ => (tokens fuel .none none rest).map (closed word)
      | '\t', _ => (tokens fuel .none none rest).map (closed word)
      | '\'', _ => tokens fuel .single (begun word) rest
      | '"', _ => tokens fuel .double (begun word) rest
      | '\\', '\n' :: more => tokens fuel .none word more
      | '\\', d :: more => tokens fuel .none (addChar d word) more
      | '$', d :: more =>
        if isParameter d then
          tokens fuel .none (some (.parameter d false :: word.getD [])) more
        else tokens fuel .none (addChar c word) rest
      | '#', _ =>
        if word.isNone then tokens fuel .none none (nextLine rest)
        else tokens fuel .none (addChar c word) rest
      | _, _ =>
        if "&|()`".toList.contains c then none else tokens fuel .none (addChar c word) rest

inductive Redirection where
  /-- Output, of errors or not, to a file, at its end or not. -/
  | file (errors append : Bool) (target : Word)
  /-- Errors to where the output goes. -/
  | errorsToOutput
  /-- Output to where errors go. -/
  | outputToErrors
  /-- Input from a file, which is only opened. -/
  | input (source : Word)
  deriving DecidableEq, Repr

/-- When a command is run: always, or after one that went well, or after one that did not. -/
inductive Condition where
  | always
  | afterSuccess
  | afterFailure
  deriving DecidableEq, Repr

structure Simple where
  condition : Condition
  words : List Word
  redirections : List Redirection
  deriving DecidableEq, Repr

/-- The redirection that an operator and a word make. -/
def redirection? (op : String) (target : Word) : Option Redirection :=
  match op with
  | ">" => some (.file false false target)
  | "1>" => some (.file false false target)
  | ">>" => some (.file false true target)
  | "1>>" => some (.file false true target)
  | "2>" => some (.file true false target)
  | "2>>" => some (.file true true target)
  | "<" => some (.input target)
  | _ => none

/-- The condition that an operator sets for the next command. -/
def condition? : String → Option Condition
  | ";" => some .always
  | "\n" => some .always
  | "&&" => some .afterSuccess
  | "||" => some .afterFailure
  | _ => none

/-- Whether nothing of the command is there. -/
def Simple.isBlank (command : Simple) : Bool :=
  command.words.isEmpty && command.redirections.isEmpty

/-- The redirection that an operator makes alone. -/
def plainRedirection? : String → Option Redirection
  | "2>&1" => some .errorsToOutput
  | ">&2" => some .outputToErrors
  | "1>&2" => some .outputToErrors
  | _ => none

def Simple.redirect (command : Simple) (redirection : Redirection) : Simple :=
  { command with redirections := command.redirections ++ [redirection] }

/-- Group tokens into commands. An arrow waits for the word after it. -/
def commands : Option String → Simple → List Token → Option (List Simple)
  | some _, _, [] => none
  | none, current, [] =>
    if current.isBlank then (if current.condition = .always then some [] else none)
    else some [current]
  | some arrow, current, .word target :: rest => do
    commands none (current.redirect (← redirection? arrow target)) rest
  | some _, _, .operator _ :: _ => none
  | none, current, .word word :: rest =>
    commands none { current with words := current.words ++ [word] } rest
  | none, current, .operator op :: rest =>
    match plainRedirection? op, condition? op with
    | some redirection, _ => commands none (current.redirect redirection) rest
    | none, none => commands (some op) current rest
    | none, some condition =>
      if current.isBlank then (if op = "\n" then commands none current rest else none)
      else (commands none ⟨condition, [], []⟩ rest).map (current :: ·)

/-- The commands of a script; none if it is not of the language. -/
def script? (text : String) : Option (List Simple) := do
  let text := text.toList
  commands none ⟨.always, [], []⟩ (← tokens (2 * text.length + 2) .none none text)

end DirLock.Shell
