import DirLock.Log.Event
import DirLock.Text.Alphanumeric
import DirLock.Text.Blank

/-!
# Which events are shown

A filter is a list of directives between commas. A directive may name a target and values, and says
how far down in importance events of that target with those values are shown; of those that fit an
event the most particular one decides. What a directive says about spans concerns no event.
-/

namespace DirLock.Log

/-- How far down events are shown; none at all without a level. -/
abbrev Limit := Option Level

/-- Whether a limit lets a level through. -/
def Limit.allows (limit : Limit) (level : Level) : Bool :=
  match limit with
  | none => false
  | some least => level.rank ≤ least.rank

structure Directive where
  target : Option (List Char)
  /-- The names of values that an event must have. -/
  fields : List (List Char)
  limit : Limit
  /-- Whether it asks for a span or for what a value is, which no event alone can meet. -/
  aboutSpans : Bool
  deriving DecidableEq, Repr

namespace Directive

/-- The directive before anything of it is read. -/
def blank : Directive := ⟨none, [], some .trace, false⟩

def limitOfNumber? (text : List Char) : Option Limit :=
  let digits := match text with
    | '+' :: rest => rest
    | rest => rest
  if digits.isEmpty || !digits.all Char.isDigit then none
  else match digits.foldl (fun value c => value * 10 + (c.toNat - 0x30)) 0 with
    | 0 => some none
    | 1 => some (some .error)
    | 2 => some (some .warn)
    | 3 => some (some .info)
    | 4 => some (some .debug)
    | 5 => some (some .trace)
    | _ => none

/-- A number or a word as a limit. -/
def limit? (text : List Char) : Option Limit :=
  match limitOfNumber? text with
  | some limit => some limit
  | none =>
    match String.ofList (text.map Char.toLower) with
    | "off" => some none
    | "error" => some (some .error)
    | "warn" => some (some .warn)
    | "info" => some (some .info)
    | "debug" => some (some .debug)
    | "trace" => some (some .trace)
    | _ => none

/-- What is being read. The numbers say where it began. -/
inductive Part where
  | start
  | word (first : Nat)
  | span (first : Nat)
  | field (first : Nat)
  | afterFields
  | afterSpan
  | level (first : Nat)
  deriving DecidableEq, Repr

def piece (text : List Char) (first last : Nat) : List Char := (text.take last).drop first

/-- Add a value's name. One that comes with what the value is asks more than an event can say. -/
def addField (directive : Directive) (text : List Char) : Option Directive :=
  if text.isEmpty then none
  else some
    { directive with
      fields := directive.fields ++ [text.takeWhile (· ≠ '=')]
      aboutSpans := directive.aboutSpans || text.contains '=' }

def advance (text : List Char) (place : Nat) (c : Char) :
    Part × Directive → Option (Part × Directive)
  | (.start, d) =>
    if c = '[' then some (.span (place + 1), d)
    else if c = '-' || c = ':' || c = '_' || Text.isAlphanumeric c then some (.word place, d)
    else none
  | (.word first, d) =>
    let target := some (piece text first place)
    if c = '=' then some (.level (place + 1), { d with target })
    else if c = '[' then some (.span (place + 1), { d with target })
    else some (.word first, d)
  | (.span first, d) =>
    if c = ']' then some (.afterSpan, { d with aboutSpans := true })
    else if c = '\x7b' then
      let named := !(piece text first place).isEmpty
      some (.field (place + 1), { d with aboutSpans := d.aboutSpans || named })
    else some (.span first, d)
  | (.field first, d) =>
    if c = '\x7d' then (d.addField (piece text first place)).map fun d => (.afterFields, d)
    else some (.field first, d)
  | (.afterFields, d) => if c = ']' then some (.afterSpan, d) else none
  | (.afterSpan, d) => if c = '=' then some (.level (place + 1), d) else none
  | (.level first, d) => some (.level first, d)

def advanceAll (text : List Char) :
    Nat → List Char → Part × Directive → Option (Part × Directive)
  | _, [], state => some state
  | place, c :: rest, state => do advanceAll text (place + 1) rest (← advance text place c state)

/-- The directive when the text is at its end. A lone word is a level or else a target. -/
def finish (text : List Char) : Part × Directive → Option Directive
  | (.word first, d) =>
    let word := text.drop first
    match limit? word with
    | some limit => some { d with limit, target := none }
    | none => some { d with target := some word }
  | (.level first, d) =>
    let word := text.drop first
    if word.isEmpty then some d else (limit? word).map fun limit => { d with limit }
  | (.afterSpan, d) => some d
  | _ => none

/-- The directive in the text. Blanks around it are passed over, but places are counted from its
start. -/
def ofText? (text : List Char) : Option Directive := do
  finish text (← advanceAll text 0 (Text.trimmed text) (.start, blank))

/-- Whether the directive has a say about the event. -/
def fits (directive : Directive) (event : Event) : Bool :=
  !directive.aboutSpans
    && (match directive.target with
      | none => true
      | some target => target.isPrefixOf event.target.toList)
    && directive.fields.all fun field => event.fieldNames.contains (String.ofList field)

/-- Whether the second directive is at least as particular as the first: a longer target, or else
more values, or else a target or values further on in the alphabet. -/
def yields (first second : Directive) : Bool :=
  let weight (d : Directive) : Nat :=
    match d.target with
    | none => 0
    | some target => (String.ofList target).utf8ByteSize + 1
  if weight first ≠ weight second then weight first < weight second
  else if first.fields.length ≠ second.fields.length then
    first.fields.length < second.fields.length
  else if first.target ≠ second.target then first.target.getD [] < second.target.getD []
  else !decide (second.fields < first.fields)

end Directive

structure Filter where
  directives : List Directive
  deriving DecidableEq, Repr

namespace Filter

def upTo (level : Level) : Filter := ⟨[{ Directive.blank with limit := some level }]⟩

def cut : List Char → List (List Char)
  | [] => [[]]
  | c :: rest =>
    if c = ',' then [] :: cut rest
    else match cut rest with
      | [] => [[c]]
      | piece :: pieces => (c :: piece) :: pieces

/-- The filter in the text, if every directive can be read. Without a directive errors are shown. -/
def ofText? (text : List Char) : Option Filter := do
  let pieces := (cut text).filter fun piece => !piece.isEmpty
  let directives ← pieces.mapM Directive.ofText?
  if directives.isEmpty then return upTo .error else return ⟨directives⟩

/-- The directive that decides about the event. -/
def deciding? (filter : Filter) (event : Event) : Option Directive :=
  filter.directives.foldl
    (fun best directive =>
      if directive.fits event then
        match best with
        | none => some directive
        | some other => if other.yields directive then some directive else some other
      else best)
    none

def allows (filter : Filter) (event : Event) : Bool :=
  match filter.deciding? event with
  | none => false
  | some directive => directive.limit.allows event.level

end Filter

/-- How far down events are shown where no filter is set. -/
def levelOf (verbosity : Nat) : Level :=
  match verbosity with
  | 0 => .warn
  | 1 => .info
  | _ => .debug

/-- The filter that is set if it can be read, or else that of the verbosity. -/
def filterFor (setting : Option String) (verbosity : Nat) : Filter :=
  match setting.bind fun text => Filter.ofText? text.toList with
  | some filter => filter
  | none => .upTo (levelOf verbosity)

end DirLock.Log
