import DirLock.Config.Basic
import DirLock.Text.Blank
import DirLock.Yaml.Document

/-!
# Settings from YAML

The settings are a mapping of two names. Both may be left out, other names are passed over, and a
text without content gives the defaults.
-/

namespace DirLock.Config

open Yaml (Document Item Mark)

/-- The settings that were read so far. -/
structure Fields where
  waitDelay : Option UInt64
  scratch : Option (Option Disk.Path)

def Fields.none : Fields := ⟨.none, .none⟩

def Fields.toConfig (fields : Fields) : Config :=
  ⟨fields.waitDelay.getD Config.default.waitDelay, fields.scratch.getD Config.default.scratch⟩

/-- The directory to stage claims in, or none. -/
def readScratch (path : String) (around : Mark) : Document.Reader (Option Disk.Path) :=
  Document.readOptional around fun document items => do
    let (text, rest) ← Document.readText path "path string" document items
    pure (⟨Text.utf8Encode text⟩, rest)

/-- The members of the mapping that starts at `around`. The number bounds them. -/
def members (document : Document) (around : Mark) :
    Nat → Fields → List Item → Except Yaml.Error Fields
  | 0, fields, _ => .ok fields
  | fuel + 1, fields, items =>
    match items with
    | [] => document.cutOff
    | item :: _ =>
      if item.part = .mappingEnd then .ok fields
      else do
        let ((name, path), rest) ← Document.readKey document items
        match String.ofList name with
        | "wait_delay_ms" =>
          if fields.waitDelay.isSome then
            Document.misfit "" (.duplicateField "wait_delay_ms") around
          else
            let (millis, rest) ← Document.readUnsigned path document rest
            members document around fuel
              { fields with waitDelay := some (UInt64.ofNat millis) } rest
        | "scratch_dir" =>
          if fields.scratch.isSome then
            Document.misfit "" (.duplicateField "scratch_dir") around
          else
            let (dir, rest) ← readScratch path around document rest
            members document around fuel { fields with scratch := some dir } rest
        | _ => members document around fuel fields (← Document.skipNode document 0 rest)

def ofDocument (document : Document) : Except Yaml.Error Config :=
  match document.items with
  | [] => document.cutOff
  | item :: rest =>
    match item.part with
    | .mappingStart => do
      let fields ← members document item.mark (rest.length + 1) Fields.none rest
      pure fields.toConfig
    | .void => .ok Config.default
    | .scalar node =>
      if node.style = .plain ∧ node.value = [] then .ok Config.default
      else Document.misfit "" (Document.mismatch item.part "struct LockConfig") item.mark
    | part => Document.misfit "" (Document.mismatch part "struct LockConfig") item.mark

/-- The settings that a YAML text holds. -/
def parse (text : List Char) : Except Yaml.Error Config := do
  let (document, more) := Document.ofText text
  let config ← ofDocument document
  match document.failure with
  | some error => throw error
  | none => if more then throw .manyDocuments else pure config

/-- The settings that a text holds, checked. -/
def ofText (text : String) : Except LockError Config :=
  if (Text.trimmed text.toList).isEmpty then .ok Config.default
  else match parse text.toList with
    | .error error => .error (.config s!"failed to parse config YAML: {error.message}")
    | .ok config => do
      config.validate
      pure config

/-- The settings in the file at the path, whose content is given. -/
def ofContent (path : Disk.Path) (content : Except Disk.Fault (List UInt8)) :
    Except LockError Config :=
  let unread (fault : Disk.Fault) : Except LockError Config :=
    .error (.config s!"failed to read config file '{path.display}': {fault.message}")
  match content with
  | .error fault => unread fault
  | .ok bytes =>
    match Text.utf8Decode? bytes with
    | none => unread .notText
    | some text => ofText (String.ofList text)

end DirLock.Config
