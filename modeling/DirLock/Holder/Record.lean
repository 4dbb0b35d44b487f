import DirLock.Holder.Basic
import DirLock.Json.Record
import DirLock.Time.Stamp

/-!
# The file about the holder

A holder is written as a JSON object with its fields in a fixed order, an unknown process number
left out. Reading takes the fields in any order and passes over fields it does not know.
-/

namespace DirLock

namespace Holder

open Json (Reader Failure Outcome misfit)

/-- The object that stands for the holder. -/
def render (holder : Holder) : List Char :=
  let pid := match holder.pid with
    | some pid => [("pid", Nat.toDigits 10 pid.toNat)]
    | none => []
  Json.renderObject <|
    ("owner", Json.renderString holder.owner.toList) :: pid ++
      [("created_at", Json.renderString (Time.Stamp.render holder.createdAt))]

/-- The fields that were read so far. -/
structure Fields where
  owner : Option String
  pid : Option (Option UInt32)
  createdAt : Option Time.Instant
  deriving DecidableEq, Repr

def Fields.none : Fields := ⟨.none, .none, .none⟩

def Fields.toHolder (fields : Fields) : Outcome Holder :=
  match fields.owner, fields.createdAt with
  | .none, _ => .error (.missingField "owner")
  | .some _, .none => .error (.missingField "created_at")
  | .some owner, .some createdAt => .ok ⟨owner, fields.pid.getD .none, createdAt⟩

def readOwner : Reader String := fun text => do
  let (owner, rest) ← Json.readText "a string" text
  pure (String.ofList owner, rest)

def readPid : Reader (Option UInt32) := Json.readOptional Json.readUnsigned

def readCreatedAt : Reader Time.Instant := fun text => do
  let (stamp, rest) ← Json.readText "an RFC 3339 formatted date and time string" text
  match Time.Stamp.read stamp with
  | .ok instant => pure (instant, rest)
  | .error cause => misfit (.refused cause.message) rest

/-- The members of the object, one after another. The number bounds them. -/
def members : Nat → Bool → Fields → Reader (Outcome Holder)
  | 0, _, fields, text => .ok (fields.toHolder, text)
  | fuel + 1, first, fields, text => do
    match ← Json.nextMember first text with
    | (false, rest) => pure (fields.toHolder, rest)
    | (true, rest) =>
      let (key, rest) ← Json.readString (rest.drop 1)
      match String.ofList key with
      | "owner" =>
        if fields.owner.isSome then pure (.error (.duplicateField "owner"), rest)
        else
          let (owner, rest) ← readOwner (← Json.readColon rest)
          members fuel false { fields with owner := some owner } rest
      | "pid" =>
        if fields.pid.isSome then pure (.error (.duplicateField "pid"), rest)
        else
          let (pid, rest) ← readPid (← Json.readColon rest)
          members fuel false { fields with pid := some pid } rest
      | "created_at" =>
        if fields.createdAt.isSome then pure (.error (.duplicateField "created_at"), rest)
        else
          let (createdAt, rest) ← readCreatedAt (← Json.readColon rest)
          members fuel false { fields with createdAt := some createdAt } rest
      | _ =>
        let rest ← Json.skipValue (← Json.readColon rest)
        members fuel false fields rest

/-- The element of a list that has to have `length` elements before it. -/
def element {α : Type} (before : Nat) (read : Reader α) : Reader (Outcome α) := fun text => do
  match ← Json.nextElement (before == 0) text with
  | (false, rest) =>
    pure (.error (.wrongLength before "struct LockMetadata with 3 elements"), rest)
  | (true, rest) =>
    let (value, rest) ← read rest
    pure (.ok value, rest)

def elements : Reader (Outcome Holder) := fun text => do
  match ← element 0 readOwner text with
  | (.error cause, rest) => pure (.error cause, rest)
  | (.ok owner, rest) =>
    match ← element 1 readPid rest with
    | (.error cause, rest) => pure (.error cause, rest)
    | (.ok pid, rest) =>
      match ← element 2 readCreatedAt rest with
      | (.error cause, rest) => pure (.error cause, rest)
      | (.ok createdAt, rest) => pure (.ok ⟨owner, pid, createdAt⟩, rest)

def parse (text : List Char) : Except Failure Holder :=
  Json.readAll
    (Json.readRecord "struct LockMetadata" (members (text.length + 1) true Fields.none) elements)
    text

end Holder

end DirLock
