import DirLock.Text.Quoted

/-!
# Values that do not fit

A record is read field by field. When the value found is not one that the field takes, the message
names the value as it was written and what was expected in its place.
-/

namespace DirLock.Data

inductive Found where
  | boolean (value : Bool)
  | integer (value : Int)
  | wideUnsigned (value : Nat)
  | wideSigned (value : Int)
  | float (written : String)
  | text (value : String)
  | null
  | unit
  | sequence
  | map
  deriving DecidableEq, Repr

def Found.describe : Found → String
  | .boolean value => if value then "boolean `true`" else "boolean `false`"
  | .integer value => s!"integer `{value}`"
  | .wideUnsigned value => s!"integer `{value}` as u128"
  | .wideSigned value => s!"integer `{value}` as i128"
  | .float written => s!"floating point `{written}`"
  | .text value => s!"string {Text.quoted value}"
  | .null => "null"
  | .unit => "unit value"
  | .sequence => "sequence"
  | .map => "map"

/-- How a value misses what the record asks for. -/
inductive Mismatch where
  /-- A value of another type. -/
  | wrongType (found : Found) (expected : String)
  /-- A value of the right type that is not allowed. -/
  | wrongValue (found : Found) (expected : String)
  /-- A sequence with too few elements. -/
  | wrongLength (length : Nat) (expected : String)
  /-- A field that must be there is not. -/
  | missingField (name : String)
  /-- A field stands there twice. -/
  | duplicateField (name : String)
  /-- The field refuses the value for a reason of its own. -/
  | refused (reason : String)
  deriving DecidableEq, Repr

def Mismatch.message : Mismatch → String
  | .wrongType found expected => s!"invalid type: {found.describe}, expected {expected}"
  | .wrongValue found expected => s!"invalid value: {found.describe}, expected {expected}"
  | .wrongLength length expected => s!"invalid length {length}, expected {expected}"
  | .missingField name => s!"missing field `{name}`"
  | .duplicateField name => s!"duplicate field `{name}`"
  | .refused reason => reason

end DirLock.Data
