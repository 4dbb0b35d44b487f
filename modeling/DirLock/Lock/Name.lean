import DirLock.Disk.Path

/-!
# Lock names

A name is an ASCII lower-case letter followed by lower-case letters, digits, dots and hyphens, so
that it is a single name in a directory and never one that means another directory.
-/

namespace DirLock

/-- Whether the character may open a name. -/
def isNameStart (c : Char) : Bool := 'a' ≤ c && c ≤ 'z'

/-- Whether the character may stand in a name. -/
def isNameChar (c : Char) : Bool := isNameStart c || ('0' ≤ c && c ≤ '9') || c == '.' || c == '-'

def isLockName : List Char → Bool
  | [] => false
  | c :: rest => isNameStart c && rest.all isNameChar

structure LockName where
  text : String
  valid : isLockName text.toList = true
  deriving DecidableEq

namespace LockName

/-- The pattern that names match, as shown to users. -/
def pattern : String := "^[a-z]+[a-z0-9.-]*$"

def ofString? (text : String) : Option LockName :=
  if h : isLockName text.toList = true then some ⟨text, h⟩ else none

def toPath (name : LockName) : Disk.Path := .ofString name.text

theorem ofString?_isSome (text : String) :
    (ofString? text).isSome = isLockName text.toList := by
  unfold ofString?
  split <;> simp_all

end LockName

end DirLock
