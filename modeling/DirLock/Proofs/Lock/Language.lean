import DirLock.Proofs.Disk.Component
import DirLock.Proofs.Lock.Opened
import DirLock.Proofs.Text.Pattern

/-!
# The language of lock names

A text is a lock name if the pattern that users are shown is found in it. Since the pattern is tied to both ends
of the text, and its second run takes every character that its first one takes, these are the texts that start
with a lower-case letter and go on with letters, digits, dots and hyphens to their very end. Such a text is a
single plain name, so that a path it is appended to grows by one component and never leads elsewhere.
-/

namespace DirLock

open Disk (Path Place Tree Component)
open Text (CodeRange Finds readPieces)

/-- A lower-case letter, and then lower-case letters, digits, dots and hyphens up to the end of the text. -/
def IsNameText (text : List Char) : Prop :=
  ∃ c rest, text = c :: rest ∧ ('a' ≤ c ∧ c ≤ 'z') ∧
    ∀ d ∈ rest, ('a' ≤ d ∧ d ≤ 'z') ∨ ('0' ≤ d ∧ d ≤ '9') ∨ d = '.' ∨ d = '-'

theorem isNameStart_iff {c : Char} : isNameStart c = true ↔ 'a' ≤ c ∧ c ≤ 'z' := by
  rw [isNameStart, Bool.and_eq_true, decide_eq_true_eq, decide_eq_true_eq]

theorem isNameChar_iff {c : Char} :
    isNameChar c = true ↔ ('a' ≤ c ∧ c ≤ 'z') ∨ ('0' ≤ c ∧ c ≤ '9') ∨ c = '.' ∨ c = '-' := by
  simp only [isNameChar, Bool.or_eq_true, isNameStart_iff, Bool.and_eq_true, decide_eq_true_eq, beq_iff_eq, or_assoc]

theorem isLockName_iff {text : List Char} : isLockName text = true ↔ IsNameText text := by
  cases text with
  | nil => simp [isLockName, IsNameText]
  | cons c rest =>
    rw [isLockName, Bool.and_eq_true, List.all_eq_true, isNameStart_iff]
    simp only [isNameChar_iff]
    constructor
    · exact fun h => ⟨c, rest, rfl, h⟩
    · rintro ⟨d, more, heq, h⟩
      obtain ⟨rfl, rfl⟩ := List.cons.inj heq
      exact h

theorem validateName_eq_ok_iff {text : String} : (∃ name, validateName text = .ok name) ↔ IsNameText text.toList := by
  rw [← isLockName_iff, ← LockName.ofString?_isSome, validateName]
  cases LockName.ofString? text with
  | none => simp
  | some name => simp

theorem validateName_eq_error {text : String} (h : ¬ IsNameText text.toList) :
    validateName text = .error (.invalidName text LockName.pattern) := by
  rw [← isLockName_iff, ← LockName.ofString?_isSome, Option.not_isSome_iff_eq_none] at h
  rw [validateName, h]

/-! ## The pattern -/

namespace LockName

/-- The characters that may open a name. -/
def startRanges : List CodeRange := [('a'.toNat, 'z'.toNat)]

/-- The characters that may stand in a name. -/
def charRanges : List CodeRange :=
  [('a'.toNat, 'z'.toNat), ('0'.toNat, '9'.toNat), ('.'.toNat, '.'.toNat), ('-'.toNat, '-'.toNat)]

theorem readPieces_pattern :
    readPieces none pattern.toList = some [.start, .run startRanges 1, .run charRanges 0, .stop] := by
  decide

theorem covers_startRanges {c : Char} : CodeRange.covers startRanges c.toNat = true ↔ 'a' ≤ c ∧ c ≤ 'z' := by
  rw [CodeRange.covers_iff]
  simp [startRanges, Char.le_def, UInt32.le_iff_toNat_le]

theorem covers_charRanges {c : Char} : CodeRange.covers charRanges c.toNat = true ↔
    ('a' ≤ c ∧ c ≤ 'z') ∨ ('0' ≤ c ∧ c ≤ '9') ∨ c = '.' ∨ c = '-' := by
  have hone (d : Char) : d.toNat ≤ c.toNat ∧ c.toNat ≤ d.toNat ↔ c = d := by
    rw [← Char.toNat_inj]
    omega
  rw [CodeRange.covers_iff]
  simp only [charRanges, List.mem_cons, List.not_mem_nil, or_false, exists_eq_or_imp, exists_eq_left, hone,
    Char.le_def, UInt32.le_iff_toNat_le]
  rfl

theorem finds_pattern_iff (text : List Char) :
    (∃ pieces, readPieces none pattern.toList = some pieces ∧ Finds pieces text) ↔ IsNameText text := by
  have hpart : ∀ code, CodeRange.covers startRanges code = true → CodeRange.covers charRanges code = true := by
    intro code hcode
    obtain ⟨range, hrange, hcode⟩ := CodeRange.covers_iff.1 hcode
    exact CodeRange.covers_iff.2 ⟨range, List.mem_of_mem_take (i := 1) hrange, hcode⟩
  rw [readPieces_pattern]
  simp only [Option.some.injEq, exists_eq_left']
  rw [Text.finds_anchored, Text.runs_iff hpart, IsNameText]
  simp only [covers_startRanges, covers_charRanges]

end LockName

/-! ## Paths -/

/-- The name is accepted and makes paths safe: appended to a path it is one more component, a name, so that the
longer path is never the other one, has it as its parent, and names an entry of the directory that the other one
leads to. -/
structure LockName.IsSafe (name : LockName) (parent : Path) : Prop where
  components : (parent.join name.toPath).components = parent.components ++ [.normal name.bytes]
  ne_parent : parent.join name.toPath ≠ parent
  above : ∃ above, (parent.join name.toPath).parent? = some above ∧ above.components = parent.components
  inside : ∀ (tree : Tree) (cwd dir : Place), tree.LeadsTo cwd parent dir →
    tree.Names cwd (parent.join name.toPath) dir name.bytes
  apart : ∀ other : LockName, other.text ≠ name.text → parent.join other.toPath ≠ parent.join name.toPath ∧
    (parent.join other.toPath).components ≠ (parent.join name.toPath).components

theorem LockName.isSafe (name : LockName) (parent : Path) : name.IsSafe parent where
  components := Path.components_join name.isName parent
  ne_parent := by
    intro heq
    have hcomponents := Path.components_join name.isName parent
    rw [show parent.join ⟨name.bytes⟩ = parent from heq] at hcomponents
    simpa using congrArg List.length hcomponents
  above := Path.parent?_join name.isName parent
  inside := fun tree cwd dir hleads => hleads.names_join name.isName
  apart := by
    intro other hother
    have hcomponents : (parent.join other.toPath).components ≠ (parent.join name.toPath).components := by
      intro heq
      rw [show other.toPath = ⟨other.bytes⟩ from rfl, show name.toPath = ⟨name.bytes⟩ from rfl,
        Path.components_join other.isName, Path.components_join name.isName] at heq
      obtain ⟨hsame, -⟩ := List.cons.inj (List.append_cancel_left heq)
      exact hother (congrArg LockName.text (LockName.bytes_injective (Component.normal.inj hsame)))
    exact ⟨fun heq => hcomponents (congrArg Path.components heq), hcomponents⟩

/-- A text is accepted exactly if it is a lower-case letter followed by lower-case letters, digits, dots and
hyphens to its very end, which are the texts that the pattern shown to users is found in. Any other text is
refused, and the error carries it as it was given. Every name that is accepted makes paths safe. -/
theorem validateName_exact (text : String) :
    ((∃ name, validateName text = .ok name) ↔ IsNameText text.toList) ∧
    ((∃ pieces, readPieces none LockName.pattern.toList = some pieces ∧ Finds pieces text.toList) ↔
      IsNameText text.toList) ∧
    (¬ IsNameText text.toList → validateName text = .error (.invalidName text LockName.pattern)) ∧
    ∀ name, validateName text = .ok name → name.text = text ∧ ∀ parent, name.IsSafe parent :=
  ⟨validateName_eq_ok_iff, LockName.finds_pattern_iff text.toList, validateName_eq_error,
    fun name hname => ⟨text_of_validateName hname, name.isSafe⟩⟩

/-- A name with a hyphen, a dot and a digit is accepted, and safe below a path that says the same place twice. -/
theorem validateName_exact_dotted :
    ∃ name, validateName "a-b.c2" = .ok name ∧ name.IsSafe (.ofString "p/./") ∧
      ((Path.ofString "p/./").join name.toPath).components = [.normal [0x70], .normal (Text.bytesOf "a-b.c2")] := by
  have hname : validateName "a-b.c2" = .ok ⟨"a-b.c2", by decide⟩ := by decide
  obtain ⟨-, -, -, haccepted⟩ := validateName_exact "a-b.c2"
  obtain ⟨htext, hsafe⟩ := haccepted _ hname
  exact ⟨_, hname, hsafe _, (hsafe _).components⟩

/-- A line feed at the end is part of the text, and not of the language. -/
example : validateName "a\n" = .error (.invalidName "a\n" LockName.pattern) := by decide

end DirLock
