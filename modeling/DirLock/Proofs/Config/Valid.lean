import DirLock.Proofs.Config.Delay
import DirLock.Proofs.Config.RoundTrip
import DirLock.Proofs.Text.Utf8
import Mathlib.Data.List.Induction
import Mathlib.Tactic.SplitIfs

/-!
# Settings that make sense

Settings come out of a text, out of a file, or out of the defaults by setting one thing after another. What a
text or a file gives has been checked, and is refused as settings if it is refused. Setting things cannot give
a delay of zero; it can give a directory without a name, and does so only if that is what was set last.
-/

namespace DirLock.Config

open Disk (Path)

/-! ## Settings that were read -/

/-- The settings make sense, or were refused as settings. -/
def Checked : Except LockError Config → Prop
  | .ok config => config.validate = .ok ()
  | .error error => ∃ reason, error = .config reason

theorem checked_validate (config : Config) : Checked (do config.validate; pure config) := by
  rcases validate_cases config with hvalid | ⟨reason, hinvalid⟩
  · rw [hvalid]
    exact hvalid
  · rw [hinvalid]
    exact ⟨reason, rfl⟩

theorem checked_ofText (text : String) : Checked (ofText text) := by
  unfold ofText
  split_ifs
  · exact rfl
  · split
    · exact ⟨_, rfl⟩
    · exact checked_validate _

theorem checked_ofContent (path : Path) (content : Except Disk.Fault (List UInt8)) :
    Checked (ofContent path content) := by
  rcases content with fault | bytes
  · exact ⟨_, rfl⟩
  · unfold ofContent
    dsimp only
    split
    · exact ⟨_, rfl⟩
    · exact checked_ofText _

theorem ofContent_encode (path : Path) (text : String) :
    ofContent path (.ok (Text.utf8Encode text.toList)) = ofText text := by
  simp only [ofContent, Text.utf8Decode?_encode, String.ofList_toList]

/-! ## Settings that were made -/

inductive Setting where
  | delay (span : Time.Span)
  | scratch (dir : Path)
  deriving DecidableEq, Repr

/-- The settings with one thing set anew. -/
def set (config : Config) : Setting → Config
  | .delay span => config.withDelay span
  | .scratch dir => config.withScratch dir

/-- The defaults with these things set, one after the other. -/
def made (settings : List Setting) : Config := settings.foldl set default

def Setting.scratch? : Setting → Option Path
  | .delay _ => none
  | .scratch dir => some dir

def lastScratch (settings : List Setting) : Option Path := settings.reverse.findSome? Setting.scratch?

theorem made_concat (settings : List Setting) (setting : Setting) :
    made (settings ++ [setting]) = (made settings).set setting := by
  rw [made, List.foldl_append]
  rfl

theorem lastScratch_concat (settings : List Setting) (setting : Setting) :
    lastScratch (settings ++ [setting]) = setting.scratch?.or (lastScratch settings) := by
  rw [lastScratch, List.reverse_append, List.reverse_singleton, List.singleton_append, List.findSome?_cons]
  cases setting <;> rfl

theorem made_spec (settings : List Setting) :
    1 ≤ (made settings).waitDelay.toNat ∧ (made settings).scratch = lastScratch settings := by
  induction settings using List.reverseRecOn with
  | nil => exact ⟨by decide, rfl⟩
  | append_singleton settings setting ih =>
    obtain ⟨hdelay, hscratch⟩ := ih
    rw [made_concat, lastScratch_concat]
    cases setting with
    | delay span => exact ⟨one_le_withDelay _ _, hscratch⟩
    | scratch dir => exact ⟨hdelay, rfl⟩

theorem validate_eq_ok_iff {config : Config} :
    config.validate = .ok () ↔ 1 ≤ config.waitDelay.toNat ∧ config.scratch ≠ some .empty := by
  have hzero : config.waitDelay = 0 ↔ config.waitDelay.toNat = 0 := UInt64.toNat_inj.symm
  have hempty (dir : Path) : dir.isEmpty = true ↔ dir = .empty := by
    rw [Path.isEmpty, List.isEmpty_iff, Path.empty, Disk.Path.mk.injEq]
  rw [validate, Nat.one_le_iff_ne_zero, Ne, ← hzero]
  split_ifs with hdelay
  · simp [hdelay]
  · cases config.scratch with
    | none => simp [hdelay]
    | some dir =>
      dsimp only
      split_ifs with hdir
      · simp [(hempty dir).1 hdir]
      · simpa [hdelay] using mt (hempty dir).2 hdir

theorem validate_made_error_iff (settings : List Setting) :
    (∃ error, (made settings).validate = .error error) ↔ lastScratch settings = some .empty := by
  obtain ⟨hdelay, hscratch⟩ := made_spec settings
  rw [← hscratch]
  constructor
  · rintro ⟨error, herror⟩
    by_contra hdir
    rw [validate_eq_ok_iff.2 ⟨hdelay, hdir⟩] at herror
    cases herror
  · intro hdir
    obtain ⟨reason, hreason⟩ := (validate_cases (made settings)).resolve_left
      fun hvalid => (validate_eq_ok_iff.1 hvalid).2 hdir
    exact ⟨_, hreason⟩

end DirLock.Config
