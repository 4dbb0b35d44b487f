import DirLock.Lock.Staging
import DirLock.Proofs.Disk.Name
import DirLock.Proofs.Text.Plain

/-!
# The names of claims

Claims, staging directories and released claims are entries of directories, each under a single plain
name. A lock name never starts with a dot and the others always do; a released claim's name is longer
than any staging directory's; and the nonce can be read back from both. So no two of these names are
ever the same unless they are meant to be.
-/

namespace DirLock

open Disk (Name Path)

/-- What stands at the end of a staging directory's name: six letters or digits. -/
def IsSuffix (suffix : List Char) : Prop := suffix.length = 6 ∧ ∀ c ∈ suffix, c.isAlphanum = true

namespace Nonce

def releasedText (nonce : Nonce) : List Char := '.' :: (nonce.hex ++ ".released".toList)

def stagingText (nonce : Nonce) (suffix : List Char) : List Char :=
  '.' :: (nonce.hex ++ '.' :: suffix)

def releasedName (nonce : Nonce) : Name := Text.utf8Encode nonce.releasedText

def stagingName (nonce : Nonce) (suffix : List Char) : Name :=
  Text.utf8Encode (nonce.stagingText suffix)

end Nonce

def LockName.bytes (name : LockName) : Name := Text.bytesOf name.text

namespace Lock

theorem claimDir_eq (lock : Lock) : lock.claimDir = lock.parent.join ⟨lock.name.bytes⟩ := rfl

theorem releasedDir_eq (lock : Lock) :
    lock.releasedDir = lock.parent.join ⟨lock.nonce.releasedName⟩ := by
  have hbytes : Text.bytesOf ("." ++ String.ofList lock.nonce.hex ++ ".released") =
      lock.nonce.releasedName := by
    simp [Text.bytesOf, Nonce.releasedName, Nonce.releasedText]
  rw [releasedDir, Path.ofString, hbytes]

theorem stagingName_eq (lock : Lock) (suffix : List Char) :
    lock.stagingName suffix = ⟨lock.nonce.stagingName suffix⟩ := by
  have hbytes : Text.bytesOf ("." ++ String.ofList lock.nonce.hex ++ "." ++ String.ofList suffix) =
      lock.nonce.stagingName suffix := by
    simp [Text.bytesOf, Nonce.stagingName, Nonce.stagingText]
  rw [stagingName, Path.ofString, hbytes]

end Lock

/-! ## All are plain -/

/-- The character takes one byte, separates no names and ends no text. -/
def IsNamePart (c : Char) : Prop := c.toNat < 128 ∧ c ≠ '/' ∧ c ≠ Char.ofNat 0

instance (c : Char) : Decidable (IsNamePart c) := inferInstanceAs (Decidable (_ ∧ _))

theorem isNamePart_of_mem_suffix {suffix : List Char} (h : IsSuffix suffix) {c : Char}
    (hc : c ∈ suffix) : IsNamePart c := by
  have halnum := h.2 c hc
  change ((decide ('A'.val ≤ c.val ∧ c.val ≤ 'Z'.val) ||
    (decide ('a'.val ≤ c.val) && decide (c.val ≤ 'z'.val))) ||
      (decide ('0'.val ≤ c.val) && decide (c.val ≤ '9'.val))) = true at halnum
  simp only [Bool.or_eq_true, Bool.and_eq_true, decide_eq_true_eq, UInt32.le_iff_toNat_le] at halnum
  change ((65 ≤ c.toNat ∧ c.toNat ≤ 90) ∨ (97 ≤ c.toNat ∧ c.toNat ≤ 122)) ∨
    (48 ≤ c.toNat ∧ c.toNat ≤ 57) at halnum
  refine ⟨by omega, ?_, ?_⟩
  · rintro rfl
    revert halnum
    decide
  · rintro rfl
    revert halnum
    decide

theorem isNamePart_of_mem_hex {nonce : Nonce} {c : Char} (hc : c ∈ nonce.hex) : IsNamePart c := by
  have hdigits : ∀ d ∈ "0123456789abcdef".toList, IsNamePart d := Text.forall_of_all (by decide)
  exact hdigits c (Text.mem_hexBytes hc)

theorem isNamePart_of_isNameChar {c : Char} (h : isNameChar c = true) : IsNamePart c := by
  simp only [isNameChar, isNameStart, Bool.or_eq_true, Bool.and_eq_true, decide_eq_true_eq,
    beq_iff_eq, Char.le_def, UInt32.le_iff_toNat_le] at h
  change (((97 ≤ c.toNat ∧ c.toNat ≤ 122) ∨ (48 ≤ c.toNat ∧ c.toNat ≤ 57)) ∨ c = '.') ∨
    c = '-' at h
  rcases h with ((h | h) | rfl) | rfl
  · refine ⟨by omega, ?_, ?_⟩
    · rintro rfl
      revert h
      decide
    · rintro rfl
      revert h
      decide
  · refine ⟨by omega, ?_, ?_⟩
    · rintro rfl
      revert h
      decide
    · rintro rfl
      revert h
      decide
  · decide
  · decide

theorem isPlain_of_isNamePart {text : List Char} (h : ∀ c ∈ text, IsNamePart c) :
    Text.IsPlain text := fun c hc => (h c hc).1

theorem Nonce.isNamePart_releasedText (nonce : Nonce) : ∀ c ∈ nonce.releasedText, IsNamePart c := by
  intro c hc
  rw [releasedText, List.mem_cons, List.mem_append] at hc
  have hend : ∀ d ∈ ".released".toList, IsNamePart d := Text.forall_of_all (by decide)
  rcases hc with rfl | hc | hc
  · decide
  · exact isNamePart_of_mem_hex hc
  · exact hend c hc

theorem Nonce.isNamePart_stagingText (nonce : Nonce) {suffix : List Char} (h : IsSuffix suffix) :
    ∀ c ∈ nonce.stagingText suffix, IsNamePart c := by
  intro c hc
  rw [stagingText, List.mem_cons, List.mem_append, List.mem_cons] at hc
  rcases hc with rfl | hc | rfl | hc
  · decide
  · exact isNamePart_of_mem_hex hc
  · decide
  · exact isNamePart_of_mem_suffix h hc

theorem LockName.isNamePart (name : LockName) : ∀ c ∈ name.text.toList, IsNamePart c := by
  have hvalid := name.valid
  intro c hc
  cases htext : name.text.toList with
  | nil => simp [htext] at hc
  | cons first rest =>
    rw [htext] at hvalid hc
    simp only [isLockName, Bool.and_eq_true, List.all_eq_true] at hvalid
    rcases List.mem_cons.1 hc with rfl | hc
    · exact isNamePart_of_isNameChar (by simp [isNameChar, hvalid.1])
    · exact isNamePart_of_isNameChar (hvalid.2 c hc)

/-! ## All are names -/

theorem isName_utf8Encode (text : List Char) (h : ∀ c ∈ text, IsNamePart c) {c : Char}
    (hc : c ∈ text) (hdot : c ≠ '.') : Path.IsName (Text.utf8Encode text) := by
  have hplain := isPlain_of_isNamePart h
  have hmem := (Text.mem_utf8Encode hplain (h c hc).1).2 hc
  have hbyte : ∀ {d : Char}, d.toNat < 128 → UInt8.ofNat c.toNat = UInt8.ofNat d.toNat → c = d :=
    fun hd => Text.ofNat_toNat_injective (h c hc).1 hd
  refine ⟨?_, ?_, ?_, ?_, ?_⟩
  · exact List.ne_nil_of_mem hmem
  · intro hslash
    exact (h '/' ((Text.mem_utf8Encode hplain (by decide)).1 hslash)).2.1 rfl
  · intro hzero
    exact (h (Char.ofNat 0) ((Text.mem_utf8Encode hplain (by decide)).1 hzero)).2.2 rfl
  · intro heq
    rw [heq] at hmem
    exact hdot (hbyte (d := '.') (by decide) (by simpa [Path.dot] using hmem))
  · intro heq
    rw [heq] at hmem
    exact hdot (hbyte (d := '.') (by decide) (by simpa [Path.dotDot] using hmem))

theorem LockName.isName (name : LockName) : Path.IsName name.bytes := by
  have hvalid := name.valid
  cases htext : name.text.toList with
  | nil => simp [htext, isLockName] at hvalid
  | cons first rest =>
    rw [htext] at hvalid
    simp only [isLockName, Bool.and_eq_true] at hvalid
    apply isName_utf8Encode _ name.isNamePart (c := first) (by simp [htext])
    rintro rfl
    exact absurd hvalid.1 (by decide)

theorem Nonce.isName_releasedName (nonce : Nonce) : Path.IsName nonce.releasedName :=
  isName_utf8Encode _ nonce.isNamePart_releasedText (c := 'd') (by simp [releasedText]) (by decide)

theorem Nonce.isName_stagingName (nonce : Nonce) {suffix : List Char} (h : IsSuffix suffix) :
    Path.IsName (nonce.stagingName suffix) := by
  obtain ⟨c, hc⟩ := List.exists_mem_of_length_pos (l := suffix) (by rw [h.1]; decide)
  apply isName_utf8Encode _ (nonce.isNamePart_stagingText h) (c := c) (by simp [stagingText, hc])
  rintro rfl
  exact absurd (h.2 _ hc) (by decide)

def heldBytes : Name := Text.bytesOf "held"

def holderBytes : Name := Text.bytesOf "info.json"

theorem isName_heldBytes : Path.IsName heldBytes :=
  isName_utf8Encode "held".toList (Text.forall_of_all (by decide)) (c := 'h') (by decide) (by decide)

theorem isName_holderBytes : Path.IsName holderBytes :=
  isName_utf8Encode "info.json".toList (Text.forall_of_all (by decide)) (c := 'i') (by decide) (by decide)

theorem heldBytes_lt_holderBytes : heldBytes < holderBytes := by decide

theorem heldBytes_ne_holderBytes : heldBytes ≠ holderBytes := by decide

/-! ## None is another -/

theorem Nonce.length_releasedName (nonce : Nonce) : nonce.releasedName.length = 50 := by
  rw [releasedName, Text.length_utf8Encode (isPlain_of_isNamePart nonce.isNamePart_releasedText)]
  simp [releasedText, nonce.length_hex]

theorem Nonce.length_stagingName (nonce : Nonce) {suffix : List Char} (h : IsSuffix suffix) :
    (nonce.stagingName suffix).length = 48 := by
  rw [stagingName, Text.length_utf8Encode (isPlain_of_isNamePart (nonce.isNamePart_stagingText h))]
  simp [stagingText, nonce.length_hex, h.1]

theorem Nonce.eq_of_bytes {nonce other : Nonce} (h : nonce.bytes = other.bytes) : nonce = other := by
  obtain ⟨bytes, hlength⟩ := nonce
  obtain ⟨bytes', hlength'⟩ := other
  have hbytes : bytes = bytes' := h
  subst hbytes
  rfl

theorem Nonce.releasedName_injective {nonce other : Nonce}
    (h : nonce.releasedName = other.releasedName) : nonce = other := by
  have htext := Text.utf8Encode_injective (isPlain_of_isNamePart nonce.isNamePart_releasedText)
    (isPlain_of_isNamePart other.isNamePart_releasedText) h
  have hhex : nonce.hex = other.hex :=
    (List.append_inj (List.cons.inj htext).2 (by simp [length_hex])).1
  exact eq_of_bytes (Text.hexBytes_injective hhex)

theorem Nonce.stagingName_injective {nonce other : Nonce} {suffix suffix' : List Char}
    (hs : IsSuffix suffix) (hs' : IsSuffix suffix')
    (h : nonce.stagingName suffix = other.stagingName suffix') : nonce = other := by
  have htext := Text.utf8Encode_injective (isPlain_of_isNamePart (nonce.isNamePart_stagingText hs))
    (isPlain_of_isNamePart (other.isNamePart_stagingText hs')) h
  have hhex : nonce.hex = other.hex :=
    (List.append_inj (List.cons.inj htext).2 (by simp [length_hex])).1
  exact eq_of_bytes (Text.hexBytes_injective hhex)

theorem Nonce.releasedName_ne_stagingName (nonce other : Nonce) {suffix : List Char}
    (h : IsSuffix suffix) : nonce.releasedName ≠ other.stagingName suffix := by
  intro heq
  have hlength := congrArg List.length heq
  rw [length_releasedName, length_stagingName _ h] at hlength
  exact absurd hlength (by decide)

theorem LockName.bytes_injective {name other : LockName} (h : name.bytes = other.bytes) : name = other := by
  obtain ⟨text, hvalid⟩ := name
  obtain ⟨text', hvalid'⟩ := other
  have htext := Text.utf8Encode_injective (isPlain_of_isNamePart (LockName.isNamePart ⟨text, hvalid⟩))
    (isPlain_of_isNamePart (LockName.isNamePart ⟨text', hvalid'⟩)) h
  obtain rfl := String.toList_injective htext
  rfl

theorem LockName.bytes_ne_utf8Encode (name : LockName) {text : List Char}
    (htext : ∀ c ∈ '.' :: text, IsNamePart c) : name.bytes ≠ Text.utf8Encode ('.' :: text) := by
  intro heq
  have hvalid := name.valid
  rw [Text.utf8Encode_injective (isPlain_of_isNamePart name.isNamePart)
    (isPlain_of_isNamePart htext) heq] at hvalid
  simp only [isLockName, Bool.and_eq_true] at hvalid
  exact absurd hvalid.1 (by decide)

theorem LockName.bytes_ne_releasedName (name : LockName) (nonce : Nonce) :
    name.bytes ≠ nonce.releasedName :=
  name.bytes_ne_utf8Encode nonce.isNamePart_releasedText

theorem LockName.bytes_ne_stagingName (name : LockName) (nonce : Nonce) {suffix : List Char}
    (h : IsSuffix suffix) : name.bytes ≠ nonce.stagingName suffix :=
  name.bytes_ne_utf8Encode (nonce.isNamePart_stagingText h)

end DirLock
