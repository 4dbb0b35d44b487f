import DirLock.Text.Hex
import DirLock.Text.Utf8
import Mathlib.Tactic.IntervalCases

/-!
# Plain text

Characters below 128 are one byte each, so a text of them is as long as its bytes and can be read
back from them. Hexadecimal digits are such characters, and the bytes can be read back from them.
-/

namespace DirLock.Text

/-- What a test finds of every character of a text. A statement about the characters of a literal is
decided one character after the other through it. -/
theorem forall_of_all {p : Char → Prop} [DecidablePred p] {text : List Char}
    (h : text.all (fun c => decide (p c)) = true) : ∀ c ∈ text, p c := by
  intro c hc
  exact of_decide_eq_true (List.all_eq_true.1 h c hc)

theorem all_of_forall {p : Char → Prop} [DecidablePred p] {text : List Char} (h : ∀ c ∈ text, p c) :
    (text.all fun c => decide (p c)) = true :=
  List.all_eq_true.2 fun c hc => decide_eq_true (h c hc)

def IsPlain (text : List Char) : Prop := ∀ c ∈ text, c.toNat < 128

theorem IsPlain.append {a b : List Char} (ha : IsPlain a) (hb : IsPlain b) : IsPlain (a ++ b) := by
  intro c hc
  rcases List.mem_append.1 hc with h | h
  · exact ha c h
  · exact hb c h

theorem utf8EncodeChar_of_lt {c : Char} (h : c.toNat < 128) :
    String.utf8EncodeChar c = [UInt8.ofNat c.toNat] := by
  have hle : c.val.toNat ≤ 127 := by
    have : c.toNat = c.val.toNat := rfl
    omega
  simp only [String.utf8EncodeChar, hle, if_true]
  rfl

theorem utf8Encode_of_isPlain {text : List Char} (h : IsPlain text) :
    utf8Encode text = text.map fun c => UInt8.ofNat c.toNat := by
  induction text with
  | nil => rfl
  | cons c text ih =>
    have htail : IsPlain text := fun d hd => h d (List.mem_cons_of_mem _ hd)
    have hcons : utf8Encode (c :: text) = String.utf8EncodeChar c ++ utf8Encode text := rfl
    rw [hcons, utf8EncodeChar_of_lt (h c List.mem_cons_self), ih htail]
    rfl

theorem ofNat_toNat_injective {c d : Char} (hc : c.toNat < 128) (hd : d.toNat < 128)
    (h : UInt8.ofNat c.toNat = UInt8.ofNat d.toNat) : c = d := by
  have hval := congrArg UInt8.toNat h
  simp only [UInt8.toNat_ofNat'] at hval
  rw [Nat.mod_eq_of_lt (by omega), Nat.mod_eq_of_lt (by omega)] at hval
  exact Char.toNat_inj.1 hval

theorem utf8Encode_injective {a b : List Char} (ha : IsPlain a) (hb : IsPlain b)
    (h : utf8Encode a = utf8Encode b) : a = b := by
  rw [utf8Encode_of_isPlain ha, utf8Encode_of_isPlain hb] at h
  induction a generalizing b with
  | nil => simpa using h.symm
  | cons c a ih =>
    cases b with
    | nil => simp at h
    | cons d b =>
      simp only [List.map_cons, List.cons.injEq] at h
      have hcd := ofNat_toNat_injective (ha c List.mem_cons_self) (hb d List.mem_cons_self) h.1
      have hrest := ih (fun x hx => ha x (List.mem_cons_of_mem _ hx))
        (fun x hx => hb x (List.mem_cons_of_mem _ hx)) h.2
      rw [hcd, hrest]

theorem mem_utf8Encode {text : List Char} (h : IsPlain text) {c : Char} (hc : c.toNat < 128) :
    UInt8.ofNat c.toNat ∈ utf8Encode text ↔ c ∈ text := by
  rw [utf8Encode_of_isPlain h, List.mem_map]
  constructor
  · rintro ⟨d, hd, heq⟩
    rwa [← ofNat_toNat_injective (h d hd) hc heq]
  · exact fun hmem => ⟨c, hmem, rfl⟩

theorem length_utf8Encode {text : List Char} (h : IsPlain text) :
    (utf8Encode text).length = text.length := by
  rw [utf8Encode_of_isPlain h, List.length_map]

/-! ## Hexadecimal digits -/

theorem hexDigit_mem {value : Nat} (h : value < 16) : hexDigit value ∈ "0123456789abcdef".toList := by
  interval_cases value <;> decide

theorem hexDigit_injective {a b : Nat} (ha : a < 16) (hb : b < 16)
    (h : hexDigit a = hexDigit b) : a = b := by
  interval_cases a <;> interval_cases b <;> first | rfl | exact absurd h (by decide)

theorem mem_hexBytes {bytes : List UInt8} {c : Char} (h : c ∈ hexBytes bytes) :
    c ∈ "0123456789abcdef".toList := by
  obtain ⟨b, -, hc⟩ := List.mem_flatMap.1 h
  have hb := b.toNat_lt
  simp only [hexByte, List.mem_cons, List.not_mem_nil, or_false] at hc
  rcases hc with rfl | rfl
  · exact hexDigit_mem (by omega)
  · exact hexDigit_mem (by omega)

theorem hexBytes_injective {a b : List UInt8} (h : hexBytes a = hexBytes b) : a = b := by
  induction a generalizing b with
  | nil =>
    cases b with
    | nil => rfl
    | cons y b => simp [hexBytes, hexByte] at h
  | cons x a ih =>
    cases b with
    | nil => simp [hexBytes, hexByte] at h
    | cons y b =>
      have hcons : ∀ (z : UInt8) (l : List UInt8), hexBytes (z :: l) =
          hexDigit (z.toNat / 16) :: hexDigit (z.toNat % 16) :: hexBytes l := fun _ _ => rfl
      rw [hcons, hcons, List.cons.injEq, List.cons.injEq] at h
      have hx := x.toNat_lt
      have hy := y.toNat_lt
      have hhigh := hexDigit_injective (by omega) (by omega) h.1
      have hlow := hexDigit_injective (by omega) (by omega) h.2.1
      have hxy : x = y := UInt8.toNat_inj.1 (by omega)
      rw [hxy, ih h.2.2]

end DirLock.Text
