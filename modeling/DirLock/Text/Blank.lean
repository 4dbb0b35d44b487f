/-!
# Blank characters

The Unicode property White_Space, and text without the blanks around it.
-/

namespace DirLock.Text

def isBlank (c : Char) : Bool :=
  let code := c.toNat
  (0x09 ≤ code && code ≤ 0x0d) || code == 0x20 || code == 0x85 || code == 0xa0 || code == 0x1680 ||
    (0x2000 ≤ code && code ≤ 0x200a) || code == 0x2028 || code == 0x2029 || code == 0x202f ||
    code == 0x205f || code == 0x3000

def skipBlanks (text : List Char) : List Char :=
  text.dropWhile isBlank

/-- The text without the blanks at either end. -/
def trimmed (text : List Char) : List Char :=
  (skipBlanks (skipBlanks text).reverse).reverse

theorem mem_skipBlanks {c : Char} {text : List Char} (hc : c ∈ text) (hblank : isBlank c = false) :
    c ∈ skipBlanks text := by
  rw [skipBlanks]
  induction text with
  | nil => exact hc
  | cons d text ih =>
    rw [List.dropWhile_cons]
    cases hd : isBlank d with
    | true =>
      rcases List.mem_cons.1 hc with rfl | hc
      · exact absurd (hblank.symm.trans hd) Bool.false_ne_true
      · exact ih hc
    | false => exact hc

/-- Only blanks are trimmed. -/
theorem mem_trimmed {c : Char} {text : List Char} (hc : c ∈ text) (hblank : isBlank c = false) :
    c ∈ trimmed text :=
  List.mem_reverse.2 (mem_skipBlanks (List.mem_reverse.2 (mem_skipBlanks hc hblank)) hblank)

end DirLock.Text
