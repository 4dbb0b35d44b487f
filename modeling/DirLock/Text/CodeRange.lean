/-!
# Ranges of code points

A property of characters is kept as a sorted list of closed ranges of code points.
-/

namespace DirLock.Text

/-- A closed range of code points, first and last. -/
abbrev CodeRange := Nat × Nat

/-- Whether a code point lies in one of the ranges. -/
def CodeRange.covers (ranges : List CodeRange) (code : Nat) : Bool :=
  ranges.any fun range => range.1 ≤ code && code ≤ range.2

theorem CodeRange.covers_iff {ranges : List CodeRange} {code : Nat} :
    CodeRange.covers ranges code = true ↔ ∃ r ∈ ranges, r.1 ≤ code ∧ code ≤ r.2 := by
  simp [CodeRange.covers]

end DirLock.Text
