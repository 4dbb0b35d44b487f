import DirLock.Text.CodeRange

/-!
# Patterns

A small language of patterns: the start of the text, its end, and runs of characters out of a set. A pattern is
found in a text if it matches some part of it, so that only anchors tie it to the ends of the text. The end is
the very end, also where the last character is a line feed.
-/

namespace DirLock.Text

inductive Piece where
  /-- The start of the text. -/
  | start
  /-- The end of the text. -/
  | stop
  /-- At least so many characters that lie in the ranges. -/
  | run (ranges : List CodeRange) (least : Nat)
  deriving DecidableEq, Repr

namespace Piece

/-- The piece matches what is taken, between what comes before it in the text and what comes after it. -/
def Matches (before taken after : List Char) : Piece → Prop
  | start => before = [] ∧ taken = []
  | stop => after = [] ∧ taken = []
  | run ranges least => least ≤ taken.length ∧ ∀ c ∈ taken, CodeRange.covers ranges c.toNat = true

end Piece

/-- The pieces match, one after the other, what is taken. -/
def PiecesMatch (before taken after : List Char) : List Piece → Prop
  | [] => taken = []
  | piece :: pieces => ∃ first rest, taken = first ++ rest ∧ piece.Matches before first (rest ++ after) ∧
      PiecesMatch (before ++ first) rest after pieces

def Finds (pieces : List Piece) (text : List Char) : Prop :=
  ∃ before taken after, text = before ++ taken ++ after ∧ PiecesMatch before taken after pieces

/-- Read a pattern. Inside a bracket, the ranges so far are given, latest first. -/
def readPieces : Option (List CodeRange) → List Char → Option (List Piece)
  | none, [] => some []
  | none, '^' :: rest => (readPieces none rest).map (Piece.start :: ·)
  | none, '$' :: rest => (readPieces none rest).map (Piece.stop :: ·)
  | none, '[' :: rest => readPieces (some []) rest
  | none, _ :: _ => none
  | some _, [] => none
  | some ranges, ']' :: '+' :: rest => (readPieces none rest).map (Piece.run ranges.reverse 1 :: ·)
  | some ranges, ']' :: '*' :: rest => (readPieces none rest).map (Piece.run ranges.reverse 0 :: ·)
  | some _, ']' :: _ => none
  | some ranges, low :: '-' :: high :: rest =>
    if high = ']' then readPieces (some ((low.toNat, low.toNat) :: ranges)) ('-' :: high :: rest)
    else readPieces (some ((low.toNat, high.toNat) :: ranges)) rest
  | some ranges, c :: rest => readPieces (some ((c.toNat, c.toNat) :: ranges)) rest

theorem finds_anchored (first second : List CodeRange) (few many : Nat) (text : List Char) :
    Finds [.start, .run first few, .run second many, .stop] text ↔
      ∃ front back, text = front ++ back ∧ (few ≤ front.length ∧ ∀ c ∈ front, CodeRange.covers first c.toNat = true) ∧
        many ≤ back.length ∧ ∀ c ∈ back, CodeRange.covers second c.toNat = true := by
  constructor
  · rintro ⟨before, taken, after, rfl, nothing, rest, rfl, ⟨rfl, rfl⟩, front, rest, rfl, hfront, back, rest, rfl, hback,
      end_, rest, rfl, ⟨hend, rfl⟩, rfl⟩
    obtain rfl : after = [] := by simpa using hend
    exact ⟨front, back, by simp, hfront, hback⟩
  · rintro ⟨front, back, rfl, hfront, hback⟩
    exact ⟨[], front ++ back, [], by simp, [], _, rfl, ⟨rfl, rfl⟩, front, back, rfl, hfront, back, [], by simp, hback,
      [], [], rfl, ⟨rfl, rfl⟩, rfl⟩

/-- Where one set is part of the other, a run of at least one of it and then any run of the other is a text that
starts in the one and goes on in the other. -/
theorem runs_iff {first second : List CodeRange}
    (hpart : ∀ code, CodeRange.covers first code = true → CodeRange.covers second code = true) {text : List Char} :
    (∃ front back, text = front ++ back ∧ (1 ≤ front.length ∧ ∀ c ∈ front, CodeRange.covers first c.toNat = true) ∧
        0 ≤ back.length ∧ ∀ c ∈ back, CodeRange.covers second c.toNat = true) ↔
      ∃ c rest, text = c :: rest ∧ CodeRange.covers first c.toNat = true ∧
        ∀ d ∈ rest, CodeRange.covers second d.toNat = true := by
  constructor
  · rintro ⟨front, back, rfl, ⟨hlong, hfront⟩, -, hback⟩
    cases front with
    | nil => simp at hlong
    | cons c front =>
      refine ⟨c, front ++ back, rfl, hfront c List.mem_cons_self, fun d hd => ?_⟩
      rcases List.mem_append.1 hd with hd | hd
      · exact hpart _ (hfront d (List.mem_cons_of_mem c hd))
      · exact hback d hd
  · rintro ⟨c, rest, rfl, hc, hrest⟩
    exact ⟨[c], rest, rfl, ⟨Nat.le_refl _, by simpa using hc⟩, Nat.zero_le _, hrest⟩

end DirLock.Text
