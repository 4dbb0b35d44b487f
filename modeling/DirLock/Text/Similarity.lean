/-!
# Similar words

How alike two words are: the share of the letters of each that have a partner in the other not far
from their own place, and the share of the partners that stand in the same order. The similarity is
a fraction between zero and one, the mean of the three shares.
-/

namespace DirLock.Text

structure Ratio where
  num : Nat
  den : Nat
  deriving Repr

namespace Ratio

/-- Whether the first fraction is less than the second. -/
def less (a b : Ratio) : Bool := a.num * b.den < b.num * a.den

end Ratio

/-- The first of the letters that is the given one and has no partner yet, with its place between
two bounds. -/
def freePartner? (letter : Char) (low high : Nat) (letters : List Char) (taken : List Nat) :
    Option Nat :=
  (List.range letters.length).find? fun place =>
    low ≤ place && place < high && letters[place]? == some letter && !taken.contains place

/-- Give letters partners, one after the other: each the first that is free and less than `reach`
places away. The pairs of places are given. -/
def partners (reach : Nat) (second : List Char) :
    Nat → List Char → List Nat → List (Nat × Nat)
  | _, [], _ => []
  | place, letter :: rest, taken =>
    match freePartner? letter (place + 1 - reach) (place + reach) second taken with
    | none => partners reach second (place + 1) rest taken
    | some other => (place, other) :: partners reach second (place + 1) rest (other :: taken)

def similarity (first second : List Char) : Ratio :=
  if first.isEmpty && second.isEmpty then ⟨1, 1⟩
  else
    let reach := max 1 (max first.length second.length / 2)
    let pairs := partners reach second 0 first []
    let count := pairs.length
    if count = 0 then ⟨0, 1⟩
    else
      let ordered := (pairs.map (·.2)).mergeSort
      let moved := (pairs.zip ordered).countP fun entry =>
        first[entry.1.1]? != second[entry.2]?
      let swapped := moved / 2
      let a := first.length
      let b := second.length
      ⟨count * count * b + count * count * a + (count - swapped) * a * b, 3 * a * b * count⟩

/-- The words alike enough to be meant, the most alike last. -/
def similarWords (word : String) (words : List String) : List String :=
  let scored := words.map fun other => (similarity word.toList other.toList, other)
  let near := scored.filter fun entry => (Ratio.mk 7 10).less entry.1
  (near.mergeSort fun a b => !b.1.less a.1).map (·.2)

end DirLock.Text
