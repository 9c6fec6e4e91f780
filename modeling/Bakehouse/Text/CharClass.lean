/-!
Classes of code points, kept as the increasing list of the points at which membership changes: a
code point belongs to the class when an odd number of them lie at or below it.
-/

namespace Bakehouse.Text

/-- The number of entries of the increasing array `xs` that are at most `x`, when it is known to lie
between `lo` and `hi`. -/
def rankBetween (xs : Array Nat) (x lo hi : Nat) : Nat :=
  if h : lo < hi then
    let mid := (lo + hi) / 2
    if xs.getD mid 0 ≤ x then rankBetween xs x (mid + 1) hi else rankBetween xs x lo mid
  else
    lo
termination_by hi - lo

def inClass (boundaries : Array Nat) (code : Nat) : Bool :=
  rankBetween boundaries code 0 boundaries.size % 2 == 1

end Bakehouse.Text
