/-!
# Ranges of characters

Classes of characters are given by the ranges of their code points, in increasing order, and a code
point is looked up by bisection.
-/

namespace Clausal.Text

/-- Whether a code point lies in one of the ranges from position `lo` up to `hi`, by bisection. -/
def inRanges (ranges : Array (Nat × Nat)) (n lo hi : Nat) : Bool :=
  if lo < hi then
    let mid := (lo + hi) / 2
    match ranges[mid]? with
    | none => false
    | some (first, last) =>
      if n < first then inRanges ranges n lo mid
      else if last < n then inRanges ranges n (mid + 1) hi
      else true
  else false
termination_by hi - lo

end Clausal.Text
