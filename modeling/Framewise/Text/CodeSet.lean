/-! # Sets of characters

  A class of characters (letters, white space, ...) is given by the closed
  ranges of its code points in increasing order. Membership is decided by
  bisection.
-/

namespace Framewise.Text

/-- A set of characters. -/
structure CodeSet where
  /-- Closed ranges of code points, in increasing order. -/
  ranges : Array (Nat × Nat)

/-- Looks for a code point in the ranges numbered `lo` to `hi - 1`; `steps` bounds
    the number of bisections. -/
def CodeSet.bisect (ranges : Array (Nat × Nat)) (code : Nat) : (steps lo hi : Nat) → Bool
  | 0, _, _ => false
  | steps + 1, lo, hi =>
    if lo < hi then
      let mid := (lo + hi) / 2
      match ranges[mid]? with
      | none => false
      | some (first, last) =>
        if code < first then CodeSet.bisect ranges code steps lo mid
        else if last < code then CodeSet.bisect ranges code steps (mid + 1) hi
        else true
    else false

/-- True if the set holds the character. -/
def CodeSet.contains (set : CodeSet) (c : Char) : Bool :=
  CodeSet.bisect set.ranges c.toNat set.ranges.size 0 set.ranges.size

end Framewise.Text
