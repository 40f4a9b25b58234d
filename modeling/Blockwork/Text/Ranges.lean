/-!
# Sets of characters given by ranges

The classes of characters that Unicode defines by long tables are kept as lists of ranges of code
points, both ends included.
-/

namespace Blockwork.Text

/-- Whether a code point lies in one of the ranges. -/
def inRanges (ranges : List (Nat × Nat)) (n : Nat) : Bool :=
  ranges.any fun (first, last) => first ≤ n && n ≤ last

end Blockwork.Text
