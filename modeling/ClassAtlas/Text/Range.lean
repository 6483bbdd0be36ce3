/-!
# Ranges of characters

A property of characters is stored as a list of ranges of code points, both ends included.
-/

namespace ClassAtlas.Text

/-- The code point lies in one of the ranges. -/
def inRanges (ranges : List (Nat × Nat)) (n : Nat) : Bool :=
  ranges.any (fun range => range.1 ≤ n && n ≤ range.2)

end ClassAtlas.Text
