/-!
# Sets of characters given by ranges

A character property is a list of closed ranges of code points, ascending and without overlap.
-/

namespace FuzzyCalc.Text

/-- Whether the code point of a character lies in one of the ranges. -/
def inRanges (ranges : List (Nat × Nat)) (c : Char) : Bool :=
  ranges.any fun (first, last) ↦ first ≤ c.toNat && c.toNat ≤ last

end FuzzyCalc.Text
