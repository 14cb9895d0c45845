/-!
# Ranges of code points

Classes of characters are given by lists of closed ranges.
-/

namespace BMethod.Text

/-- The code points from the first to the second, both included. -/
abbrev Range := Nat × Nat

/-- Whether the code point of `c` lies in one of the ranges. -/
def inRanges (ranges : List Range) (c : Char) : Bool :=
  ranges.any fun r => r.1 ≤ c.toNat && c.toNat ≤ r.2

end BMethod.Text
