/-!
# Binary search

The search for the first position of a range at which a test fails, when the test holds on an
initial part only.
-/

namespace BMethod

/-- The first position from `lo` to `hi` at which `below` fails, found by halving the range. -/
def lowerBound (below : Nat → Bool) (lo hi : Nat) : Nat :=
  if lo < hi then
    let mid := (lo + hi) / 2
    if below mid then lowerBound below (mid + 1) hi else lowerBound below lo mid
  else lo
termination_by hi - lo
decreasing_by all_goals omega

end BMethod
