/-!
# Sets of characters given by ranges

A property of characters is written down as the list of the ranges of code
points that have it, in ascending order.
-/

namespace Worksheet

/-- A range of code points, both ends included. -/
abbrev CodeRange := Nat × Nat

/-- Whether a character lies in one of the ranges, which are in ascending
order: the search stops at the first range that lies above the character. -/
def inRanges : List CodeRange → Char → Bool
  | [], _ => false
  | r :: rs, c => r.1 ≤ c.toNat && (c.toNat ≤ r.2 || inRanges rs c)

end Worksheet
