/-!
# Sets of characters as ranges

A Unicode property is kept as the ascending list of the ranges of code points that have it.
-/

namespace SealedRecords

/-- Whether a code point lies in one of the ranges, both ends included. -/
def inRanges (ranges : List (Nat × Nat)) (n : Nat) : Bool :=
  ranges.any fun r => r.1 ≤ n && n ≤ r.2

end SealedRecords
