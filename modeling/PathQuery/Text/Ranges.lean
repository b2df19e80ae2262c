/-!
# Classes of characters

A class of characters is given by ranges of codes, in ascending order and with both ends included.
-/

namespace PathQuery.Text

abbrev Ranges := List (Nat × Nat)

/-- Whether a code is in one of the ranges. The search ends at the first range that lies beyond it. -/
def inRanges (code : Nat) : Ranges → Bool
  | [] => false
  | (first, last) :: rest => first ≤ code && (code ≤ last || inRanges code rest)

end PathQuery.Text
