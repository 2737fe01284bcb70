/-!
# Ranges of characters

A property of characters is given as a table of ranges in ascending order, each by its first and
last code point.
-/

namespace PackedMap

/-- Ranges of code points, each with both ends. -/
abbrev CharRanges := Array (Nat × Nat)

/-- Whether a character lies in one of the ranges. -/
def CharRanges.contains (ranges : CharRanges) (c : Char) : Bool :=
  ranges.any fun (first, last) => decide (first ≤ c.toNat) && decide (c.toNat ≤ last)

end PackedMap
