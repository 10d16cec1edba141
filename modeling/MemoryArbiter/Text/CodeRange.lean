/-! # Ranges of characters

A class of characters is given by the ranges of its numbers, in ascending order.
-/

namespace MemoryArbiter.Text

/-- First and last number of a range. -/
abbrev CodeRange := Nat × Nat

def inRanges (ranges : List CodeRange) (c : Char) : Bool :=
  ranges.any fun r => r.1 ≤ c.toNat && c.toNat ≤ r.2

end MemoryArbiter.Text
