/-!
# Character classes as ranges

A character class is a list of closed ranges of code points.  Membership is decided on the code
point alone.
-/

namespace Tariff.Text

/-- The code point of `c` lies in one of the ranges. -/
def inRanges (ranges : List (Nat × Nat)) (c : Char) : Bool :=
  ranges.any fun range => range.1 ≤ c.toNat && c.toNat ≤ range.2

/-- Membership in a class is membership in one of its ranges. -/
theorem inRanges_iff {ranges : List (Nat × Nat)} {c : Char} :
  inRanges ranges c = true ↔ ∃ range ∈ ranges, range.1 ≤ c.toNat ∧ c.toNat ≤ range.2
  := by
  simp [inRanges]

end Tariff.Text
