/-!
# Ranges of characters

Properties of characters are tables of inclusive code point ranges.
-/

namespace Minifier.Text

/-- Whether a character lies in one of the inclusive ranges. -/
def inRanges (ranges : List (Nat × Nat)) (c : Char) : Bool :=
  ranges.any fun r => decide (r.1 ≤ c.toNat) && decide (c.toNat ≤ r.2)

end Minifier.Text
