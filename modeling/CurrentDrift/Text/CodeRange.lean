/-!
# Ranges of code points

Classes of characters given by a table: the first and the last code point of each range, in order.
-/

namespace CurrentDrift.Text

/-- Whether the code point of a character lies in one of the ranges. -/
def isIn (ranges : List (Nat × Nat)) (c : Char) : Bool :=
  ranges.any fun (low, high) => low ≤ c.toNat && c.toNat ≤ high

end CurrentDrift.Text
