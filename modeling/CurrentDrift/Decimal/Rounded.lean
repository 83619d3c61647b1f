import CurrentDrift.Decimal.Shortest

/-!
# A given number of digits

Exact values rounded to a fixed number of decimal places, or to a fixed number of significant
digits. A value halfway between two decimals goes to the one with the even last digit.
-/

namespace CurrentDrift.Decimal

/-- `num / den` to the nearest whole number, a half to the even one. -/
def roundHalfEven (num den : Nat) : Nat :=
  let d := num / den
  let twice := 2 * (num % den)
  if twice < den || (twice = den && d % 2 = 0) then d else d + 1

/-- The nearest multiple of `10 ^ k` to `m * 2 ^ q`, as a count of `10 ^ k`. -/
def roundToGrid (m : Nat) (q k : Int) : Nat :=
  roundHalfEven (m * Shortest.binaryFactor q k) (Shortest.decimalFactor q k)

/-- The largest grid, of those from `10 ^ k` down through `n` grids, that is not above
`m * 2 ^ q`. -/
def leadingGrid (m : Nat) (q : Int) : Nat → Int → Int
  | 0, k => k
  | n + 1, k =>
    if Shortest.decimalFactor q k ≤ m * Shortest.binaryFactor q k then k
    else leadingGrid m q n (k - 1)

/-- `m * 2 ^ q` to `n + 1` significant digits, for a positive `m`. -/
def significant (n : Nat) (m : Nat) (q : Int) : Scaled :=
  let k := leadingGrid m q 24 (Shortest.gridAbove m q) - n
  let d := roundToGrid m q k
  if d < powerOfTen (n + 1) then ⟨d, k⟩ else ⟨d / 10, k + 1⟩

end CurrentDrift.Decimal
