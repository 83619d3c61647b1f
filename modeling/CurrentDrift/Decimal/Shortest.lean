import CurrentDrift.Binary64

/-!
# The fewest digits that read back

A positive double `m * 2 ^ q` is what every real number nearer to it than to its neighbours reads
as. Among the decimals `d * 10 ^ k` in that interval, `Shortest.find` takes the one on the coarsest
grid, and of two on that grid the nearer. All comparisons are between whole numbers.
-/

namespace CurrentDrift.Decimal

/-- Which of two equally near decimals is taken. -/
inductive Tie where
  | up
  | even
  deriving Repr, DecidableEq

/-- The decimal `digits * 10 ^ exponent`. -/
structure Scaled where
  digits : Nat
  exponent : Int
  deriving Repr, DecidableEq

def powerOfTen (n : Nat) : Nat := Nat.pow 10 n

namespace Shortest

/-- The interval of reals that read as one double: its ends and the double itself are whole
multiples of one power of two, `2 ^ unit`. The ends belong to it if `closed`. -/
structure Interval where
  low : Nat
  value : Nat
  high : Nat
  unit : Int
  closed : Bool

/-- A double lies halfway between the ends of its interval, except that the neighbour below a power
of two is only half as far away. -/
def Interval.of (m : Nat) (q : Int) : Interval where
  low := if m = Binary64.hiddenBit ∧ -1074 < q then 4 * m - 1 else 4 * m - 2
  value := 4 * m
  high := 4 * m + 2
  unit := q - 2
  closed := m % 2 = 0

/-- What a multiple of `2 ^ unit` is multiplied by to compare it with multiples of `10 ^ k`. -/
def binaryFactor (unit k : Int) : Nat := powerOfTen (-k).toNat <<< unit.toNat

/-- What a multiple of `10 ^ k` is multiplied by to compare it with multiples of `2 ^ unit`. -/
def decimalFactor (unit k : Int) : Nat := powerOfTen k.toNat <<< (-unit).toNat

/-- Whether `d * 10 ^ k` lies in the interval. -/
def Interval.contains (i : Interval) (d : Nat) (k : Int) : Bool :=
  let x := d * decimalFactor i.unit k
  let low := i.low * binaryFactor i.unit k
  let high := i.high * binaryFactor i.unit k
  if i.closed then low ≤ x && x ≤ high else low < x && x < high

/-- Whether, of `d * 10 ^ k` at or below the value and `(d + 1) * 10 ^ k` above it, the second is
to be taken. -/
def Interval.prefersAbove (i : Interval) (tie : Tie) (d : Nat) (k : Int) : Bool :=
  let twice := 2 * i.value * binaryFactor i.unit k
  let middle := (2 * d + 1) * decimalFactor i.unit k
  middle < twice || (middle = twice && (tie = .up || d % 2 = 1))

/-- The decimal of the interval on the grid `10 ^ k`, if there is one. -/
def Interval.onGrid? (i : Interval) (tie : Tie) (k : Int) : Option Nat :=
  let d := i.value * binaryFactor i.unit k / decimalFactor i.unit k
  match i.contains d k, i.contains (d + 1) k with
  | true, true => some (if i.prefersAbove tie d k then d + 1 else d)
  | true, false => some d
  | false, true => some (d + 1)
  | false, false => none

/-- The first grid with a decimal of the interval, going down from `10 ^ k` through `n` grids. -/
def Interval.descend (i : Interval) (tie : Tie) : Nat → Int → Scaled
  | 0, k => ⟨i.value * binaryFactor i.unit k / decimalFactor i.unit k, k⟩
  | n + 1, k =>
    match i.onGrid? tie k with
    | some d => ⟨d, k⟩
    | none => i.descend tie n (k - 1)

/-- A power of ten above `m * 2 ^ q`, and at most a few powers above it. -/
def gridAbove (m : Nat) (q : Int) : Int := (m.log2 + 1 + q) * 30103 / 100000 + 2

/-- The shortest decimal that reads as the double `m * 2 ^ q`. A grid finer than the double's own
spacing always has one, and twenty grids from `gridAbove` reach it. -/
def find (tie : Tie) (m : Nat) (q : Int) : Scaled :=
  (Interval.of m q).descend tie 24 (gridAbove m q)

end Shortest

end CurrentDrift.Decimal
