/-!
# Scalars

The arithmetic that speeds, times and scale factors are written over. The rules of motion are
stated for any type with these operations: on doubles they run, on real numbers they are the
mathematics that the doubles approximate.
-/

namespace CurrentDrift

/-- Numbers with an order, the four operations, decimal literals and a few functions.

`nearestInt32` rounds a half away from zero, `truncInt32` drops the fraction; both clamp to the
range of `Int32` and send what is not a number to zero. `fmod` is the remainder with the sign of
the dividend. `shrink` goes down from a positive number, one representable step at a time, to the
first number at which the test no longer holds. -/
class Scalar (α : Type) extends Add α, Sub α, Mul α, Div α, Neg α, LT α, LE α, BEq α,
    OfScientific α where
  decLt : ∀ a b : α, Decidable (a < b)
  decLe : ∀ a b : α, Decidable (a ≤ b)
  ofInt : Int → α
  abs : α → α
  sqrt : α → α
  cos : α → α
  pi : α
  fmod : α → α → α
  isNaN : α → Bool
  isFinite : α → Bool
  nearestInt32 : α → Int32
  truncInt32 : α → Int32
  shrink : (α → Bool) → α → α

namespace Scalar

/-- The nearest number that an `Int32` holds. -/
def clampInt32 (n : Int) : Int32 := Int32.ofInt (max (-2147483648) (min n 2147483647))

variable {α : Type} [Scalar α]

instance (a b : α) : Decidable (a < b) := Scalar.decLt a b

instance (a b : α) : Decidable (a ≤ b) := Scalar.decLe a b

/-- The smaller of two numbers; the first one if neither is smaller. -/
def least (a b : α) : α := if b < a then b else a

/-- The larger of two numbers; the first one if neither is larger. -/
def greatest (a b : α) : α := if a < b then b else a

/-- The remainder of `a` by `b` that is not negative. -/
def modulo (a b : α) : α :=
  let r := fmod a b
  if r < 0.0 then r + abs b else r

end Scalar

end CurrentDrift
