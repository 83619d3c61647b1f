import CurrentDrift.Json.Basic

/-!
# Doubles in JSON

Number literals are read as doubles by a quick rule. The leading digits make a word of 64 bits as
long as they fit; the digits of the whole part that are left count as zeros, and those of the
fraction are dropped. The word is then multiplied or divided by one power of ten. The result is
within a few units in the last place of the literal, and it is exact for short literals.
-/

namespace CurrentDrift.Json.Number

/-- Digits taken up into a word: its value, how many were taken, and how many are left. -/
structure Taken where
  value : Nat
  taken : Nat
  left : Nat
  deriving Repr

/-- Takes digits up into a word until the first one that does not fit. -/
def take (value taken : Nat) : List Char → Taken
  | [] => ⟨value, taken, 0⟩
  | c :: r =>
    let next := 10 * value + (c.toNat - '0'.toNat)
    if next < UInt64.size then take next (taken + 1) r else ⟨value, taken, (c :: r).length⟩

/-- The largest exponent, in magnitude, that is told from larger ones. -/
def maxExponent : Int := 2147483647

/-- The sum of two exponents, kept within the range of exponents. -/
def addExponents (a b : Int) : Int := max (-maxExponent - 1) (min (a + b) maxExponent)

def powerOfTen (k : Nat) : Float := Float.ofScientific 1 false k

/-- A word times a power of ten; none above the range of doubles. Powers below the range of doubles
are divided by in steps. -/
def scaled? (x : Float) (k : Int) : Option Float :=
  if 0 ≤ k then
    if k ≤ 308 then
      let y := x * powerOfTen k.toNat
      if y.isFinite then some y else none
    else if x == 0.0 then some x else none
  else if -308 ≤ k then some (x / powerOfTen (-k).toNat)
  else if x == 0.0 then some x
  else scaled? (x / powerOfTen 308) (k + 308)
termination_by (-k).toNat
decreasing_by omega

/-- The magnitude of a literal. An exponent too large to be told from others makes it zero, or puts
it out of range. -/
def magnitude? (n : Number) : Option Float :=
  let whole := take 0 0 n.whole
  let all := take whole.value 0 (n.fraction.getD [])
  let shift : Int := whole.left - all.taken
  match n.exponent with
  | none => scaled? (UInt64.ofNat all.value).toFloat shift
  | some (negative, digits) =>
    let e := Binary64.signed negative (Decimal.ofDigits digits)
    if maxExponent < e.natAbs then
      if all.value = 0 || negative then some 0.0 else none
    else scaled? (UInt64.ofNat all.value).toFloat (addExponents shift e)

/-- The double that a literal is read as; none above the range of doubles. -/
def double? (n : Number) : Option Float :=
  n.magnitude?.map fun x => if n.negative then -x else x

end CurrentDrift.Json.Number
