import CurrentDrift.Scalar

/-!
# Doubles as exact numbers

A finite double is `m * 2 ^ q` with a sign, where `m < 2 ^ 53` and `-1074 ≤ q ≤ 971`. What must be
exact about doubles (rounding to an integer, remainders, decimal digits) is computed here on `m`
and `q` in whole numbers. The instance at the end makes doubles scalars.
-/

namespace CurrentDrift

/-- What a double stands for. A finite value is `± m * 2 ^ q`. -/
inductive Binary64 where
  | nan
  | infinite (negative : Bool)
  | finite (negative : Bool) (m : Nat) (q : Int)
  deriving Repr, DecidableEq

namespace Binary64

/-- The leading bit of a significand of full length. -/
def hiddenBit : Nat := 1 <<< 52

/-- The value written in a 64-bit word: a sign, eleven bits of exponent and 52 of fraction. -/
def ofBits (bits : UInt64) : Binary64 :=
  let n := bits.toNat
  let negative := n.testBit 63
  let e : Nat := n >>> 52 % 2048
  let f : Nat := n % hiddenBit
  if e = 2047 then (if f = 0 then infinite negative else nan)
  else if e = 0 then finite negative f (-1074)
  else finite negative (hiddenBit + f) ((e : Int) - 1075)

def ofFloat (x : Float) : Binary64 := ofBits x.toBits

/-- The double that is exactly `± m * 2 ^ q`, for an `m` and a `q` that have one: the significand is
moved to the place where its leading bit is the hidden one, or as near to it as `-1074` allows. -/
def exactly (negative : Bool) (m : Nat) (q : Int) : Float :=
  let sign : Nat := if negative then 1 <<< 63 else 0
  if m = 0 then Float.ofBits (UInt64.ofNat sign)
  else
    let q' : Int := max (q + m.log2 - 52) (-1074)
    let m' := if q ≤ q' then m >>> (q' - q).toNat else m <<< (q - q').toNat
    let magnitude := if m' < hiddenBit then m' else (q' + 1075).toNat * hiddenBit + (m' - hiddenBit)
    Float.ofBits (UInt64.ofNat (sign + magnitude))

/-- An integer with the sign of the value. -/
def signed (negative : Bool) (n : Nat) : Int := if negative then -(n : Int) else n

/-- `m * 2 ^ q` without its fraction. -/
def wholePart (m : Nat) (q : Int) : Nat :=
  if 0 ≤ q then m <<< q.toNat else m >>> (-q).toNat

/-- `m * 2 ^ q` to the nearest whole number, a half upwards. -/
def nearestWhole (m : Nat) (q : Int) : Nat :=
  if 0 ≤ q then m <<< q.toNat else (m + 1 <<< ((-q).toNat - 1)) >>> (-q).toNat

/-- The least whole number that is not below `m * 2 ^ q`. -/
def wholeAbove (m : Nat) (q : Int) : Nat :=
  if 0 ≤ q then m <<< q.toNat else (m + 1 <<< (-q).toNat - 1) >>> (-q).toNat

/-- A double made an `Int32` by a rule for the magnitude; infinities go to the ends of the range. -/
def toInt32By (rule : Nat → Int → Nat) (x : Float) : Int32 :=
  match ofFloat x with
  | nan => 0
  | infinite negative => if negative then Int32.minValue else Int32.maxValue
  | finite negative m q => Scalar.clampInt32 (signed negative (rule m q))

/-- The least whole number that is not below the double, clamped to the words of 64 bits. -/
def ceilWord (x : Float) : UInt64 :=
  match ofFloat x with
  | nan => 0
  | infinite negative => if negative then 0 else UInt64.ofNat (UInt64.size - 1)
  | finite negative m q =>
    if negative then 0 else UInt64.ofNat (min (wholeAbove m q) (UInt64.size - 1))

/-- The remainder of two doubles that has the sign of the first, without rounding. -/
def remainder (x y : Float) : Float :=
  match ofFloat x, ofFloat y with
  | finite sx mx qx, finite _ my qy =>
    if my = 0 then 0.0 / 0.0
    else
      let q := min qx qy
      exactly sx (mx <<< (qx - q).toNat % my <<< (qy - q).toNat) q
  | finite .., infinite _ => x
  | _, _ => 0.0 / 0.0

/-- The first double at or below the one with these bits for which the test fails, going down
through all positive doubles. -/
def shrinkBits (test : Float → Bool) : Nat → Float
  | 0 => 0.0
  | n + 1 =>
    let x := Float.ofBits (UInt64.ofNat (n + 1))
    if test x then shrinkBits test n else x

end Binary64

instance : Scalar Float where
  decLt := Float.decLt
  decLe := Float.decLe
  ofInt := Float.ofInt
  abs := Float.abs
  sqrt := Float.sqrt
  cos := Float.cos
  pi := 3.141592653589793
  fmod := Binary64.remainder
  isNaN := Float.isNaN
  isFinite := Float.isFinite
  nearestInt32 := Binary64.toInt32By Binary64.nearestWhole
  truncInt32 := Binary64.toInt32By Binary64.wholePart
  shrink test x := if test x then Binary64.shrinkBits test x.toBits.toNat else x

end CurrentDrift
