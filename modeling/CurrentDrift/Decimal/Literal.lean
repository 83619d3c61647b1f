import CurrentDrift.Decimal.Notation

/-!
# Reading numbers

The spellings of numbers in a data file. Whole numbers are ASCII digits, with a sign where one is
allowed. Real numbers may have a sign, a point with digits on either side or both, an exponent, or
be `inf`, `infinity` or `nan` in any case. Nothing else may stand around them.
-/

namespace CurrentDrift.Decimal

/-- The number written by digits; what is not a digit counts as its distance from `0`. -/
def ofDigits (ds : List Char) : Nat := ds.foldl (fun n c => 10 * n + (c.toNat - '0'.toNat)) 0

/-- The digits at the front of a text, and what follows them. -/
def spanDigits (cs : List Char) : List Char × List Char :=
  (cs.takeWhile Char.isDigit, cs.dropWhile Char.isDigit)

/-- A text that is digits and at least one. -/
def unsigned? (cs : List Char) : Option Nat :=
  if !cs.isEmpty && cs.all Char.isDigit then some (ofDigits cs) else none

/-- A natural number up to `bound`, with or without a plus sign. -/
def natural? (bound : Nat) (cs : List Char) : Option Nat :=
  let n := match cs with
    | '+' :: r => unsigned? r
    | _ => unsigned? cs
  n.filter (· ≤ bound)

/-- An integer from `-bound - 1` to `bound`, with or without a sign. -/
def integer? (bound : Nat) (cs : List Char) : Option Int :=
  let n : Option Int := match cs with
    | '-' :: r => (unsigned? r).map (fun n => -(n : Int))
    | '+' :: r => (unsigned? r).map Int.ofNat
    | _ => (unsigned? cs).map Int.ofNat
  n.filter (fun n => -(bound : Int) - 1 ≤ n && n ≤ bound)

/-- The double nearest to `m * 10 ^ k`, which is infinite above the range of doubles. Exponents
that put the number far outside the range are settled without the power of ten. -/
def nearest (m : Nat) (k : Int) : Float :=
  let lead := (digits m).length + k
  if m = 0 || lead < -400 then 0.0
  else if 400 < lead then 1.0 / 0.0
  else if k < 0 then Float.ofScientific m true (-k).toNat
  else Float.ofScientific m false k.toNat

/-- An exponent mark with its number at the end of a text; no exponent is zero. -/
def exponent? (cs : List Char) : Option Int :=
  match cs with
  | [] => some 0
  | c :: r =>
    if c != 'e' && c != 'E' then none
    else match r with
      | '-' :: ds => (unsigned? ds).map (fun n => -(n : Int))
      | '+' :: ds => (unsigned? ds).map Int.ofNat
      | ds => (unsigned? ds).map Int.ofNat

/-- A finite number without a sign. -/
def magnitude? (cs : List Char) : Option Float :=
  let (whole, rest) := spanDigits cs
  let (fraction, rest) := match rest with
    | '.' :: r => spanDigits r
    | r => ([], r)
  if whole.isEmpty && fraction.isEmpty then none
  else (exponent? rest).map fun e => nearest (ofDigits (whole ++ fraction)) (e - fraction.length)

/-- A real number without a sign. -/
def unsignedReal? (cs : List Char) : Option Float :=
  let word := String.ofList (cs.map Char.toLower)
  if word == "nan" then some (0.0 / 0.0)
  else if word == "inf" || word == "infinity" then some (1.0 / 0.0)
  else magnitude? cs

/-- A real number, with or without a sign. -/
def real? (cs : List Char) : Option Float :=
  match cs with
  | '-' :: r => (unsignedReal? r).map Float.neg
  | '+' :: r => unsignedReal? r
  | _ => unsignedReal? cs

end CurrentDrift.Decimal
