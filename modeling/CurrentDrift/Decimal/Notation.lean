import CurrentDrift.Decimal.Rounded

/-!
# Written numbers

How a double is written: with the fewest digits that read back, positionally or with an exponent
as a `Notation.Style` says; with a fixed number of decimal places; or with one digit before the
point and a fixed number after it.
-/

namespace CurrentDrift.Decimal

/-- The decimal digits of a natural number. -/
def digits (n : Nat) : List Char := Nat.toDigits 10 n

def integer (n : Int) : List Char :=
  if n < 0 then '-' :: digits n.natAbs else digits n.natAbs

/-- The decisions of one way of writing the shortest digits. A number is written positionally if
its leading digit stands for a power of ten from `positionalFrom` to below `positionalBelow`, or
always if that is `none`. -/
structure Style where
  tie : Tie
  positionalRange : Option (Int × Int)
  keepsPoint : Bool
  signsExponent : Bool

/-- Data files: a point in every positional number, `1e+16` and `1e-6` outside it. -/
def Style.data : Style := ⟨.even, some (-5, 16), true, true⟩

/-- Running text: always positional, whole numbers without a point. -/
def Style.text : Style := ⟨.up, none, false, false⟩

/-- Structure dumps: a point in every positional number, `1e16` and `1e-5` outside it. -/
def Style.dump : Style := ⟨.up, some (-4, 16), true, false⟩

/-- Digits `ds` whose first one stands for `10 ^ lead`, written positionally. -/
def positional (keepsPoint : Bool) (ds : List Char) (lead : Int) : List Char :=
  if lead < 0 then
    '0' :: '.' :: List.replicate (-lead - 1).toNat '0' ++ ds
  else
    let n := lead.toNat + 1
    let whole := ds.take n ++ List.replicate (n - ds.length) '0'
    match ds.drop n with
    | [] => if keepsPoint then whole ++ ['.', '0'] else whole
    | fraction => whole ++ '.' :: fraction

/-- Digits `ds` whose first one stands for `10 ^ lead`, written with an exponent. -/
def scientific (signsExponent : Bool) (ds : List Char) (lead : Int) : List Char :=
  let mantissa := match ds with
    | d :: e :: r => d :: '.' :: e :: r
    | short => short
  let plus := if signsExponent && decide (0 ≤ lead) then ['+'] else []
  mantissa ++ 'e' :: plus ++ integer lead

def signMark (negative : Bool) : List Char := if negative then ['-'] else []

/-- What is written for a value that is not a finite number. -/
def nonFinite (x : Binary64) : List Char :=
  match x with
  | .infinite negative => signMark negative ++ "inf".toList
  | _ => "NaN".toList

/-- The shortest digits of a value in the given style. -/
def Style.write (style : Style) (x : Binary64) : List Char :=
  match x with
  | .finite negative m q =>
    let shortest := if m = 0 then ⟨0, 0⟩ else Shortest.find style.tie m q
    let ds := digits shortest.digits
    let lead := ds.length - 1 + shortest.exponent
    let isPositional := match style.positionalRange with
      | none => true
      | some (low, high) => low ≤ lead && lead < high
    signMark negative ++
      (if isPositional then positional style.keepsPoint ds lead
       else scientific style.signsExponent ds lead)
  | other => nonFinite other

/-- A value with `places` digits after the point. -/
def fixed (places : Nat) (x : Binary64) : List Char :=
  match x with
  | .finite negative m q =>
    let n := roundToGrid m q (-places)
    let fraction := digits (n % powerOfTen places)
    signMark negative ++ digits (n / powerOfTen places) ++ '.' ::
      List.replicate (places - fraction.length) '0' ++ fraction
  | other => nonFinite other

/-- A value with one digit before the point and `places` after it. -/
def exponential (places : Nat) (x : Binary64) : List Char :=
  match x with
  | .finite negative m q =>
    let rounded := if m = 0 then ⟨0, -places⟩ else significant places m q
    let ds := if m = 0 then List.replicate (places + 1) '0' else digits rounded.digits
    signMark negative ++ scientific false ds (places + rounded.exponent)
  | other => nonFinite other

/-- A double in running text. -/
def inText (x : Float) : String := String.ofList (Style.text.write (Binary64.ofFloat x))

/-- A double in a structure dump. -/
def inDump (x : Float) : String := String.ofList (Style.dump.write (Binary64.ofFloat x))

/-- A double with a fixed number of places. -/
def inPlaces (places : Nat) (x : Float) : String :=
  String.ofList (fixed places (Binary64.ofFloat x))

/-- A double with an exponent and a fixed number of places. -/
def inPowers (places : Nat) (x : Float) : String :=
  String.ofList (exponential places (Binary64.ofFloat x))

end CurrentDrift.Decimal
