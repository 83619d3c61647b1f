import CurrentDrift.Decimal.Literal

/-!
# JSON values

A value keeps what its text says: numbers as they are spelt, members in their order and with
repetitions. A string whose escapes do not make up characters has no content.
-/

namespace CurrentDrift

inductive Json where
  | null
  | bool (b : Bool)
  | number (literal : List Char)
  /-- A string; `none` if it holds half of a surrogate pair. -/
  | string (content : Option (List Char))
  | array (items : List Json)
  | object (members : List (Option (List Char) × Json))
  deriving Repr

namespace Json

/-- The parts of a number literal. -/
structure Number where
  negative : Bool
  whole : List Char
  /-- The digits after the point, if there is a point. -/
  fraction : Option (List Char)
  /-- The sign and the digits of the exponent, if there is one. -/
  exponent : Option (Bool × List Char)
  deriving Repr

namespace Number

/-- The digits after an optional sign at the end of a literal: at least one. -/
def exponentPart? (negative : Bool) (cs : List Char) : Option (Bool × List Char) :=
  if cs.isEmpty || !cs.all Char.isDigit then none else some (negative, cs)

/-- The end of a literal: nothing, or an exponent. -/
def tail? : List Char → Option (Option (Bool × List Char))
  | [] => some none
  | c :: r =>
    if c = 'e' || c = 'E' then
      match r with
      | '-' :: ds => (exponentPart? true ds).map some
      | '+' :: ds => (exponentPart? false ds).map some
      | ds => (exponentPart? false ds).map some
    else none

/-- What follows the whole part of a literal: an optional fraction and an optional exponent. -/
def afterWhole? (negative : Bool) (whole : List Char) : List Char → Option Number
  | '.' :: r =>
    let (fraction, rest) := Decimal.spanDigits r
    if fraction.isEmpty then none
    else (tail? rest).map fun exponent => ⟨negative, whole, some fraction, exponent⟩
  | rest => (tail? rest).map fun exponent => ⟨negative, whole, none, exponent⟩

/-- A literal without its sign. A whole part of several digits does not begin with zero. -/
def unsigned? (negative : Bool) (cs : List Char) : Option Number :=
  let (whole, rest) := Decimal.spanDigits cs
  match whole with
  | [] => none
  | '0' :: _ :: _ => none
  | _ => afterWhole? negative whole rest

def ofLiteral? : List Char → Option Number
  | '-' :: r => unsigned? true r
  | cs => unsigned? false cs

/-- The value of a literal without point, exponent and minus sign. -/
def natural? (n : Number) : Option Nat :=
  if n.negative || n.fraction.isSome || n.exponent.isSome then none
  else some (Decimal.ofDigits n.whole)

/-- The value of a literal without point and exponent. -/
def integer? (n : Number) : Option Int :=
  if n.fraction.isSome || n.exponent.isSome then none
  else some (Binary64.signed n.negative (Decimal.ofDigits n.whole))

end Number

/-- The double that is written in the fewest digits; without one if it is not finite. -/
def ofFloat (x : Float) : Json :=
  if x.isFinite then .number (Decimal.Style.data.write (Binary64.ofFloat x)) else .null

def ofNat (n : Nat) : Json := .number (Decimal.digits n)

def ofInt (n : Int) : Json := .number (Decimal.integer n)

def ofString (s : String) : Json := .string (some s.toList)

/-- An object with plain names. -/
def ofMembers (members : List (String × Json)) : Json :=
  .object (members.map fun (k, v) => (some k.toList, v))

end Json

end CurrentDrift
