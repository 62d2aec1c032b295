import Invigilator.Text.Shortest

/-!
# Literals of numbers

The double that a number's literal stands for in memory. Its digits are gathered in 64 bits, as
many as fit; the others count only as places. The number is the double next to those digits times
the double next to a power of ten, and this product must not be infinite.
-/

namespace Invigilator.Json

/-- The smallest whole number that double precision rounds to infinity. -/
def doubleLimit : Nat := (Nat.pow 2 54 - 1) * Nat.pow 2 970

/-- The double next to a whole number, of two the one with the even mantissa. -/
def nearestDouble (n : Nat) : Nat :=
  if n < Nat.pow 2 53 then n
  else
    let unit := Nat.pow 2 (n.log2 - 52)
    let below := n / unit
    let rest := n % unit
    if 2 * rest > unit ∨ (2 * rest = unit ∧ below % 2 = 1) then (below + 1) * unit
    else below * unit

/-- Adds digits to a number while it fits in 64 bits; the number, and how many were added. -/
def gather (n : Nat) : List Char → Nat × Nat
  | [] => (n, 0)
  | c :: rest =>
    let next := n * 10 + Decimal.digitValue c
    if next < Nat.pow 2 64 then
      let (n, count) := gather next rest
      (n, count + 1)
    else (n, 0)

/-- Exponents are smaller than this. -/
def exponentLimit : Nat := Nat.pow 2 31

/-- The value of the digits of an exponent, or the limit if it is not below it. -/
def exponentValue (digits : List Char) : Nat :=
  digits.foldl (fun n c => min (n * 10 + Decimal.digitValue c) exponentLimit) 0

/-- The literal of a number, taken apart. -/
structure Literal where
  isNegative : Bool
  /-- The digits that were gathered. -/
  significand : Nat
  /-- How many places they stand in front of the point. -/
  places : Int
  /-- Whether the exponent is not negative. -/
  raises : Bool
  /-- The digits of the exponent. -/
  exponent : List Char
deriving DecidableEq, Repr

namespace Literal

/-- Takes a literal apart. -/
def ofChars (literal : List Char) : Literal :=
  let isNegative := literal.head? = some '-'
  let unsigned := if isNegative then literal.tail else literal
  let (whole, behind) := Decimal.spanDigits unsigned
  let (fraction, behind) :=
    match behind with
    | '.' :: rest => Decimal.spanDigits rest
    | _ => ([], behind)
  let (significand, wholeCount) := gather 0 whole
  let (significand, fractionCount) := gather significand fraction
  let (raises, exponent) : Bool × List Char :=
    match behind with
    | _ :: '-' :: digits => (false, digits)
    | _ :: '+' :: digits => (true, digits)
    | _ :: digits => (true, digits)
    | [] => (true, [])
  { isNegative := isNegative, significand, raises, exponent,
    places := (whole.length : Int) - wholeCount - fractionCount }

/-- The value of the exponent without its sign. -/
def value (l : Literal) : Nat := exponentValue l.exponent

/-- The power of ten by which the digits are multiplied. -/
def power (l : Literal) : Int := if l.raises then l.places + l.value else l.places - l.value

/-- Whether the product with the power of ten is finite. -/
def isInRange (l : Literal) : Bool :=
  l.power ≤ 0 ||
    (l.power ≤ 308 &&
      nearestDouble l.significand * nearestDouble (Nat.pow 10 l.power.toNat) < doubleLimit)

/-- A power of ten that double precision can hold. -/
def powerOfTen (n : Nat) : Float := Float.ofScientific 1 false n

/-- A double divided by a power of ten, in steps if the power is large. -/
def dividedBy : (fuel : Nat) → Float → (power : Nat) → Float
  | 0, x, _ => x
  | fuel + 1, x, power =>
    if power ≤ 308 then x / powerOfTen power
    else dividedBy fuel (x / powerOfTen 308) (power - 308)

/-- The double of a literal that is in range, without its sign. After three steps of division
nothing is left of any number. -/
def double (l : Literal) : Float :=
  let x := (UInt64.ofNat l.significand).toFloat
  match l.power with
  | .ofNat n => if l.significand = 0 then 0.0 else x * powerOfTen n
  | .negSucc n => dividedBy 4 x (n + 1)

/-- The number of a literal in the fewest digits that read back. -/
def text (l : Literal) : String :=
  String.ofList ((if l.isNegative then ['-'] else []) ++ Shortest.compact l.double)

end Literal

end Invigilator.Json
