import Invigilator.Text.Decimal

/-!
# Shortest decimals

The fewest digits that read back as the same double. A double stands for the interval of reals
that round to it; the coarsest decimal grid with a point in that interval gives the digits, and
of two points the nearer one.
-/

namespace Invigilator.Shortest

/-- A finite positive double is `mantissa * 2 ^ power`. -/
structure Parts where
  mantissa : Nat
  power : Int
deriving DecidableEq, Repr

/-- The parts of a double, taken from its bits. -/
def Parts.ofBits (bits : UInt64) : Parts :=
  let n := bits.toNat % Nat.pow 2 63
  let exponent : Nat := n / Nat.pow 2 52
  let fraction : Nat := n % Nat.pow 2 52
  if exponent = 0 then ⟨fraction, -1074⟩ else ⟨Nat.pow 2 52 + fraction, (exponent : Int) - 1075⟩

/--
Four times the mantissa, and the ends of the interval that rounds to the double, in quarters of
its last place. Below a power of two the next double is half as far away.
-/
def Parts.interval (p : Parts) : Nat × Nat × Nat :=
  let middle := 4 * p.mantissa
  let narrow := p.mantissa = Nat.pow 2 52 ∧ -1074 < p.power
  (if narrow then middle - 1 else middle - 2, middle, middle + 2)

/-- Powers of a base with any sign, as a numerator and a denominator. -/
def ratioPow (base : Nat) : Int → Nat × Nat
  | .ofNat n => (Nat.pow base n, 1)
  | .negSucc n => (1, Nat.pow base (n + 1))

/-- The point of the grid of `10 ^ place` that reads back as the double, if there is one. -/
def gridPoint? (p : Parts) (place : Int) : Option Nat :=
  let (low, middle, high) := p.interval
  let (unitTop, unitBottom) := ratioPow 2 (p.power - 2)
  let (gridTop, gridBottom) := ratioPow 10 place
  let scale := unitTop * gridBottom
  let grid := gridTop * unitBottom
  let even := p.mantissa % 2 = 0
  let inside (d : Nat) : Bool :=
    if even then low * scale ≤ d * grid && d * grid ≤ high * scale
    else low * scale < d * grid && d * grid < high * scale
  let below := middle * scale / grid
  let above := below + 1
  if inside below then
    if inside above && 2 * (middle * scale) > (below + above) * grid then some above
    else some below
  else if inside above then some above
  else none

/-- The coarsest grid at or below a place, among so many, that has a point for the double. -/
def search (p : Parts) : (tries : Nat) → (place : Int) → Nat × Int
  | 0, place => (0, place)
  | tries + 1, place =>
    match gridPoint? p place with
    | some d => if d = 0 then search p tries (place - 1) else (d, place)
    | none => search p tries (place - 1)

/-- The digits of a finite positive double, as a whole number, and the place of the last one. -/
def digits (x : Float) : Nat × Int :=
  search (Parts.ofBits x.toBits) 700 (Decimal.digits x.toUInt64.toNat).length

/-- A number of so many units of `10 ^ place` in positional notation, always with a fraction. -/
def positional (units : Nat) (place : Int) : List Char :=
  match place with
  | .ofNat n => Decimal.digits units ++ List.replicate n '0' ++ ['.', '0']
  | .negSucc n =>
    let padded := Decimal.padded (n + 2) units
    padded.take (padded.length - (n + 1)) ++ '.' :: padded.drop (padded.length - (n + 1))

/-- A finite double that is not negative, in positional notation with the fewest digits. -/
def write (x : Float) : List Char :=
  if x == 0.0 then ['0', '.', '0']
  else
    let (units, place) := digits x
    positional units place

/-- The digits of a finite positive double of any size. -/
def allDigits (x : Float) : Nat × Int := search (Parts.ofBits x.toBits) 700 310

/-- A number of so many units of `10 ^ place` with a power of ten, which shows its sign, behind its
first digit. -/
def scientific (units : Nat) (place : Int) : List Char :=
  let digits := Decimal.digits units
  let exponent := place + digits.length - 1
  let power := (if exponent < 0 then [] else ['+']) ++ Decimal.intDigits exponent
  match digits with
  | [] => []
  | [d] => d :: 'e' :: power
  | d :: rest => d :: '.' :: rest ++ 'e' :: power

/-- A finite double that is not negative, with the fewest digits: in positional notation from
`0.00001` up to sixteen places in front of the point, else with a power of ten. -/
def compact (x : Float) : List Char :=
  if x == 0.0 then ['0', '.', '0']
  else
    let (units, place) := allDigits x
    let places := place + (Decimal.digits units).length
    if -5 < places ∧ places ≤ 16 then positional units place else scientific units place

end Invigilator.Shortest
