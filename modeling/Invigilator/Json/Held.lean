import Invigilator.Json.Basic
import Invigilator.Json.Literal

/-!
# Values in memory

A tagged record is read into memory before its variant is known. Memory holds no torn string, no
number beyond double precision, and no more than 127 levels of nesting.

`grip` says how the reading of a value into memory ends. A reader that was refused may still
stand right behind the value, and then go on as if nothing had happened; otherwise it has lost
its place.
-/

namespace Invigilator.Json

/-- How the reading of a value into memory ends. -/
inductive Grip where
  /-- The value is in memory. -/
  | held
  /-- It was refused when all of it had been read. -/
  | late
  /-- It was refused with a part of it unread. -/
  | early
deriving DecidableEq, Repr

/-- How the reading of a number ends, given its literal. -/
def numberGrip (literal : List Char) : Grip :=
  let parts := Literal.ofChars literal
  if parts.significand = 0 then .held
  else if parts.value = exponentLimit then
    if parts.raises then
      if exponentValue parts.exponent.dropLast = exponentLimit then .early else .late
    else .held
  else if parts.isInRange then .held
  else .late

/-! ## Values -/

mutual

/-- How the reading of a value ends when so many levels of nesting are left. -/
def grip (levels : Nat) : Json → Grip
  | .torn .atEnd => .late
  | .torn .inside => .early
  | .int n => if n.natAbs < Nat.pow 2 64 then .held else numberGrip (Decimal.intDigits n)
  | .real literal => numberGrip literal
  | .list items =>
    match levels with
    | 0 => .early
    | levels + 1 => gripItems levels items
  | .object members =>
    match levels with
    | 0 => .early
    | levels + 1 => gripMembers levels members
  | _ => .held

def gripItems (levels : Nat) : List Json → Grip
  | [] => .held
  | j :: rest =>
    match grip levels j with
    | .held => gripItems levels rest
    | .late => if rest.isEmpty then .late else .early
    | .early => .early

def gripMembers (levels : Nat) : List (String × Json) → Grip
  | [] => .held
  | (_, j) :: rest =>
    match grip levels j with
    | .held => gripMembers levels rest
    | .late => if rest.isEmpty then .late else .early
    | .early => .early

end

/-- The deepest nesting of a text that is read into memory. -/
def depthLimit : Nat := 127

/-- Whether a value can be read into memory whole, below so many lists and objects of its text. -/
def isHeldBelow (outer : Nat) (j : Json) : Bool := j.grip (depthLimit - outer) = .held

/-- Whether the value of a text can be read into memory whole. -/
def isHeld (j : Json) : Bool := j.isHeldBelow 0

end Invigilator.Json
