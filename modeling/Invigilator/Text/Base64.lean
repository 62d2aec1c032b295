/-!
# Base 64

Bytes as text of 64 characters, six bits each. The last two characters depend on the variant:
tokens use the one for addresses, without padding; credentials use the standard one, padded
with `=`.

Reading is strict: the bits that the last character does not need are zero, so every text that
can be read is the written form of its bytes.
-/

namespace Invigilator.Base64

/-- Which characters stand for 62 and 63. -/
inductive Variant where
  | address
  | standard
deriving DecidableEq, Repr

def Variant.char62 : Variant → Char
  | address => '-'
  | standard => '+'

def Variant.char63 : Variant → Char
  | address => '_'
  | standard => '/'

/-- The character of a number below 64. -/
def charOf (v : Variant) (n : Nat) : Char :=
  if n < 26 then Char.ofNat (65 + n)
  else if n < 52 then Char.ofNat (97 + (n - 26))
  else if n < 62 then Char.ofNat (48 + (n - 52))
  else if n = 62 then v.char62
  else v.char63

/-- The number of a character. -/
def valueOf? (v : Variant) (c : Char) : Option Nat :=
  let n := c.toNat
  if 65 ≤ n ∧ n ≤ 90 then some (n - 65)
  else if 97 ≤ n ∧ n ≤ 122 then some (n - 97 + 26)
  else if 48 ≤ n ∧ n ≤ 57 then some (n - 48 + 52)
  else if c = v.char62 then some 62
  else if c = v.char63 then some 63
  else none

/-- The text of a list of bytes, without padding. -/
def encode (v : Variant) : List UInt8 → List Char
  | [] => []
  | [a] => [charOf v (a.toNat / 4), charOf v (a.toNat % 4 * 16)]
  | [a, b] =>
    [charOf v (a.toNat / 4), charOf v (a.toNat % 4 * 16 + b.toNat / 16),
      charOf v (b.toNat % 16 * 4)]
  | a :: b :: c :: rest =>
    charOf v (a.toNat / 4) :: charOf v (a.toNat % 4 * 16 + b.toNat / 16) ::
      charOf v (b.toNat % 16 * 4 + c.toNat / 64) :: charOf v (c.toNat % 64) :: encode v rest

/-- The bytes of a text without padding. -/
def decode? (v : Variant) : List Char → Option (List UInt8)
  | [] => some []
  | [_] => none
  | [p, q] => do
    let p ← valueOf? v p
    let q ← valueOf? v q
    if q % 16 = 0 then some [UInt8.ofNat (p * 4 + q / 16)] else none
  | [p, q, r] => do
    let p ← valueOf? v p
    let q ← valueOf? v q
    let r ← valueOf? v r
    if r % 4 = 0 then some [UInt8.ofNat (p * 4 + q / 16), UInt8.ofNat (q % 16 * 16 + r / 4)]
    else none
  | p :: q :: r :: s :: rest => do
    let p ← valueOf? v p
    let q ← valueOf? v q
    let r ← valueOf? v r
    let s ← valueOf? v s
    let bytes ← decode? v rest
    some (UInt8.ofNat (p * 4 + q / 16) :: UInt8.ofNat (q % 16 * 16 + r / 4) ::
      UInt8.ofNat (r % 4 * 64 + s) :: bytes)

/-- The bytes of a text padded to groups of four characters. -/
def decodePadded? (v : Variant) : List Char → Option (List UInt8)
  | [] => some []
  | [p, q, '=', '='] => decode? v [p, q]
  | [p, q, r, '='] => decode? v [p, q, r]
  | p :: q :: r :: s :: rest => do
    let front ← decode? v [p, q, r, s]
    let bytes ← decodePadded? v rest
    some (front ++ bytes)
  | _ => none

end Invigilator.Base64
