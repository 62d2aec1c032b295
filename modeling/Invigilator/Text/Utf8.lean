/-!
# UTF-8

Bytes as characters. The decoder goes on behind bytes that are no part of a character, so a
reader can tell a text that is spoilt in one place from one that is no text at all.
-/

namespace Invigilator.Utf8

/-- Whether a byte can follow the first one of a character. -/
def isTail (b : UInt8) : Bool := 0x80 ≤ b && b < 0xc0

/-- The six bits of a byte that follows the first one. -/
def tailBits (b : UInt8) : Nat := b.toNat - 0x80

/-- The character of a scalar value that must not be written with fewer bytes. -/
def scalar? (least value : Nat) : Option Char :=
  if least ≤ value ∧ value < 0x110000 ∧ ¬(0xd800 ≤ value ∧ value < 0xe000) then
    some (Char.ofNat value)
  else none

/-- The character at the front of a list of bytes, and how many bytes follow its first one. -/
def front? : List UInt8 → Option (Char × Nat)
  | [] => none
  | a :: rest =>
    if a < 0x80 then some (Char.ofNat a.toNat, 0)
    else if a < 0xe0 then
      match rest with
      | b :: _ =>
        if 0xc0 ≤ a && isTail b then
          (scalar? 0x80 ((a.toNat - 0xc0) * 64 + tailBits b)).map (·, 1)
        else none
      | _ => none
    else if a < 0xf0 then
      match rest with
      | b :: c :: _ =>
        if isTail b && isTail c then
          (scalar? 0x800 (((a.toNat - 0xe0) * 64 + tailBits b) * 64 + tailBits c)).map (·, 2)
        else none
      | _ => none
    else
      match rest with
      | b :: c :: d :: _ =>
        if a < 0xf8 && isTail b && isTail c && isTail d then
          (scalar? 0x10000
            ((((a.toNat - 0xf0) * 64 + tailBits b) * 64 + tailBits c) * 64 + tailBits d)).map (·, 3)
        else none
      | _ => none

/-- The characters of a list of bytes, with `none` for each byte that is part of none. -/
def pieces : List UInt8 → List (Option Char)
  | [] => []
  | a :: rest =>
    match front? (a :: rest) with
    | some (c, more) => some c :: pieces (rest.drop more)
    | none => none :: pieces rest
termination_by bytes => bytes.length
decreasing_by
  · simp only [List.length_cons, List.length_drop]; omega
  · simp

/-- The text of a list of bytes, with a replacement character for each that is part of none. -/
def replaced (bytes : List UInt8) : String :=
  String.ofList ((pieces bytes).map fun c? => c?.getD '\ufffd')

end Invigilator.Utf8
