/-!
# Ids

Ids of sessions, violations and traces: 36 characters in groups of 8, 4, 4, 4 and 12,
hexadecimal digits with hyphens in between. They are written in lower case and read in either.
-/

namespace Invigilator.Id

/-- Whether a character is a hexadecimal digit of either case. -/
def isHex (c : Char) : Bool :=
  ('0' ≤ c && c ≤ '9') || ('a' ≤ c && c ≤ 'f') || ('A' ≤ c && c ≤ 'F')

/-- The groups of an id. -/
def groups : List Nat := [8, 4, 4, 4, 12]

/-- The rest of a text behind so many hexadecimal digits. -/
def afterHex : Nat → List Char → Option (List Char)
  | 0, cs => some cs
  | _ + 1, [] => none
  | n + 1, c :: rest => if isHex c then afterHex n rest else none

/-- The rest of a text behind groups of hexadecimal digits with hyphens in between. -/
def afterGroups : List Nat → List Char → Option (List Char)
  | [], cs => some cs
  | [n], cs => afterHex n cs
  | n :: more, cs =>
    match afterHex n cs with
    | some ('-' :: rest) => afterGroups more rest
    | _ => none

/-- The rest of a text behind an id. -/
def after? (cs : List Char) : Option (List Char) := afterGroups groups cs

/-- Whether a text is an id. -/
def isId (s : String) : Bool := after? s.toList == some []

/-- The text with every id renamed. -/
def renameChars (name : String → String) : (fuel : Nat) → List Char → List Char
  | 0, cs => cs
  | _ + 1, [] => []
  | fuel + 1, c :: rest =>
    match after? (c :: rest) with
    | some behind =>
      (name (String.ofList ((c :: rest).take 36))).toList ++ renameChars name fuel behind
    | none => c :: renameChars name fuel rest

/-- The text with every id renamed. -/
def rename (name : String → String) (s : String) : String :=
  String.ofList (renameChars name s.length s.toList)

/-- The hexadecimal digit of a number below sixteen. -/
def hexDigit (n : Nat) : Char := if n < 10 then Char.ofNat (48 + n) else Char.ofNat (87 + n)

/-- The last so many hexadecimal digits of a number. -/
def hexDigits : (width n : Nat) → List Char
  | 0, _ => []
  | width + 1, n => hexDigits width (n / 16) ++ [hexDigit (n % 16)]

/-- How the numbered ids of a kind, a hexadecimal digit, begin. -/
def front (kind : Char) : List Char := "00000000-0000-4000-".toList ++ kind :: "000-".toList

/-- The id with a number and a kind. -/
def numbered (kind : Char) (n : Nat) : String := String.ofList (front kind ++ hexDigits 12 n)

/-- Whether a text is a numbered id of a kind. -/
def hasKind (kind : Char) (s : String) : Bool := isId s && (front kind).isPrefixOf s.toList

end Invigilator.Id
