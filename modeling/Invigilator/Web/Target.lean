import Invigilator.Access.Token
import Invigilator.Text.Decimal
import Invigilator.Text.Utf8

/-!
# Values in targets

The values in the path and the query of a request. Characters of a value may be written by their
code; a value whose bytes are no text is none. What is wrong with a value is told in words.

A path has a label under which its requests are counted. Ids and numbers in it are replaced, so
there are only so many labels.
-/

namespace Invigilator.Web

/-! ## Values written by code -/

/-- The value of a hexadecimal digit. -/
def hexValue? (b : UInt8) : Option UInt8 :=
  if 48 ≤ b ∧ b ≤ 57 then some (b - 48)
  else if 65 ≤ b ∧ b ≤ 70 then some (b - 55)
  else if 97 ≤ b ∧ b ≤ 102 then some (b - 87)
  else none

/-- The bytes of a value in which `%` and two digits stand for a byte. -/
def percentDecode : List UInt8 → List UInt8
  | 37 :: a :: b :: rest =>
    match hexValue? a, hexValue? b with
    | some x, some y => (x * 16 + y) :: percentDecode rest
    | _, _ => 37 :: percentDecode (a :: b :: rest)
  | b :: rest => b :: percentDecode rest
  | [] => []

/-- The text that a value stands for. -/
def valueOf? (cs : List Char) : Option String :=
  Token.textOf? (percentDecode (Token.bytesOf (String.ofList cs)))

/-- A number of 64 bits; a plus sign may stand in front. -/
def index? (text : String) : Option Nat := do
  let n ←
    match text.toList with
    | '+' :: digits => Decimal.read? digits
    | digits => Decimal.read? digits
  if n < Nat.pow 2 64 then some n else none

/-- Why the values of a path cannot be read. -/
inductive PathFault where
  /-- The bytes of a value are no text. -/
  | notText (name : String)
  /-- A value is no number; its place is counted from zero. -/
  | notNumber (place : Nat) (value : String)
deriving DecidableEq, Repr

def PathFault.message : PathFault → String
  | notText name => "Invalid URL: Invalid UTF-8 in \x60" ++ name ++ "\x60"
  | notNumber place value =>
    "Invalid URL: Cannot parse value at index " ++ Decimal.text place ++ " with value \x60" ++
      value ++ "\x60 to a \x60u64\x60"

/-- The text of a value with a name. -/
def text (name : String) (value : List Char) : Except PathFault String :=
  match valueOf? value with
  | some text => .ok text
  | none => .error (.notText name)

/-- The text and the number of a question's path. -/
def textAndNumber (value number : List Char) : Except PathFault (String × Nat) := do
  let id ← text "id" value
  let digits ← text "index" number
  match index? digits with
  | some n => .ok (id, n)
  | none => .error (.notNumber 1 digits)

/-! ## Signed numbers -/

/-- Why a text is no signed number of 64 bits. -/
inductive NumberFault where
  | empty
  | badDigit
  | tooLarge
  | tooSmall
deriving DecidableEq, Repr

def NumberFault.message : NumberFault → String
  | empty => "cannot parse integer from empty string"
  | badDigit => "invalid digit found in string"
  | tooLarge => "number too large to fit in target type"
  | tooSmall => "number too small to fit in target type"

/-- Adds digits to a number, up to a limit; the first that is none, or too many, is the fault. -/
def addDigits (limit : Nat) (overflow : NumberFault) (n : Nat) : List Char → Except NumberFault Nat
  | [] => .ok n
  | c :: rest =>
    if Decimal.isDigit c then
      let n := n * 10 + Decimal.digitValue c
      if n ≤ limit then addDigits limit overflow n rest else .error overflow
    else .error .badDigit

/-- Reads a signed number of 64 bits. -/
def signed (text : String) : Except NumberFault Int :=
  let some_ (digits : List Char) (read : Except NumberFault Int) : Except NumberFault Int :=
    if digits.isEmpty then .error .badDigit else read
  match text.toList with
  | [] => .error .empty
  | '-' :: digits =>
    some_ digits ((addDigits (Nat.pow 2 63) .tooSmall 0 digits).map fun n => -(n : Int))
  | '+' :: digits => some_ digits ((addDigits (Nat.pow 2 63 - 1) .tooLarge 0 digits).map Int.ofNat)
  | digits => (addDigits (Nat.pow 2 63 - 1) .tooLarge 0 digits).map Int.ofNat

/-! ## Queries -/

/-- A name or value of a query: a plus sign is a blank, and bytes that are no text are replaced. -/
def queryText (cs : List Char) : String :=
  Utf8.replaced (percentDecode (Token.bytesOf (String.ofList (cs.map fun c =>
    if c = '+' then ' ' else c))))

/-- The values that a query gives for a name. -/
def valuesOf (name : String) (query : List Char) : List String :=
  (Text.splitOn '&' query).filterMap fun pair =>
    let (key, value) := (Text.cutAt '=' pair).getD (pair, [])
    if queryText key = name then some (queryText value) else none

/-- Why a query is refused. -/
inductive QueryFault where
  | number (fault : NumberFault)
  | repeated
deriving DecidableEq, Repr

def QueryFault.message (fault : QueryFault) : String :=
  "Failed to deserialize query string: " ++
    match fault with
    | .number fault => "limit: " ++ fault.message
    | .repeated => "duplicate field \x60limit\x60"

/-- The limit that a query asks for: none, or one number. -/
def limit (query : List Char) : Except QueryFault (Option Int) :=
  match valuesOf "limit" query with
  | [] => .ok none
  | value :: rest =>
    match signed value with
    | .error fault => .error (.number fault)
    | .ok n => if rest.isEmpty then .ok (some n) else .error .repeated

/-! ## Labels -/

/-- A segment of 36 hexadecimal digits and hyphens. -/
def looksLikeId (cs : List Char) : Bool :=
  cs.length = 36 && cs.all fun c =>
    c = '-' || (hexValue? (UInt8.ofNat c.toNat)).isSome && c.toNat < 128

def isNumber (cs : List Char) : Bool := !cs.isEmpty && cs.all Decimal.isDigit

/-- The segments behind which a user's id stands. -/
def userParents : List (List Char) := ["eligibility".toList, "lives".toList]

/-- The segments behind them that are no user's id. -/
def notUsers : List (List Char) := ["lose".toList, "blocked".toList]

/-- The label of a segment behind another. -/
def segmentLabel (parent : Option (List Char)) (segment : List Char) : List Char :=
  if looksLikeId segment || isNumber segment then "\x7bid\x7d".toList
  else if parent.any userParents.contains && !notUsers.contains segment then
    "\x7buser_id\x7d".toList
  else segment

/-- The labels of segments behind another. -/
def segmentLabels (parent : Option (List Char)) : List (List Char) → List (List Char)
  | [] => []
  | segment :: rest => segmentLabel parent segment :: segmentLabels (some segment) rest

/-- The label under which the requests of a path are counted. -/
def pathLabel (path : List Char) : String :=
  String.ofList (['/'].intercalate (segmentLabels none (Text.splitOn '/' path)))

end Invigilator.Web
