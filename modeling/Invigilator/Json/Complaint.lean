import Invigilator.Json.Basic
import Invigilator.Json.Literal
import Invigilator.Text.Quoted

/-!
# Complaints

What is said of a text that cannot be read: what is wrong with it, at which spot, and in which
member or item of its value. Either the text breaks the syntax, or it is a value that does not fit
where it stands.
-/

namespace Invigilator.Json

/-- How a text breaks the syntax. -/
inductive Break where
  | endInList
  | endInObject
  | endInText
  | endAtValue
  | noColon
  | noListComma
  | noObjectComma
  | unknownWord
  | noValue
  | badEscape
  | badNumber
  | hugeNumber
  | control
  | nameNotText
  | loneHalf
  | noOtherHalf
  | trailingComma
  | trailing
  | tooDeep
deriving DecidableEq, Repr

def Break.text : Break → String
  | endInList => "EOF while parsing a list"
  | endInObject => "EOF while parsing an object"
  | endInText => "EOF while parsing a string"
  | endAtValue => "EOF while parsing a value"
  | noColon => "expected \x60:\x60"
  | noListComma => "expected \x60,\x60 or \x60]\x60"
  | noObjectComma => "expected \x60,\x60 or \x60\x7d\x60"
  | unknownWord => "expected ident"
  | noValue => "expected value"
  | badEscape => "invalid escape"
  | badNumber => "invalid number"
  | hugeNumber => "number out of range"
  | control => "control character (\\u0000-\\u001F) found while parsing a string"
  | nameNotText => "key must be a string"
  | loneHalf => "lone leading surrogate in hex escape"
  | noOtherHalf => "unexpected end of hex escape"
  | trailingComma => "trailing comma"
  | trailing => "trailing characters"
  | tooDeep => "recursion limit exceeded"

/-- A spot in a text: its line, counted from one, and the bytes of that line in front of it. -/
structure Spot where
  line : Nat
  column : Nat
deriving DecidableEq, Repr, Inhabited

namespace Spot

/-- The spot at which a text starts. -/
def start : Spot := ⟨1, 0⟩

/-- The spot behind a byte. -/
def behind (s : Spot) (b : UInt8) : Spot :=
  if b = 10 then ⟨s.line + 1, 0⟩ else ⟨s.line, s.column + 1⟩

def text (s : Spot) : String :=
  " at line " ++ Decimal.text s.line ++ " column " ++ Decimal.text s.column

end Spot

/-- A step from a value to one of its parts. -/
inductive Step where
  | member (name : String)
  | item (place : Nat)
  /-- A member whose name cannot be read. -/
  | nameless
deriving DecidableEq, Repr

/-- The steps to a part of a value, in words. -/
def stepsText : List Step → String
  | [] => ""
  | step :: rest =>
    let behind := stepsText rest
    let dotted := match rest with
      | [] => behind
      | .item _ :: _ => behind
      | _ => "." ++ behind
    match step with
    | .member name => name ++ dotted
    | .item place => "[" ++ Decimal.text place ++ "]" ++ dotted
    | .nameless => "?" ++ dotted

inductive Flaw where
  /-- The text breaks the syntax. -/
  | syntactic (b : Break)
  /-- A value does not fit. -/
  | misfit (text : String)
deriving DecidableEq, Repr

def Flaw.text : Flaw → String
  | syntactic b => b.text
  | misfit text => text

structure Complaint where
  flaw : Flaw
  spot : Option Spot
  steps : List Step
deriving DecidableEq, Repr

namespace Complaint

/-- A complaint of a value, before it is known where it stands. -/
def misfit (text : String) : Complaint := ⟨.misfit text, none, []⟩

/-- A complaint about a part of a value, seen from the whole. -/
def within (c : Complaint) (step : Step) : Complaint := { c with steps := step :: c.steps }

/-- The complaint with a spot, if it has none of its own. -/
def placed (c : Complaint) (spot : Spot) : Complaint := { c with spot := c.spot.or (some spot) }

/-- Whether a complaint can tell a part of the value by a name or a place. -/
def isLocated (c : Complaint) : Bool := c.steps.any (· ≠ .nameless)

def text (c : Complaint) : String :=
  (if c.isLocated then stepsText c.steps ++ ": " else "") ++ c.flaw.text ++
    (c.spot.map Spot.text).getD ""

end Complaint

/-! ## What does not fit -/

/-- What was found, in words. -/
def found : Json → String
  | .null => "null"
  | .bool b => "boolean \x60" ++ (if b then "true" else "false") ++ "\x60"
  | .int n => "integer \x60" ++ Decimal.intText n ++ "\x60"
  | .real literal => "floating point \x60" ++ (Literal.ofChars literal).text ++ "\x60"
  | .text s => "string " ++ Text.quoted s
  | .torn _ => "string"
  | .list _ => "sequence"
  | .object _ => "map"

/-- A value is of another type than was expected. -/
def wrongType (j : Json) (expected : String) : Complaint :=
  .misfit ("invalid type: " ++ found j ++ ", expected " ++ expected)

/-- A value is of the right type, but none of those that were expected. -/
def wrongValue (j : Json) (expected : String) : Complaint :=
  .misfit ("invalid value: " ++ found j ++ ", expected " ++ expected)

/-- A list ends too early or too late. -/
def wrongLength (length : Nat) (expected : String) : Complaint :=
  .misfit ("invalid length " ++ Decimal.text length ++ ", expected " ++ expected)

def missingField (name : String) : Complaint := .misfit ("missing field \x60" ++ name ++ "\x60")

def repeatedField (name : String) : Complaint :=
  .misfit ("duplicate field \x60" ++ name ++ "\x60")

/-- Words to choose from. -/
def choices : List String → String
  | [a, b] => "\x60" ++ a ++ "\x60 or \x60" ++ b ++ "\x60"
  | [a] => "\x60" ++ a ++ "\x60"
  | words => "one of " ++ ", ".intercalate (words.map fun w => "\x60" ++ w ++ "\x60")

/-- A word is none of those to choose from. -/
def unknownVariant (name : String) (words : List String) : Complaint :=
  .misfit ("unknown variant \x60" ++ name ++ "\x60, expected " ++ choices words)

end Invigilator.Json
