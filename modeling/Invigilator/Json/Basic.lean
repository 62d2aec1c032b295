/-!
# JSON values

The values that requests, stored records and events are made of. An object keeps its members in
the order they were written and may name one twice: what a repeated name means is for the
reader of a record to say, not for the syntax.

Two constructors exist for numbers. `int` is a literal of digits alone, as many as a field of 64
bits may need; `real` keeps the literal of any other number (`1.0`, `1e3`, `-0`, a hundred
nines), because no record field is read from one and a score writes exactly the digits it chose.
`torn` stands for what is well-formed syntax but no value: a string that holds half a surrogate pair
or bytes that are no character, and an object with such a name.
-/

namespace Invigilator

/-- Where it shows that a string is no text: at its closing quote, or before that. -/
inductive Tear where
  | inside
  | atEnd
deriving DecidableEq, Repr

inductive Json where
  | null
  | bool (b : Bool)
  | int (n : Int)
  | real (literal : List Char)
  | text (s : String)
  | torn (tear : Tear)
  | list (items : List Json)
  | object (members : List (String × Json))
deriving Inhabited

namespace Json

/-- A natural number. -/
def nat (n : Nat) : Json := .int n

/-- A value, or null. -/
def option (write : α → Json) : Option α → Json
  | none => .null
  | some a => write a

/-- A list of values. -/
def listOf (write : α → Json) (as : List α) : Json := .list (as.map write)

/-- The member of that name, the last one if it is repeated. -/
def member? (name : String) : Json → Option Json
  | .object members => (members.reverse.find? fun m => m.1 == name).map Prod.snd
  | _ => none

end Json

end Invigilator
