import Invigilator.Json.Basic

/-!
# Walking through values

Changes to all texts of a value, wherever they stand, and the value in which no name is
repeated.
-/

namespace Invigilator.Json

mutual

/-- Applies a function to every text; it is told the name under which the text stands, which is
empty for the items of a list. -/
def mapTexts (f : String → String → String) (name : String) : Json → Json
  | .text s => .text (f name s)
  | .list items => .list (mapItemTexts f items)
  | .object members => .object (mapMemberTexts f members)
  | .null => .null
  | .bool b => .bool b
  | .int n => .int n
  | .real literal => .real literal
  | .torn tear => .torn tear

def mapItemTexts (f : String → String → String) : List Json → List Json
  | [] => []
  | j :: rest => mapTexts f "" j :: mapItemTexts f rest

def mapMemberTexts (f : String → String → String) : List (String × Json) → List (String × Json)
  | [] => []
  | (name, j) :: rest => (name, mapTexts f name j) :: mapMemberTexts f rest

end

/-- The value with every text under one of some names replaced. -/
def hideUnder (names : List String) (text : String) : Json → Json :=
  mapTexts (fun name s => if names.contains name then text else s) ""

mutual

/-- All texts of a value, in order. -/
def texts : Json → List String
  | .text s => [s]
  | .list items => itemTexts items
  | .object members => memberTexts members
  | _ => []

def itemTexts : List Json → List String
  | [] => []
  | j :: rest => texts j ++ itemTexts rest

def memberTexts : List (String × Json) → List String
  | [] => []
  | (_, j) :: rest => texts j ++ memberTexts rest

end

/-- The members with one more, which takes the place of one of its name. -/
def putMember (members : List (String × Json)) (m : String × Json) : List (String × Json) :=
  if members.any fun k => k.1 == m.1 then members.map fun k => if k.1 == m.1 then m else k
  else members ++ [m]

/-- Of members that share a name, the last, in the place of the first. -/
def lastOfEach (members : List (String × Json)) : List (String × Json) :=
  members.foldl putMember []

mutual

/-- The value in which every object has, of members that share a name, only the last. -/
def lastWins : Json → Json
  | .list items => .list (itemsLastWins items)
  | .object members => .object (lastOfEach (membersLastWins members))
  | .text s => .text s
  | .null => .null
  | .bool b => .bool b
  | .int n => .int n
  | .real literal => .real literal
  | .torn tear => .torn tear

def itemsLastWins : List Json → List Json
  | [] => []
  | j :: rest => lastWins j :: itemsLastWins rest

def membersLastWins : List (String × Json) → List (String × Json)
  | [] => []
  | (name, j) :: rest => (name, lastWins j) :: membersLastWins rest

end

end Invigilator.Json
