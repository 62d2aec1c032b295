import Invigilator.Json.Record

/-!
# Three of a kind

An exam has three questions, in presentation order; what belongs to them comes in threes.
-/

namespace Invigilator

/-- Three things in order. -/
structure Trio (α : Type) where
  first : α
  second : α
  third : α
deriving DecidableEq, Repr, Inhabited

namespace Trio

def map (f : α → β) (t : Trio α) : Trio β := ⟨f t.first, f t.second, f t.third⟩

def toList (t : Trio α) : List α := [t.first, t.second, t.third]

/-- The three members of a list that has exactly three. -/
def ofList? : List α → Option (Trio α)
  | [a, b, c] => some ⟨a, b, c⟩
  | _ => none

def toJson (write : α → Json) (t : Trio α) : Json := .list (t.toList.map write)

def ofJson? (read : Json → Option α) (j : Json) : Option (Trio α) :=
  (Json.listOf? read j).bind ofList?

@[simp] theorem ofList?_toList (t : Trio α) : ofList? t.toList = some t := rfl

@[simp] theorem length_toList (t : Trio α) : t.toList.length = 3 := rfl

end Trio

end Invigilator
