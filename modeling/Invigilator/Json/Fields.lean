import Invigilator.Json.Record

/-!
# Fields

Reading the members of an object one after the other, each when it is needed. The first that is
missing or cannot be read is the cause of failure, by its name. A member that is null counts as
missing.
-/

namespace Invigilator.Json

variable {α : Type}

/-- A member that may be missing. -/
def field? (name : String) (read : Json → Option α) (j : Json) : Except String (Option α) :=
  match j.member? name with
  | none => .ok none
  | some .null => .ok none
  | some v =>
    match read v with
    | some x => .ok (some x)
    | none => .error name

/-- A member that must be there. -/
def field (name : String) (read : Json → Option α) (j : Json) : Except String α :=
  match j.field? name read with
  | .ok (some x) => .ok x
  | .ok none => .error name
  | .error e => .error e

/-- A member with a default. -/
def fieldOr (name : String) (default : α) (read : Json → Option α) (j : Json) :
    Except String α :=
  (j.field? name read).map fun x? => x?.getD default

/-- A table of texts. -/
def table? : Json → Option (List (String × String))
  | .object members => members.mapM fun (name, j) => j.text?.map fun t => (name, t)
  | _ => none

/-- An object, whatever it holds. -/
def object? : Json → Option Json
  | .object members => some (.object members)
  | _ => none

end Invigilator.Json
