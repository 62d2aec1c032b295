import Invigilator.Json.Held
import Invigilator.Json.Text

/-!
# Records

How typed records are read from JSON values. A record is an object with its fields under their
names, in any order and among unknown ones, or a list of its fields in order. A tagged record
names its variant under `type`, or in front of the list.

A field is read from its slot: what the value holds for it, `none` if it holds nothing. The
three kinds of field differ in what an empty slot means.
-/

namespace Invigilator.Json

/-! ## Plain values -/

def bool? : Json → Option Bool
  | .bool b => some b
  | _ => none

def text? : Json → Option String
  | .text s => some s
  | _ => none

/-- A natural number below a limit. -/
def natBelow? (limit : Nat) : Json → Option Nat
  | .int (.ofNat n) => if n < limit then some n else none
  | _ => none

/-- A whole number of eight bits. -/
def nat8? : Json → Option Nat := natBelow? (Nat.pow 2 8)

/-- A whole number of 32 bits. -/
def nat32? : Json → Option Nat := natBelow? (Nat.pow 2 32)

/-- A whole number of 64 bits. -/
def nat64? : Json → Option Nat := natBelow? (Nat.pow 2 64)

/-- A signed whole number of the given number of bits. -/
def intOfBits? (bits : Nat) : Json → Option Int
  | .int n => if -Int.pow 2 (bits - 1) ≤ n ∧ n < Int.pow 2 (bits - 1) then some n else none
  | _ => none

/-- A signed whole number of 64 bits. -/
def int64? : Json → Option Int := intOfBits? 64

/-- Reads every item of a list. -/
def listOf? (read : Json → Option α) : Json → Option (List α)
  | .list items => items.mapM read
  | _ => none

/-- The entry of a table. -/
def entry? (table : List (String × α)) (name : String) : Option α :=
  (table.find? fun e => e.1 == name).map Prod.snd

/-- A word of a fixed list: its name, or an object that holds nothing under its name. -/
def word? (table : List (String × α)) : Json → Option α
  | .text name => entry? table name
  | .object [(name, .null)] => entry? table name
  | _ => none

/-- A word of a fixed list inside a held value, where an empty object also counts as nothing. -/
def heldWord? (table : List (String × α)) : Json → Option α
  | .object [(name, .object [])] => entry? table name
  | j => word? table j

/-! ## Fields -/

/-- A field of a record. A list may end before a field that has a default. -/
structure Field where
  name : String
  hasDefault : Bool

/-- A field that a list of fields must hold. -/
def Field.plain (name : String) : Field := ⟨name, false⟩

/-- A field with a default. -/
def Field.defaulted (name : String) : Field := ⟨name, true⟩

/-- The slots of a record that is written as a list of fields. -/
def slotsOfItems : List Field → List Json → Option (List (Option Json))
  | [], [] => some []
  | [], _ :: _ => none
  | f :: fields, [] =>
    if f.hasDefault then (slotsOfItems fields []).map (none :: ·) else none
  | _ :: fields, j :: items => (slotsOfItems fields items).map (some j :: ·)

/-- The slot of one field among the members of an object; a field given twice has none. -/
def slotOfMembers (members : List (String × Json)) (f : Field) : Option (Option Json) :=
  match members.filter fun m => m.1 == f.name with
  | [] => some none
  | [m] => some (some m.2)
  | _ => none

/-- The slots of a record's fields, in their order. -/
def slots? (fields : List Field) : Json → Option (List (Option Json))
  | .object members => fields.mapM (slotOfMembers members)
  | .list items => slotsOfItems fields items
  | _ => none

/-- A field that must be there. -/
def needed (read : Json → Option α) : Option Json → Option α
  | none => none
  | some j => read j

/-- A field that may be missing or null. -/
def optional (read : Json → Option α) : Option Json → Option (Option α)
  | none => some none
  | some .null => some none
  | some j => (read j).map some

/-- A field that may be missing, but not null. -/
def withDefault (default : α) (read : Json → Option α) : Option Json → Option α
  | none => some default
  | some j => read j

/-! ## Tagged records -/

/--
Where a tagged record stands: in a text, below so many lists and objects, or in a value that is
in memory already.
-/
inductive Place where
  | text (outer : Nat)
  | memory
deriving DecidableEq, Repr

/-- Whether a value at a place can be had in memory. -/
def Place.holds (place : Place) (j : Json) : Bool :=
  match place with
  | .text outer => j.isHeldBelow outer
  | .memory => true

/-- The tag of a tagged record: the name of a variant, or inside a held value its number. -/
def tag? (place : Place) (variants : List String) : Json → Option String
  | .text name => if variants.contains name then some name else none
  | .int (.ofNat n) => if place = .memory then variants[n]? else none
  | _ => none

/-- The variant of a tagged record, and the value that holds its fields. -/
def variant? (place : Place) (variants : List String) (j : Json) : Option (String × Json) :=
  if place.holds j then
    match j with
    | .object members =>
      match members.filter fun m => m.1 == "type" with
      | [m] =>
        (tag? place variants m.2).map fun name =>
          (name, .object (members.filter fun m => m.1 != "type"))
      | _ => none
    | .list (t :: items) => (tag? place variants t).map fun name => (name, .list items)
    | _ => none
  else none

/-- The fields of a variant that has none: an object may hold anything, a list nothing. -/
def noFields? : Json → Option Unit
  | .object _ => some ()
  | .list [] => some ()
  | _ => none

/-- Writes a tagged record, the tag first. -/
def tagged (name : String) (members : List (String × Json)) : Json :=
  .object (("type", .text name) :: members)

end Invigilator.Json
