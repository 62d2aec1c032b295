import Invigilator.Json.Probe
import Invigilator.Json.Record

/-!
# Shapes

What a record must look like, told so that one can say of a text why it is not such a record. The
readers of records say whether a text is one; the shape of a record is asked when it is not.
-/

namespace Invigilator.Json

/-- What a field holds. -/
inductive Content where
  | text
  | optionalText
  | nat32
  | bool
  | word (words : List String)
deriving DecidableEq, Repr

/-- A field with what it holds. -/
structure Slot where
  field : Field
  content : Content

namespace Slot

def plain (name : String) (content : Content) : Slot := ⟨.plain name, content⟩

def defaulted (name : String) (content : Content) : Slot := ⟨.defaulted name, content⟩

def name (s : Slot) : String := s.field.name

/-- Whether an object may leave the field out. -/
def mayMiss (s : Slot) : Bool := s.field.hasDefault || s.content = .optionalText

end Slot

/-- A record: what it is called, and its fields in their order. -/
structure Shape where
  title : String
  slots : List Slot

namespace Shape

/-- What is expected where a list ends too early. -/
def length (s : Shape) : String :=
  s.title ++ " with " ++ Decimal.text s.slots.length ++
    (if s.slots.length = 1 then " element" else " elements")

/-- The field with a name. -/
def find? (s : Shape) (name : String) : Option Slot := s.slots.find? fun f => f.name = name

/-- Complains of the first field that is missing in an object with some of them. -/
def checkMissing (s : Shape) (seen : List String) : Except Complaint Unit :=
  match s.slots.find? fun f => !f.mayMiss && !seen.contains f.name with
  | some f => .error (missingField f.name)
  | none => .ok ()

/-- Complains of the first field that is missing in a list, given those behind its end and the
place of the end. -/
def checkRest (s : Shape) (rest : List Slot) (place : Nat) : Except Complaint Unit :=
  match rest.findIdx? fun f => !f.field.hasDefault with
  | some n => .error (wrongLength (place + n) s.length)
  | none => .ok ()

end Shape

/-- A tagged record: what it is called, and its variants. One without a shape has no fields. -/
structure TaggedShape where
  title : String
  variants : List (String × Option Shape)

/-! ## Texts -/

namespace Probe

def ofExcept (result : Except Complaint Unit) : Probe Unit :=
  match result with
  | .ok _ => return
  | .error c => throw c

/-- A text that stands for a field. -/
def text : Probe Unit := do
  if (← peekValue) = '"' then
    eat
    discard (string true)
  else mistyped "a string"

/-- A whole number of 32 bits. -/
def nat32 : Probe Unit := do
  let c ← peekValue
  if c = '-' ∨ Decimal.isDigit c then
    if c = '-' then eat
    let j ← number (c = '-')
    let spot := (← get).spot
    match j with
    | .int (.ofNat n) => if n < Nat.pow 2 32 then return else throw ((wrongValue j "u32").placed spot)
    | .int _ => throw ((wrongValue j "u32").placed spot)
    | _ => throw ((wrongType j "u32").placed spot)
  else mistyped "u32"

def bool : Probe Unit := do
  match ← peekValue with
  | 't' => eat; word "rue".toList
  | 'f' => eat; word "alse".toList
  | _ => mistyped "a boolean"

/-- The name of a variant. -/
def variantName (names : List String) : Probe String := do
  if (← peekValue) = '"' then
    eat
    let name ← string true
    if names.contains name then return name
    else throw ((unknownVariant name names).placed (← get).spot)
  else mistyped "variant identifier"

/-- Nothing, as it stands under the name of a word. -/
def nothing : Probe Unit := do
  if (← peekValue) = 'n' then
    eat
    Probe.word "ull".toList
  else mistyped "unit"

/-- A word of a list, bare or as the name of nothing. -/
def wordOf (names : List String) : Probe Unit := do
  match ← peekSolid with
  | some '\x7b' => do
    eat
    match ← peekSolid with
    | some '"' => pure ()
    | some '\x7d' => failAhead .noValue
    | some _ => failAhead .nameNotText
    | none => failAhead .endInObject
    let name ← variantName names
    colon
    within (.member name) nothing
    match ← peekSolid with
    | some '\x7d' => eat
    | some _ => failHere .noValue
    | none => failHere .endInObject
  | some '"' => discard (variantName names)
  | some _ => failAhead .noValue
  | none => failAhead .endAtValue

/-- What a field holds. -/
def content : Content → Probe Unit
  | .text => text
  | .optionalText => do
    if (← peekSolid) = some 'n' then
      eat
      Probe.word "ull".toList
    else text
  | .nat32 => nat32
  | .bool => bool
  | .word words => wordOf words

/-- The items of a list, each for a field, from a place on. -/
def listed (s : Shape) : List Slot → (place : Nat) → Probe Unit
  | [], _ => return
  | slot :: rest, place => do
    if ← hasItem (place = 0) then
      within (.item place) (content slot.content)
      listed s rest (place + 1)
    else ofExcept (s.checkRest (slot :: rest) place)

/-- The members of an object, whether or not some came before. -/
def named (s : Shape) : (fuel : Nat) → (seen : List String) → (isFirst : Bool) → Probe Unit
  | 0, _, _ => return
  | fuel + 1, seen, isFirst => do
    match ← memberName isFirst with
    | none => ofExcept (s.checkMissing seen)
    | some name =>
      match s.find? name with
      | none =>
        colon
        within (.member name) (skip fuel)
        named s fuel seen false
      | some slot =>
        if seen.contains name then throw (repeatedField name)
        colon
        within (.member name) (content slot.content)
        named s fuel (name :: seen) false

/-- A record. -/
def record (fuel : Nat) (s : Shape) : Probe Unit := do
  match ← peekValue with
  | '[' => closedBy endList (listed s s.slots 0)
  | '\x7b' => closedBy endObject (named s fuel [] true)
  | _ => mistyped s.title

end Probe

/-! ## Held values -/

namespace Shape

/-- Complains of a held value that does not fit a field. -/
def checkHeld (j : Json) : Content → Except Complaint Unit
  | .bool => if j matches .bool _ then .ok () else .error (wrongType j "a boolean")
  | _ => if j matches .text _ then .ok () else .error (wrongType j "a string")

/-- Goes over the members of a held object. -/
def checkMembers (s : Shape) (seen : List String) : List (String × Json) → Except Complaint Unit
  | [] => s.checkMissing seen
  | (name, j) :: rest =>
    match s.find? name with
    | none => checkMembers s seen rest
    | some slot => do
      if seen.contains name then throw (repeatedField name)
      checkHeld j slot.content
      checkMembers s (name :: seen) rest

/-- Goes over the items of a held list; `count` is their number. -/
def checkItems (s : Shape) (count place : Nat) : List Slot → List Json → Except Complaint Unit
  | slots, [] => s.checkRest slots place
  | [], _ :: _ =>
    .error (wrongLength count (Decimal.text place ++
      (if place = 1 then " element in sequence" else " elements in sequence")))
  | slot :: slots, j :: items => do
    checkHeld j slot.content
    checkItems s count (place + 1) slots items

/-- Complains of a held value that is not the rest of a variant. -/
def check (s : Option Shape) : Json → Except Complaint Unit
  | .object members =>
    match s with
    | some s => s.checkMembers [] members
    | none => .ok ()
  | .list items => (s.getD ⟨"", []⟩).checkItems items.length 0 (s.getD ⟨"", []⟩).slots items
  | _ => .ok ()

end Shape

/-! ## Tagged records -/

namespace Probe

/-- The tag and the other members of an object, onto those in front of them, last one first. -/
def taggedMembers (fuel levels : Nat) (names : List String) :
    (rounds : Nat) → (isFirst : Bool) → (tag : Option String) → (done : List (String × Json)) →
      Probe (String × List (String × Json))
  | 0, _, tag, done => return (tag.getD "", done.reverse)
  | rounds + 1, isFirst, tag, done => do
    match ← memberName isFirst with
    | none =>
      match tag with
      | some tag => return (tag, done.reverse)
      | none => throw (missingField "type")
    | some "type" =>
      if tag.isSome then throw (repeatedField "type")
      colon
      let tag ← within (.member "type") (variantName names)
      taggedMembers fuel levels names rounds false (some tag) done
    | some name =>
      colon
      let j ← within (.member name) (value fuel levels)
      taggedMembers fuel levels names rounds false tag ((name, j) :: done)

/-- The tag in front of a list, and the items behind it. -/
def taggedItems (fuel levels : Nat) (names : List String) : Probe (String × List Json) := do
  if ← hasItem true then
    let tag ← within (.item 0) (variantName names)
    return (tag, ← items (value fuel levels) fuel 1 [])
  else throw (missingField "type")

/-- A tagged record. What is wrong with the fields of a variant shows when the text has been read,
so it has no spot. -/
def tagged (fuel levels : Nat) (s : TaggedShape) : Probe Unit := do
  let names := s.variants.map Prod.fst
  let (tag, fields) ←
    match ← peekValue with
    | '[' => do
      let (tag, items) ← closedBy endList (taggedItems fuel levels names)
      pure (tag, Json.list items)
    | '\x7b' => do
      let (tag, members) ← closedBy endObject (taggedMembers fuel levels names fuel true none [])
      pure (tag, Json.object members)
    | _ => mistyped s.title
  ofExcept (Shape.check ((s.variants.lookup tag).getD none) fields)

/-- The end of the text. -/
def ending : Probe Unit := do
  if (← peekSolid).isSome then failAhead .trailing

end Probe

/-- What a probe complains of in a text, if it does; the probe is told the length of the text. -/
def complaint? (probe : (fuel : Nat) → Probe Unit) (text : String) : Option Complaint :=
  let bytes := text.toUTF8.toList
  match ((do probe bytes.length; Probe.ending : Probe Unit).run ⟨Spot.start, bytes⟩).1 with
  | .error c => some c
  | .ok _ => none

/-- Why a text is no record of a shape. -/
def Shape.complaint? (s : Shape) (text : String) : Option Complaint :=
  Json.complaint? (fun fuel => Probe.record fuel s) text

/-- Why a text is no tagged record of a shape. -/
def TaggedShape.complaint? (s : TaggedShape) (text : String) : Option Complaint :=
  Json.complaint? (fun fuel => Probe.tagged fuel (depthLimit - 1) s) text

end Invigilator.Json
