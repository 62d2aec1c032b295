import Invigilator.Text.Cut
import Invigilator.Text.Decimal

/-!
# Settings by key

What the variables of an environment set, as a tree. A variable such as `APP__EXAM__MAX_LIVES`
sets the entry `max_lives` of the table `exam`, in any case of letters; brackets behind a name
count the items of a list, from its end if the number is negative. A key that is no path is one
entry of the root, under its whole text.
-/

namespace Invigilator

/-- The variables of an environment. -/
abbrev Environs := List (String × String)

/-- A value that was set, and what was set below it. -/
inductive Setting where
  | absent
  | text (s : String)
  | list (items : List Setting)
  | table (entries : List (String × Setting))
deriving Inhabited

namespace Setting

/-! ## Paths -/

/-- A step from a setting to one below it. -/
inductive Step where
  | entry (name : String)
  | item (index : Int)
deriving DecidableEq, Repr

/-- Whether a character can be part of a name. -/
def isNameChar (c : Char) : Bool :=
  ('a' ≤ c && c ≤ 'z') || ('A' ≤ c && c ≤ 'Z') || Decimal.isDigit c || c == '_' || c == '-'

def isSpace (c : Char) : Bool := c == ' ' || c == '\t'

/-- The number in a pair of brackets, from which the closing one was taken. -/
def index? : List Char → Option Int
  | '[' :: inside =>
    let digits := ((inside.dropWhile isSpace).reverse.dropWhile isSpace).reverse
    let n? : Option Int :=
      match digits with
      | '-' :: digits => (Decimal.read? digits).map fun n => -(n : Int)
      | digits => (Decimal.read? digits).map fun n => (n : Int)
    n?.filter fun n => -Int.pow 2 63 ≤ n ∧ n < Int.pow 2 63
  | _ => none

/-- The steps of a part between dots: a name and any number of items below it. -/
def partSteps? (part : List Char) : Option (List Step) :=
  let name := part.takeWhile isNameChar
  match (Text.splitOn ']' (part.dropWhile isNameChar)).reverse with
  | [] :: brackets =>
    if name.isEmpty then none
    else
      (brackets.reverse.mapM index?).map fun indices =>
        .entry (String.ofList name) :: indices.map .item
  | _ => none

/-- The steps of a key, if it is a path. -/
def path? (key : List Char) : Option (List Step) :=
  ((Text.splitOn '.' key).mapM partSteps?).map List.flatten

/-- The steps of any key. -/
def path (key : List Char) : List Step := (path? key).getD [.entry (String.ofList key)]

/-! ## Setting and finding -/

/-- The list with room for an item, and where the item stands. Room is made by absent items. -/
def room (index : Int) (items : List Setting) : List Setting × Nat :=
  match index with
  | .ofNat n => (items ++ List.replicate (n + 1 - items.length) .absent, n)
  | .negSucc n =>
    (List.replicate (n + 1 - items.length) .absent ++ items, items.length - (n + 1))

/-- Sets what lies at the end of a path. What stands in its way is replaced. -/
def put (value : Setting) : List Step → Setting → Setting
  | [], _ => value
  | .entry name :: rest, s =>
    let entries :=
      match s with
      | .table entries => entries
      | _ => []
    let old := (entries.lookup name).getD .absent
    .table ((name, put value rest old) :: entries.filter fun e => e.1 ≠ name)
  | .item index :: rest, s =>
    let (items, place) :=
      match s with
      | .list items => room index items
      | _ => room index []
    .list (items.set place (put value rest (items.getD place .absent)))

/-- What lies below a setting under a list of names. -/
def find? (s : Setting) : List String → Option Setting
  | [] => some s
  | name :: rest =>
    match s with
    | .table entries =>
      match entries.lookup name with
      | some below => below.find? rest
      | none => none
    | _ => none

/-- The text of a setting, if it is one. -/
def text? : Setting → Option String
  | .text s => some s
  | _ => none

/-! ## Variables -/

/-- The small letter of a letter. Beyond ASCII only the sign for kelvin has one within it. -/
def toLower (c : Char) : Char := if c = '\u212a' then 'k' else c.toLower

/-- The text with a dot for each pair of underscores. -/
def dotted : List Char → List Char
  | '_' :: '_' :: rest => '.' :: dotted rest
  | c :: rest => c :: dotted rest
  | [] => []

/-- The key that a variable sets. -/
def keyOf? (variableName : String) : Option (List Char) :=
  (Text.after? "app__".toList (variableName.toList.map toLower)).map dotted

/-- All that an environment sets. -/
def ofEnvirons (env : Environs) : Setting :=
  env.foldl
    (fun all v =>
      match keyOf? v.1 with
      | some key => put (.text v.2) (path key) all
      | none => all)
    (.table [])

end Setting

end Invigilator
