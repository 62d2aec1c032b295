import Invigilator.Text.Cut

/-!
# Media types

What the header for the type of a body says: a type, a subtype with a suffix behind its last plus
sign, and parameters. No blanks may stand around the type; only in front of a parameter, and
behind a quoted value, may there be any.
-/

namespace Invigilator.Web

/-- The type of a body, in small letters and without its parameters. -/
structure MediaType where
  type : List Char
  /-- What stands in front of the suffix. -/
  subtype : List Char
  suffix : Option (List Char)
deriving DecidableEq, Repr, Inhabited

namespace MediaType

/-- Whether a character can stand in a token. -/
def isToken (c : Char) : Bool :=
  ('a' ≤ c && c ≤ 'z') || ('A' ≤ c && c ≤ 'Z') || ('0' ≤ c && c ≤ '9') ||
    "!#$%&\x27*+-.^_\x60|~".toList.contains c

/-- Whether a character can stand between quotes. -/
def isQuotable (c : Char) : Bool := 32 ≤ c.toNat && c.toNat ≠ 127

/-! ## Parameters -/

/-- Where a reader of parameters stands. -/
inductive Place where
  /-- In front of a parameter. -/
  | front
  | name
  /-- Behind the equals sign. -/
  | equals
  | value
  /-- Behind the opening quote. -/
  | opened
  | quoted
  /-- Behind the closing quote. -/
  | closed
deriving DecidableEq, Repr, Inhabited

namespace Place

/-- Where the reader stands after one more character; the value between quotes is not empty. -/
def next? (c : Char) : Place → Option Place
  | front => if c = ' ' then some front else if isToken c then some name else none
  | name => if c = '=' then some equals else if isToken c then some name else none
  | equals => if c = '"' then some opened else if isToken c then some value else none
  | value => if c = ';' then some front else if isToken c then some value else none
  | opened => if isQuotable c then some quoted else none
  | quoted => if c = '"' then some closed else if isQuotable c then some quoted else none
  | closed => if c = ';' then some front else if c = ' ' then some closed else none

/-- Whether parameters may end here. -/
def isEnd : Place → Bool
  | front => true
  | name => false
  | equals => true
  | value => true
  | opened => false
  | quoted => false
  | closed => true

end Place

/-- Whether a text, behind the first semicolon, is a list of parameters. -/
def areParameters (cs : List Char) : Bool :=
  (cs.foldlM (fun place c => Place.next? c place) Place.front).any Place.isEnd

/-! ## The whole -/

/-- A subtype with the suffix behind its last plus sign; a plus sign in front belongs to the
subtype. -/
def splitSuffix (cs : List Char) : List Char × Option (List Char) :=
  match Text.cutAtLast '+' cs with
  | some (c :: front, suffix) => (c :: front, some suffix)
  | _ => (cs, none)

/-- Reads a media type. -/
def ofChars? (cs : List Char) : Option MediaType := do
  let (type, rest) ← Text.cutAt '/' (cs.map Char.toLower)
  let subtype := rest.takeWhile (· ≠ ';')
  let parameters := rest.dropWhile (· ≠ ';')
  let isWhole : Bool :=
    match parameters with
    | [] => true
    | _ :: parameters => !subtype.isEmpty && areParameters parameters
  if !type.isEmpty && type.all isToken && subtype.all isToken && isWhole then
    let (subtype, suffix) := splitSuffix subtype
    some { type := type, subtype, suffix }
  else none

/-- Whether bodies of a type are JSON: `application/json`, and those with `json` as a suffix. -/
def isJson (m : MediaType) : Bool :=
  m.type == "application".toList && (m.subtype == "json".toList || m.suffix == some "json".toList)

end MediaType

end Invigilator.Web
