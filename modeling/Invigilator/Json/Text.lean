import Invigilator.Json.Token
import Invigilator.Text.Utf8

/-!
# JSON text

The text of a value, with no blanks and members in their order, and the reader of texts. The
reader goes over the tokens with a stack of the lists and objects that are still open.
-/

namespace Invigilator.Json

mutual

/-- The tokens of a value, onto those that follow it. -/
def tokensOnto (behind : List Token) : Json → List Token
  | .null => .null :: behind
  | .bool b => .bool b :: behind
  | .int n => .int n :: behind
  | .real literal => .real literal :: behind
  | .text s => .text s.toList :: behind
  | .torn tear => .torn tear :: behind
  | .list [] => .openList :: .closeList :: behind
  | .list (j :: rest) => .openList :: tokensOnto (itemTokensOnto (.closeList :: behind) rest) j
  | .object [] => .openObject :: .closeObject :: behind
  | .object ((name, j) :: rest) =>
    .openObject :: .text name.toList :: .colon ::
      tokensOnto (memberTokensOnto (.closeObject :: behind) rest) j

def itemTokensOnto (behind : List Token) : List Json → List Token
  | [] => behind
  | j :: rest => .comma :: tokensOnto (itemTokensOnto behind rest) j

def memberTokensOnto (behind : List Token) : List (String × Json) → List Token
  | [] => behind
  | (name, j) :: rest =>
    .comma :: .text name.toList :: .colon :: tokensOnto (memberTokensOnto behind rest) j

end

/-- The tokens of a value. -/
def tokens (j : Json) : List Token := tokensOnto [] j

/-- The text of a value. -/
def write (j : Json) : String := String.ofList (writeTokens j.tokens)

/-! ## Reading -/

/--
A list or an object that is still open, its contents in reverse. An object has none once one of
its names was torn.
-/
inductive Frame where
  | items (done : List Json)
  | members (done : Option (List (String × Json)))
  | member (name : String) (done : Option (List (String × Json)))

/-- The object of the members that were read, in reverse. -/
def objectOf : Option (List (String × Json)) → Json
  | some done => .object done.reverse
  | none => .torn .inside

/-- What may come next. -/
inductive Expect where
  | value
  | itemOrClose
  | memberOrClose
  | member
  | colon (name : String)
  | commaOrClose
  | nothing (result : Json)

/-- The state of the reader: what is still open, innermost first, and what may come next. -/
structure Reader where
  frames : List Frame
  expect : Expect

/-- A value has been read in full. -/
def Reader.deliver (j : Json) : List Frame → Option Reader
  | [] => some ⟨[], .nothing j⟩
  | .items done :: outer => some ⟨.items (j :: done) :: outer, .commaOrClose⟩
  | .member name done :: outer =>
    some ⟨.members (done.map ((name, j) :: ·)) :: outer, .commaOrClose⟩
  | .members _ :: _ => none

/-- A token where a value is expected. -/
def Reader.value (frames : List Frame) : Token → Option Reader
  | .null => Reader.deliver .null frames
  | .bool b => Reader.deliver (.bool b) frames
  | .int n => Reader.deliver (.int n) frames
  | .real literal => Reader.deliver (.real literal) frames
  | .text s => Reader.deliver (.text (String.ofList s)) frames
  | .torn tear => Reader.deliver (.torn tear) frames
  | .openList => some ⟨.items [] :: frames, .itemOrClose⟩
  | .openObject => some ⟨.members (some []) :: frames, .memberOrClose⟩
  | _ => none

/-- A torn name of a member: the object it belongs to can no longer be had. -/
def Reader.tornName : List Frame → Option Reader
  | .members _ :: outer => some ⟨.members none :: outer, .colon ""⟩
  | _ => none

/-- Takes one token. -/
def Reader.step (r : Reader) (t : Token) : Option Reader :=
  match r.expect, t with
  | .value, t => Reader.value r.frames t
  | .itemOrClose, .closeList =>
    match r.frames with
    | .items done :: outer => Reader.deliver (.list done.reverse) outer
    | _ => none
  | .itemOrClose, t => Reader.value r.frames t
  | .memberOrClose, .closeObject =>
    match r.frames with
    | .members done :: outer => Reader.deliver (objectOf done) outer
    | _ => none
  | .memberOrClose, .text name => some ⟨r.frames, .colon (String.ofList name)⟩
  | .member, .text name => some ⟨r.frames, .colon (String.ofList name)⟩
  | .memberOrClose, .torn _ => Reader.tornName r.frames
  | .member, .torn _ => Reader.tornName r.frames
  | .colon name, .colon =>
    match r.frames with
    | .members done :: outer => some ⟨.member name done :: outer, .value⟩
    | _ => none
  | .commaOrClose, .comma =>
    match r.frames with
    | .items _ :: _ => some ⟨r.frames, .value⟩
    | .members _ :: _ => some ⟨r.frames, .member⟩
    | _ => none
  | .commaOrClose, .closeList =>
    match r.frames with
    | .items done :: outer => Reader.deliver (.list done.reverse) outer
    | _ => none
  | .commaOrClose, .closeObject =>
    match r.frames with
    | .members done :: outer => Reader.deliver (objectOf done) outer
    | _ => none
  | _, _ => none

/-- Takes a list of tokens. -/
def Reader.run (r : Reader) : List Token → Option Reader
  | [] => some r
  | t :: rest =>
    match r.step t with
    | none => none
    | some r => r.run rest

/-- The value of a list of tokens. -/
def ofTokens? (tokens : List Token) : Option Json :=
  match Reader.run ⟨[], .value⟩ tokens with
  | some ⟨_, .nothing j⟩ => some j
  | _ => none

/-- The value of a text, or `none` if the text is not one strict JSON value. -/
def read? (text : String) : Option Json := (scan text.toList).bind ofTokens?

/-- The value of the bytes of a text. Strings may hold bytes that are no character; they are torn. -/
def readBytes? (bytes : List UInt8) : Option Json :=
  (scanPieces (Utf8.pieces bytes)).bind ofTokens?

end Invigilator.Json
