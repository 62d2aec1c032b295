import Invigilator.Exam.Fault
import Invigilator.Text.Blank
import Invigilator.Text.Cut
import Invigilator.Web.Address
import Invigilator.Web.MediaType

/-!
# Requests and responses

HTTP messages as the service sees them: a request with its method, its target, its headers and
its body, and a response with a status, headers and a body of one of a few kinds.
-/

namespace Invigilator.Web

/-- Headers, in the order they were sent. Names are compared without regard to case. -/
abbrev Headers := List (String × String)

/-- The value of a header, the first one if it is repeated. -/
def Headers.find? (headers : Headers) (name : String) : Option String :=
  (List.find? (fun h => Text.sameLetters h.1 name) headers).map Prod.snd

/-- Whether a header's value has only visible ASCII characters, blanks and tabs. -/
def isPlainValue (s : String) : Bool :=
  s.toList.all fun c => (0x20 ≤ c.toNat && c.toNat ≤ 0x7e) || c = '\t'

/-- The value of a header that has only visible characters. -/
def Headers.plain? (headers : Headers) (name : String) : Option String :=
  (headers.find? name).filter isPlainValue

/-- Whether a text is one token, as the name of a header or of a method is. -/
def isToken (s : String) : Bool := s ≠ "" && s.toList.all MediaType.isToken

/-- Whether a header can be sent: its name is a token, and its value holds no control characters
but tabs. -/
def isHeader (h : String × String) : Bool :=
  isToken h.1 && h.2.toList.all fun c => MediaType.isQuotable c || c = '\t'

structure Request where
  method : String
  target : Target
  headers : Headers
  body : String
deriving DecidableEq, Repr, Inhabited

/-- The request by a method to an address, if it can be sent. -/
def Request.to? (method address : String) (headers : Headers) (body : String) : Option Request :=
  if isToken method && headers.all isHeader then
    (Target.read? address).map fun target => { method := method, target, headers, body }
  else none

inductive Body where
  | empty
  | json (value : Json)
  /-- Why a request failed. -/
  | fault (fault : Fault)
  | text (text : String)
  /-- The page of metrics. -/
  | metrics (page : String)
  /-- The events of a subscription. -/
  | events (subscription : Nat)
deriving Inhabited

namespace Body

/-- The media type of a body. -/
def mediaType? : Body → Option String
  | empty => none
  | json _ => some "application/json"
  | fault _ => some "application/json"
  | text _ => some "text/plain; charset=utf-8"
  | metrics _ => some "text/plain; charset=utf-8"
  | events _ => some "text/event-stream"

/-- The length of a body in bytes, where it has one. -/
def length? : Body → Option Nat
  | empty => some 0
  | json value => some value.write.utf8ByteSize
  | fault f => some f.body.write.utf8ByteSize
  | text s => some s.utf8ByteSize
  | metrics page => some page.utf8ByteSize
  | events _ => none

/-- The headers that describe a body. -/
def headers (b : Body) : Headers :=
  let type : Headers :=
    match b.mediaType? with
    | none => []
    | some type => [("content-type", type)]
  let length : Headers :=
    match b.length? with
    | none => [("cache-control", "no-cache")]
    | some n => [("content-length", Decimal.text n)]
  type ++ length

end Body

structure Response where
  status : Nat
  headers : Headers
  body : Body
deriving Inhabited

namespace Response

/-- A response without a body, and without a word about it. -/
def bare (status : Nat) : Response := ⟨status, [], .empty⟩

/-- A response with a body and the headers that describe it. -/
def of (status : Nat) (body : Body) : Response := ⟨status, body.headers, body⟩

def json (status : Nat) (value : Json) : Response := of status (.json value)

/-- The response to a request that failed. -/
def ofFault (f : Fault) : Response := of f.status (.fault f)

/-- The response with more headers. -/
def withHeaders (r : Response) (headers : Headers) : Response :=
  { r with headers := r.headers ++ headers }

/-- The value of a JSON body; of a fault it is the gist. -/
def value? (r : Response) : Option Json :=
  match r.body with
  | .json value => some value
  | .fault f => some f.gist
  | _ => none

/--
The status and the body. A page of metrics and a stream are shown by what they are, a text by what
stands in front of its details.
-/
def members (r : Response) : List (String × Json) :=
  let body : Json :=
    match r.body with
    | .text text => .object [("text", .text (String.ofList (Text.before [':', ' '] text.toList)))]
    | .metrics _ => .object [("text", .text "metrics")]
    | _ => r.value?.getD .null
  [("status", .nat r.status), ("body", body)]

/-- The response to a request that wants no body. -/
def withoutBody (r : Response) : Response := { r with body := .empty }

end Response

end Invigilator.Web
