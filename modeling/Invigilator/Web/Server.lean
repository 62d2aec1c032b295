import Invigilator.Journal.Log
import Invigilator.Service.Exams
import Invigilator.Service.Health
import Invigilator.Service.Practice
import Invigilator.Web.Form
import Invigilator.Web.MediaType
import Invigilator.Web.Message
import Invigilator.Web.Route
import Invigilator.Web.Target

/-!
# The server

Answers requests. A request is let in by the guard of its route before anything else of it is
looked at, its method included; then the values of its path are read, then its body. Every
request is counted, and every response carries the id of its trace.
-/

namespace Invigilator.Web

open Call

variable {σ : Type}

/-! ## Reading requests -/

/-- The most bytes of a body. -/
def bodyLimit : Nat := 2097152

/-- Whether the body of a request is meant to be JSON. -/
def isJson (r : Request) : Bool :=
  ((r.headers.plain? "content-type").bind fun value => MediaType.ofChars? value.toList).any
    MediaType.isJson

/-- Whether the body of a request is not too long. -/
def isShort (r : Request) : Bool := r.body.utf8ByteSize ≤ bodyLimit

/-- Why the body of a request is refused, given what there is to complain of in its text. -/
def bodyRefusal (complain : String → Option Json.Complaint) (r : Request) : Refusal :=
  if !isJson r then .notJson
  else if !isShort r then .unreadable "Failed to buffer the request body: length limit exceeded"
  else .unreadable (((complain r.body).map complaintText).getD "")

/-- The value in the body of a request. -/
def bodyValue? (read : Json → Option α) (r : Request) : Option α :=
  if isJson r && isShort r then (Json.read? r.body).bind read else none

/-- Reads the body of a request. -/
def readBody (read : Json → Option α) (complain : String → Option Json.Complaint)
    (r : Request) : Call σ α :=
  match bodyValue? read r with
  | some x => pure x
  | none => do
    let why := bodyRefusal complain r
    jot [.warn why.message]
    fail (.validation why)

/-- Refuses a body for the text in it that is out of bounds. -/
def check (excess : Option String) : Call σ Unit :=
  match excess with
  | none => pure ()
  | some details => fail (.validation (.outOfBounds details))

/-! ## Guards -/

/-- What follows a word and a blank in the authorization of a request. -/
def authorization? (word : String) (r : Request) : Option String :=
  (r.headers.plain? "authorization").bind fun value =>
    (Text.after? (word ++ " ").toList value.toList).map String.ofList

/-- The password for metrics. -/
def operatorPassword : String := "admin:changeme"

/-- Whether a request carries the password for metrics. -/
def isOperator (r : Request) : Bool :=
  ((authorization? "Basic" r).bind fun encoded =>
    (Base64.decodePadded? .standard encoded.toList).bind Token.textOf?) == some operatorPassword

/-- The claims of the token of a request. -/
def claimsOf (mac : Mac) (s : Service σ) (token : String) : Except TokenFault Claims :=
  Token.check mac s.config.jwtSecret s.hall.time.toSeconds.toNat token

/-- Lets those with a valid token in. -/
def authenticate (mac : Mac) (r : Request) : Call σ Claims := do
  match authorization? "Bearer" r with
  | none => fail .unauthenticated
  | some token =>
    match claimsOf mac (← service) token with
    | .error e => do
      jot [.warn ("JWT validation failed: " ++ e.message)]
      fail .unauthenticated
    | .ok claims => do
      jot [.debug ("Authenticated user: " ++ claims.sub ++ " (role: " ++ claims.role ++ ")")]
      pure claims

/-- Takes note of a valid token. -/
def recognize (mac : Mac) (r : Request) : Call σ (Option Claims) := do
  match authorization? "Bearer" r with
  | none => pure none
  | some token =>
    match claimsOf mac (← service) token with
    | .error e => do
      jot [.debug ("Ignoring invalid optional token: " ++ e.message)]
      pure none
    | .ok claims => pure (some claims)

/-- Lets administrators in. -/
def authenticateAdministrator (mac : Mac) (r : Request) : Call σ Claims := do
  let claims ← authenticate mac r
  if claims.isAdmin then pure claims
  else
    jot [.warn ("Access denied for " ++ claims.sub ++ ": admin role required")]
    fail .forbidden

/-- What a guard lets in. -/
inductive Pass where
  | refused
  | caller (claims : Option Claims)
deriving Inhabited

/-- What the guard of a route says to a request. -/
def letIn (mac : Mac) (r : Request) : Guard → Call σ Pass
  | .everyone => pure (.caller none)
  | .operator => pure (if isOperator r then .caller none else .refused)
  | .anyone => do return .caller (← recognize mac r)
  | .user => do return .caller (some (← authenticate mac r))
  | .administrator => do return .caller (some (← authenticateAdministrator mac r))

/-! ## Routes -/

/-- Answers with the values of a path, if they can be read. -/
def withValues (values : Except PathFault α) (answer : α → Call σ Response) : Call σ Response :=
  match values with
  | .ok values => answer values
  | .error fault => pure (.of 400 (.text fault.message))

/-- Answers with the id in a path. -/
def withId (value : Value) (answer : String → Call σ Response) : Call σ Response :=
  withValues (text "id" value) answer

/-- Answers with the user's id in a path. -/
def withUser (value : Value) (answer : String → Call σ Response) : Call σ Response :=
  withValues (text "user_id" value) answer

/-- Answers with the values of a path to a question. -/
def withQuestion (value index : Value) (answer : String → Nat → Call σ Response) :
    Call σ Response :=
  withValues (textAndNumber value index) fun (id, n) => answer id n

/-- The exam as its candidate sees it. -/
def examDetail (snapshot : Snapshot) (questions : List QuestionView) : Json :=
  .object (snapshot.members ++ [("questions", .listOf QuestionView.toJson questions),
    ("remaining_display",
      .option (fun t => .text (Shown.examTime t.remainingSeconds)) snapshot.timer)])

/-- The limit of a list that does not ask for one, and the most that one may ask for. -/
def defaultLimit : Int := 50

def mostLimit : Int := 500

/-- Whose practice lives a caller means. -/
def bucketOf (caller : Option Claims) : Bucket := .forUser (caller.map Claims.sub)

/-- The page of metrics: what has changed since the service was started. -/
def metricsPage (notes : List Note) : String :=
  String.join ((Note.changes notes).map fun (key, n) => key ++ " " ++ Decimal.intText n ++ "\n")

/-- Reads a request to start an exam. -/
def readStart (r : Request) : Call σ StartRequest := do
  let start ← readBody StartRequest.ofJson? startShape.complaint? r
  check start.excess?
  pure start

/-- The response to a request that started an exam. -/
def started (response : StartResponse) : Response := .json 201 response.toJson

/-- Answers a request to a route for a caller. -/
def dispatch (r : Request) (caller : Option Claims) (route : Route) : Call σ Response :=
  let user := (caller.map Claims.sub).getD ""
  match route with
  | .health => do
    let health ← Service.health
    pure (.json (if health.isHealthy then 200 else 503) health.toJson)
  | .metrics => do
    pure (.of 200 (.metrics (metricsPage (← service).hall.notes)))
  | .start => do
    let start ← readStart r
    pure (started (← Service.start user start))
  | .exam id => withId id fun id => do
    let snapshot ← Service.snapshot id user
    pure (.json 200 (examDetail snapshot (← Service.questions snapshot)))
  | .answer id index => withQuestion id index fun id index => do
    let update ← readBody UpdateRequest.ofJson? updateShape.complaint? r
    check update.excess?
    pure (.json 200 (← Service.updateAnswer id user index update.code).toJson)
  | .run id index => withQuestion id index fun id index => do
    let result ← readBody RunResult.ofJson? runShape.complaint? r
    pure (.json 200 (← Service.recordRun id user index result).toJson)
  | .signals id => withId id fun id => do
    let signal ← readBody Signal.ofJson? signalShape.complaint? r
    pure (.json 200 (← Service.signal id user signal).toJson)
  | .submit id => withId id fun id => do
    pure (.json 200 (← Service.submit id user).toJson)
  | .score id => withId id fun id => do
    pure (.json 200 (← Service.score id user).toJson)
  | .stream id => withId id fun id => do
    pure (.of 200 (.events (← Service.subscribe id user false)))
  | .lives => do pure (.json 200 (← Service.livesReport (bucketOf caller)).toJson)
  | .loseLife => do pure (.json 200 (← Service.loseLife (bucketOf caller)).toJson)
  | .sessions =>
    match limit r.target.query with
    | .error fault => pure (.of 400 (.text fault.message))
    | .ok limit => do
      let limit := max 1 (min (limit.getD defaultLimit) mostLimit)
      pure (.json 200 (← Service.latest limit).toJson)
  | .blocked => do
    pure (.json 200 (.listOf EligibilityRecord.toJson (← Service.blocked)))
  | .approve id => withUser id fun id => do
    let approved ← Service.approve id user
    pure (.json 200 (.object [("user_id", .text id), ("approved", .bool approved),
      ("approved_by", .text user)]))
  | .resetLives id => withUser id fun id => do
    pure (.json 200 (← Service.resetLives id user).toJson)

/-- Answers a request to a route, by a method that it allows. -/
def serve (mac : Mac) (r : Request) (route : Route) : Call σ Response := do
  match ← letIn mac r route.guard with
  | .refused => pure (.of 401 .empty)
  | .caller caller =>
    if route.allowed.contains r.method then dispatch r caller route else pure (.of 405 .empty)

/-! ## All requests -/

/-- The line of the log about a fault of the service. -/
def faultNotes : Fault → List Note
  | .backend fault => [.error ("Exam request failed: " ++ fault.chain)]
  | _ => []

/-- The response to a call, and the service afterwards. -/
def finish (call : Call σ Response) (s : Service σ) : Response × Service σ :=
  match call.run s with
  | (.ok response, s) => (response, s)
  | (.error fault, s) =>
    (.ofFault fault, { s with hall := s.hall.jot (faultNotes fault) })

/-- Leaves the body of a response out. Nobody reads the events that it would have had. -/
def dropBody (response : Response) (s : Service σ) : Response × Service σ :=
  let s :=
    match response.body with
    | .events number => { s with hall := s.hall.leave number }
    | _ => s
  (response.withoutBody, s)

/-- The headers by which browsers on other pages may read a response. -/
def sharingHeaders : Headers :=
  [("vary", "origin, access-control-request-method, access-control-request-headers"),
    ("access-control-allow-origin", "*")]

/-- The headers that tell such browsers what they may send. -/
def preflightHeaders : Headers :=
  [("access-control-allow-methods", "GET,POST,PUT,OPTIONS"),
    ("access-control-allow-headers", "authorization,content-type")]

/-- The header with the methods of a route, for those who asked by another. -/
def allowHeader (r : Request) (route : Route) : Headers :=
  if route.allowed.contains r.method then [] else [("allow", ",".intercalate route.allowed)]

/-- The response where there is no route; only a path off the root gets a length of its body. -/
def empty (r : Request) (status : Nat) : Response :=
  if r.target.isRooted then .bare status else .of status .empty

/-- Answers a request by its path, before it is counted. -/
def route (mac : Mac) (r : Request) (s : Service σ) : Response × Service σ :=
  match Route.ofPath? r.target.path with
  | none =>
    if r.method = "OPTIONS" then ((empty r 200).withHeaders preflightHeaders, s)
    else (empty r 404, s)
  | some route =>
    let allow := allowHeader r route
    if r.method = "OPTIONS" then
      ((Response.of 200 .empty).withHeaders (allow ++ preflightHeaders), s)
    else
      let (response, s) := finish (serve mac r route) s
      let (response, s) := if r.method = "HEAD" then dropBody response s else (response, s)
      (response.withHeaders allow, s)

/-- The name of the header with the id of a trace. -/
def traceHeader : String := "x-trace-id"

/-- The id of a trace that a request brings along. -/
def broughtTrace? (r : Request) : Option String :=
  (r.headers.plain? traceHeader).filter fun id => id ≠ "" ∧ id.utf8ByteSize ≤ 128

/-- Counts a request by its response. -/
def countRequest (r : Request) (response : Response) : Note :=
  .count (.httpRequests r.method (pathLabel r.target.path) (Decimal.text response.status))

/-- The service when a request has come in. -/
def receive (s : Service σ) : Service σ :=
  { s with hall := s.hall.draw.jot [.debug "Request received"] }

/-- Sends a response: the request is counted, and the response gets the headers that all have. -/
def send (r : Request) (s : Service σ) (response : Response) : Response × Service σ :=
  let trace := (broughtTrace? r).getD (s.hall.source.traceId s.hall.drawn)
  (response.withHeaders (sharingHeaders ++ [(traceHeader, trace)]),
    { s with hall := s.hall.draw.jot [countRequest r response] })

/-- Answers a request. -/
def respond (mac : Mac) (r : Request) (s : Service σ) : Response × Service σ :=
  let (response, s) := route mac r (receive s)
  send r s response

end Invigilator.Web
