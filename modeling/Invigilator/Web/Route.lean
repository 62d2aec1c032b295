import Invigilator.Text.Cut

/-!
# Routes

The paths that the service knows, the method of each, and who may call it. Values in a path are
kept as they were sent. A value in the middle of a path may be empty, one at its end may not.
-/

namespace Invigilator.Web

/-- A value in a path, as it was sent. -/
abbrev Value := List Char

inductive Route where
  | health
  | metrics
  | start
  | exam (id : Value)
  | answer (id index : Value)
  | run (id index : Value)
  | signals (id : Value)
  | submit (id : Value)
  | score (id : Value)
  | stream (id : Value)
  | lives
  | loseLife
  | sessions
  | blocked
  | approve (user : Value)
  | resetLives (user : Value)
deriving DecidableEq, Repr, Inhabited

/-- Who may call a route. -/
inductive Guard where
  /-- Everyone. -/
  | everyone
  /-- Those who know the password for metrics. -/
  | operator
  /-- Everyone; a valid token tells who it is. -/
  | anyone
  /-- Those with a valid token. -/
  | user
  /-- Those with a valid token of an administrator. -/
  | administrator
deriving DecidableEq, Repr, Inhabited

namespace Route

/-- The route of the segments of a path below the exams. -/
def ofExamSegments? : List String → Option Route
  | [] => some .start
  | [id] => if id = "" then none else some (.exam id.toList)
  | [id, "answers", index] => if index = "" then none else some (.answer id.toList index.toList)
  | [id, "answers", index, "runs"] => some (.run id.toList index.toList)
  | [id, "signals"] => some (.signals id.toList)
  | [id, "submit"] => some (.submit id.toList)
  | [id, "score"] => some (.score id.toList)
  | [id, "stream"] => some (.stream id.toList)
  | _ => none

/-- The route of the segments of a path below the administration. -/
def ofAdminSegments? : List String → Option Route
  | ["exams"] => some .sessions
  | ["eligibility", "blocked"] => some .blocked
  | ["eligibility", user, "approve"] => some (.approve user.toList)
  | ["lives", user, "reset"] => some (.resetLives user.toList)
  | _ => none

/-- The route of a path. -/
def ofPath? (path : List Char) : Option Route :=
  match (Text.splitOn '/' path).map String.ofList with
  | ["", "health"] => some .health
  | ["", "metrics"] => some .metrics
  | "" :: "api" :: "v1" :: "exams" :: rest => ofExamSegments? rest
  | ["", "api", "v1", "lives"] => some .lives
  | ["", "api", "v1", "lives", "lose"] => some .loseLife
  | "" :: "admin" :: rest => ofAdminSegments? rest
  | _ => none

/-- The method of a route. -/
def method : Route → String
  | health | metrics | exam _ | score _ | stream _ | lives | sessions | blocked => "GET"
  | answer .. => "PUT"
  | start | run .. | signals _ | submit _ | loseLife | approve _ | resetLives _ => "POST"

/-- The methods that a route allows. -/
def allowed (r : Route) : List String := if r.method = "GET" then ["GET", "HEAD"] else [r.method]

/-- Who may call a route. -/
def guard : Route → Guard
  | health => .everyone
  | metrics => .operator
  | lives | loseLife => .anyone
  | sessions | blocked | approve _ | resetLives _ => .administrator
  | start | exam _ | answer .. | run .. | signals _ | submit _ | score _ | stream _ => .user

end Route

end Invigilator.Web
