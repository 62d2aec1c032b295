/-!
# Notes for the operators

What the service leaves behind for those who run it: lines of the log, and steps of counters
and gauges. Notes are values that the parts of the service return; they never change what it
does.
-/

namespace Invigilator

inductive Level where
  | debug
  | info
  | warn
  | error
deriving DecidableEq, Repr, Inhabited

def Level.name : Level → String
  | .debug => "DEBUG"
  | .info => "INFO"
  | .warn => "WARN"
  | .error => "ERROR"

/-- A counter, with the values of its labels. -/
inductive Counter where
  | httpRequests (method path status : String)
  | storeOperations (backend operation status : String)
  | sessions (status : String)
  | violations (violationType : String)
  | gracePeriods (outcome : String)
  | livesLost (scope : String)
deriving DecidableEq, Repr

inductive Gauge where
  | sessionsActive
  | streamsActive
deriving DecidableEq, Repr

inductive Note where
  | line (level : Level) (text : String)
  | count (counter : Counter)
  | move (gauge : Gauge) (steps : Int)
deriving DecidableEq, Repr

/-- The value of a label between quotes: the quote, the backslash and the line end are escaped. -/
def escapeLabel (s : String) : String :=
  String.ofList <| s.toList.flatMap fun c =>
    if c = '\\' then ['\\', '\\'] else if c = '"' then ['\\', '"']
    else if c = '\n' then ['\\', 'n'] else [c]

/-- A metric's name with its labels, which are given in the order of their names. -/
def metricKey (name : String) (labels : List (String × String)) : String :=
  let label (l : String × String) : String := l.1 ++ "=\"" ++ escapeLabel l.2 ++ "\""
  name ++ "\x7b" ++ ",".intercalate (labels.map label) ++ "\x7d"

/-- The name and labels of a counter as they are exported. -/
def Counter.key : Counter → String
  | .httpRequests method path status =>
    metricKey "http_requests_total" [("method", method), ("path", path), ("status", status)]
  | .storeOperations backend operation status =>
    metricKey "store_operations_total"
      [("backend", backend), ("operation", operation), ("status", status)]
  | .sessions status => metricKey "exam_sessions_total" [("status", status)]
  | .violations kind => metricKey "exam_violations_total" [("violation_type", kind)]
  | .gracePeriods outcome => metricKey "exam_grace_periods_total" [("outcome", outcome)]
  | .livesLost scope => metricKey "lives_lost_total" [("scope", scope)]

def Gauge.key : Gauge → String
  | .sessionsActive => "exam_sessions_active"
  | .streamsActive => "sse_connections_active"

namespace Note

def debug (text : String) : Note := .line .debug text

def info (text : String) : Note := .line .info text

def warn (text : String) : Note := .line .warn text

def error (text : String) : Note := .line .error text

/-- The line of the log that a note is, with its level in front. -/
def logLine? : Note → Option String
  | .line level text => some (level.name ++ " " ++ text)
  | .count _ => none
  | .move .. => none

/-- The metric that a note moves, and by how much. -/
def metricStep? : Note → Option (String × Int)
  | .line .. => none
  | .count counter => some (counter.key, 1)
  | .move gauge n => some (gauge.key, n)

/-- Adds a step to a table of changes. -/
def addStep (changes : List (String × Int)) (step : String × Int) : List (String × Int) :=
  match changes with
  | [] => [step]
  | (key, n) :: rest =>
    if key = step.1 then (key, n + step.2) :: rest else (key, n) :: addStep rest step

/-- The changes of all metrics by a list of notes, those that cancel out left aside. -/
def changes (notes : List Note) : List (String × Int) :=
  ((notes.filterMap metricStep?).foldl addStep []).filter fun change => change.2 != 0

end Note

end Invigilator
