import Invigilator.Exam.Session
import Invigilator.Exam.Signal

/-!
# Events

What a sitting tells its stream subscribers. An event goes out under its name, with its text as
one line of data: the text holds no character below the space, so no line of it can be taken
for another event.
-/

namespace Invigilator

inductive Event where
  | timerTick (sessionId : String) (remaining elapsed total : Nat) (canSubmit : Bool)
      (untilSubmit : Nat) (timeCritical : Bool) (timestamp : Stamp)
  | timeExpired (sessionId : String) (timestamp : Stamp) (message : String)
  | directive (sessionId : String) (directive : Directive)
  | lifeLost (sessionId : String) (violation : ViolationType) (heartsBefore heartsAfter : Nat)
      (timestamp : Stamp)
  | sessionFinished (sessionId : String) (status : Status) (autoSubmitted : Bool)
      (timeSpent : Nat) (timestamp : Stamp)
deriving DecidableEq, Repr, Inhabited

namespace Event

/-- The name under which an event goes out. -/
def name : Event → String
  | timerTick .. => "timer-tick"
  | timeExpired .. => "time-expired"
  | directive .. => "directive"
  | lifeLost .. => "life-lost"
  | sessionFinished .. => "session-finished"

/-- The session that an event belongs to. -/
def sessionId : Event → String
  | timerTick id .. => id
  | timeExpired id .. => id
  | directive id _ => id
  | lifeLost id .. => id
  | sessionFinished id .. => id

/-- Whether an event is a tick of the clock. -/
def isTick : Event → Bool
  | timerTick .. => true
  | timeExpired .. => false
  | directive .. => false
  | lifeLost .. => false
  | sessionFinished .. => false

/-- Whether an event ends its stream. -/
def isLast : Event → Bool
  | sessionFinished .. => true
  | timerTick .. => false
  | timeExpired .. => false
  | directive .. => false
  | lifeLost .. => false

def toJson : Event → Json
  | timerTick id remaining elapsed total can locked critical time =>
    .tagged "timer-tick" [("session_id", .text id), ("remaining_seconds", .nat remaining),
      ("elapsed_seconds", .nat elapsed), ("total_seconds", .nat total), ("can_submit", .bool can),
      ("seconds_until_submit", .nat locked), ("time_critical", .bool critical),
      ("timestamp", time.toJson)]
  | timeExpired id time message =>
    .tagged "time-expired" [("session_id", .text id), ("timestamp", time.toJson),
      ("message", .text message)]
  | directive id d =>
    .tagged "directive" [("session_id", .text id), ("directive", d.toJson)]
  | lifeLost id violation before after time =>
    .tagged "life-lost" [("session_id", .text id), ("violation_type", violation.toJson),
      ("hearts_before", .nat before), ("hearts_after", .nat after), ("timestamp", time.toJson)]
  | sessionFinished id status auto spent time =>
    .tagged "session-finished" [("session_id", .text id), ("status", status.toJson),
      ("auto_submitted", .bool auto), ("time_spent_seconds", .nat spent),
      ("timestamp", time.toJson)]

/-- The line of data of an event. -/
def data (e : Event) : String := e.toJson.write

def variants : List String :=
  ["timer-tick", "time-expired", "directive", "life-lost", "session-finished"]

/-- The event of a variant's name and fields. -/
def ofVariant? (name : String) (rest : Json) : Option Event :=
  match name with
  | "timer-tick" => do
    match ← Json.slots? [.plain "session_id", .plain "remaining_seconds", .plain "elapsed_seconds",
        .plain "total_seconds", .plain "can_submit", .plain "seconds_until_submit",
        .plain "time_critical", .plain "timestamp"] rest with
    | [id, remaining, elapsed, total, can, locked, critical, time] => do
      let id ← Json.needed Json.text? id
      let remaining ← Json.needed Json.nat64? remaining
      let elapsed ← Json.needed Json.nat64? elapsed
      let total ← Json.needed Json.nat64? total
      let can ← Json.needed Json.bool? can
      let locked ← Json.needed Json.nat64? locked
      let critical ← Json.needed Json.bool? critical
      let time ← Json.needed Stamp.ofJson? time
      some (timerTick id remaining elapsed total can locked critical time)
    | _ => none
  | "time-expired" => do
    match ← Json.slots? [.plain "session_id", .plain "timestamp", .plain "message"] rest with
    | [id, time, message] => do
      let id ← Json.needed Json.text? id
      let time ← Json.needed Stamp.ofJson? time
      let message ← Json.needed Json.text? message
      some (timeExpired id time message)
    | _ => none
  | "directive" => do
    match ← Json.slots? [.plain "session_id", .plain "directive"] rest with
    | [id, d] => do
      let id ← Json.needed Json.text? id
      let d ← Json.needed (Directive.ofJsonAt? .memory) d
      some (directive id d)
    | _ => none
  | "life-lost" => do
    match ← Json.slots? [.plain "session_id", .plain "violation_type", .plain "hearts_before",
        .plain "hearts_after", .plain "timestamp"] rest with
    | [id, violation, before, after, time] => do
      let id ← Json.needed Json.text? id
      let violation ← Json.needed (Json.heldWord? ViolationType.table) violation
      let before ← Json.needed Json.nat8? before
      let after ← Json.needed Json.nat8? after
      let time ← Json.needed Stamp.ofJson? time
      some (lifeLost id violation before after time)
    | _ => none
  | "session-finished" => do
    match ← Json.slots? [.plain "session_id", .plain "status", .plain "auto_submitted",
        .plain "time_spent_seconds", .plain "timestamp"] rest with
    | [id, status, auto, spent, time] => do
      let id ← Json.needed Json.text? id
      let status ← Json.needed (Json.heldWord? Status.table) status
      let auto ← Json.needed Json.bool? auto
      let spent ← Json.needed Json.nat64? spent
      let time ← Json.needed Stamp.ofJson? time
      some (sessionFinished id status auto spent time)
    | _ => none
  | _ => none

def ofJson? (j : Json) : Option Event := do
  let (name, rest) ← Json.variant? (.text 0) variants j
  ofVariant? name rest

end Event

end Invigilator
