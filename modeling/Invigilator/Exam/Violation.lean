import Invigilator.Json.Record
import Invigilator.Time.Written

/-!
# Violations

The kinds of rule breaking that cost a life, and the audit record of each life taken.
-/

namespace Invigilator

inductive ViolationType where
  | fullscreenExit
  | tabSwitch
  | windowBlur
  | copy
  | paste
deriving DecidableEq, Repr, Inhabited

namespace ViolationType

def name : ViolationType → String
  | fullscreenExit => "fullscreen_exit"
  | tabSwitch => "tab_switch"
  | windowBlur => "window_blur"
  | copy => "copy"
  | paste => "paste"

/-- The name of a violation in log lines. -/
def label : ViolationType → String
  | fullscreenExit => "FullscreenExit"
  | tabSwitch => "TabSwitch"
  | windowBlur => "WindowBlur"
  | copy => "Copy"
  | paste => "Paste"

/-- Use of the clipboard is penalized on the spot, all else after a grace period. -/
def isInstantaneous : ViolationType → Bool
  | copy => true
  | paste => true
  | fullscreenExit => false
  | tabSwitch => false
  | windowBlur => false

def all : List ViolationType := [fullscreenExit, tabSwitch, windowBlur, copy, paste]

def table : List (String × ViolationType) := all.map fun v => (v.name, v)

def toJson (v : ViolationType) : Json := .text v.name

def ofJson? : Json → Option ViolationType := Json.word? table

end ViolationType

/-- The audit record of one penalty. -/
structure Violation where
  id : String
  sessionId : String
  userId : String
  violationType : ViolationType
  heartsBefore : Nat
  heartsAfter : Nat
  occurredAt : Stamp
deriving DecidableEq, Repr, Inhabited

namespace Violation

def members (v : Violation) : List (String × Json) :=
  [("id", .text v.id), ("session_id", .text v.sessionId), ("user_id", .text v.userId),
    ("violation_type", v.violationType.toJson), ("hearts_before", .nat v.heartsBefore),
    ("hearts_after", .nat v.heartsAfter), ("occurred_at", v.occurredAt.toJson)]

def toJson (v : Violation) : Json := .object v.members

def fields : List Json.Field :=
  [.plain "id", .plain "session_id", .plain "user_id", .plain "violation_type",
    .plain "hearts_before", .plain "hearts_after", .plain "occurred_at"]

def ofJson? (j : Json) : Option Violation := do
  match ← Json.slots? fields j with
  | [id, session, user, kind, before, after, occurred] => do
    let id ← Json.needed Json.text? id
    let sessionId ← Json.needed Json.text? session
    let userId ← Json.needed Json.text? user
    let violationType ← Json.needed ViolationType.ofJson? kind
    let heartsBefore ← Json.needed Json.nat8? before
    let heartsAfter ← Json.needed Json.nat8? after
    let occurredAt ← Json.needed Stamp.ofJson? occurred
    some
      { id := id, sessionId, userId, violationType, heartsBefore, heartsAfter, occurredAt }
  | _ => none

end Violation

end Invigilator
