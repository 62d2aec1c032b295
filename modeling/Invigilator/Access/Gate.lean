import Invigilator.Json.Record
import Invigilator.Time.Written

/-!
# The gate

Who may start an exam. A disqualified user is blocked until an administrator approves a retake;
a user without a record may start.
-/

namespace Invigilator

inductive EligibilityStatus where
  | blocked
  | approved
deriving DecidableEq, Repr, Inhabited

namespace EligibilityStatus

def name : EligibilityStatus → String
  | blocked => "blocked"
  | approved => "approved"

def table : List (String × EligibilityStatus) := [("blocked", blocked), ("approved", approved)]

def toJson (s : EligibilityStatus) : Json := .text s.name

def ofJson? : Json → Option EligibilityStatus := Json.word? table

end EligibilityStatus

/-- What is on record about a user's right to start an exam. -/
structure EligibilityRecord where
  userId : String
  status : EligibilityStatus
  blockedSessionId : Option String
  blockedAt : Option Stamp
  approvedBy : Option String
  approvedAt : Option Stamp
deriving DecidableEq, Repr, Inhabited

namespace EligibilityRecord

/-- The record of a user who has just been blocked. -/
def block (userId sessionId : String) (time : Stamp) : EligibilityRecord :=
  { userId, status := .blocked, blockedSessionId := some sessionId, blockedAt := some time,
    approvedBy := none, approvedAt := none }

/-- The record after a retake was approved. -/
def approve (r : EligibilityRecord) (approver : String) (time : Stamp) : EligibilityRecord :=
  { r with status := .approved, approvedBy := some approver, approvedAt := some time }

def isBlocked (r : EligibilityRecord) : Bool := r.status == .blocked

def members (r : EligibilityRecord) : List (String × Json) :=
  [("user_id", .text r.userId), ("status", r.status.toJson),
    ("blocked_session_id", .option .text r.blockedSessionId),
    ("blocked_at", .option Stamp.toJson r.blockedAt),
    ("approved_by", .option .text r.approvedBy),
    ("approved_at", .option Stamp.toJson r.approvedAt)]

def toJson (r : EligibilityRecord) : Json := .object r.members

def fields : List Json.Field :=
  [.plain "user_id", .plain "status", .plain "blocked_session_id", .plain "blocked_at",
    .plain "approved_by", .plain "approved_at"]

def ofJson? (j : Json) : Option EligibilityRecord := do
  match ← Json.slots? fields j with
  | [user, status, session, blocked, approver, approved] => do
    let userId ← Json.needed Json.text? user
    let status ← Json.needed EligibilityStatus.ofJson? status
    let blockedSessionId ← Json.optional Json.text? session
    let blockedAt ← Json.optional Stamp.ofJson? blocked
    let approvedBy ← Json.optional Json.text? approver
    let approvedAt ← Json.optional Stamp.ofJson? approved
    some
      { userId := userId, status, blockedSessionId, blockedAt, approvedBy, approvedAt }
  | _ => none

end EligibilityRecord

/-- The records of all users that have one, at most one for each. -/
structure Gate where
  records : List EligibilityRecord
deriving DecidableEq, Repr, Inhabited

namespace Gate

def empty : Gate := ⟨[]⟩

/-- The record of a user. -/
def find? (g : Gate) (userId : String) : Option EligibilityRecord :=
  g.records.find? fun r => r.userId == userId

/-- Whether a user may start an exam. -/
def isEligible (g : Gate) (userId : String) : Bool := !(g.find? userId).any (·.isBlocked)

/-- The gate with a record in place of the user's earlier one. -/
def put (g : Gate) (r : EligibilityRecord) : Gate :=
  ⟨r :: g.records.filter fun old => old.userId != r.userId⟩

/-- Blocks a user. -/
def block (g : Gate) (userId sessionId : String) (time : Stamp) : Gate :=
  g.put (.block userId sessionId time)

/-- Approves a retake; the flag tells whether the user was blocked. -/
def approve (g : Gate) (userId approver : String) (time : Stamp) : Gate × Bool :=
  match g.find? userId with
  | some r => if r.isBlocked then (g.put (r.approve approver time), true) else (g, false)
  | none => (g, false)

/-- The records of all blocked users, by user. -/
def blocked (g : Gate) : List EligibilityRecord :=
  (g.records.filter (·.isBlocked)).mergeSort fun a b => a.userId ≤ b.userId

end Gate

end Invigilator
