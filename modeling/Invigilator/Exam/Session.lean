import Invigilator.Exam.Language
import Invigilator.Exam.Trio
import Invigilator.Time.Written

/-!
# Sessions

The record of one exam of one candidate, and the patches by which stored copies follow it. A
session is in progress until it finishes, once and for all: a second `finish` changes nothing.
-/

namespace Invigilator

inductive Status where
  | inProgress
  | completed
  | disqualified
deriving DecidableEq, Repr, Inhabited

namespace Status

def name : Status → String
  | inProgress => "in_progress"
  | completed => "completed"
  | disqualified => "disqualified"

/-- The session is over. -/
def isTerminal : Status → Bool
  | inProgress => false
  | completed => true
  | disqualified => true

def table : List (String × Status) :=
  [("in_progress", inProgress), ("completed", completed), ("disqualified", disqualified)]

def toJson (s : Status) : Json := .text s.name

def ofJson? : Json → Option Status := Json.word? table

end Status

/-- Why a session ends. -/
inductive Reason where
  | user
  | timeExpired
  | livesExhausted
deriving DecidableEq, Repr, Inhabited

namespace Reason

def name : Reason → String
  | user => "user"
  | timeExpired => "time_expired"
  | livesExhausted => "lives_exhausted"

/-- The name of a reason in log lines. -/
def label : Reason → String
  | user => "User"
  | timeExpired => "TimeExpired"
  | livesExhausted => "LivesExhausted"

/-- The session ends without the candidate asking for it. -/
def isAutomatic : Reason → Bool
  | user => false
  | timeExpired => true
  | livesExhausted => true

/-- The status a session ends in. -/
def outcome : Reason → Status
  | livesExhausted => .disqualified
  | user => .completed
  | timeExpired => .completed

def table : List (String × Reason) :=
  [("user", user), ("time_expired", timeExpired), ("lives_exhausted", livesExhausted)]

def toJson (r : Reason) : Json := .text r.name

def ofJson? : Json → Option Reason := Json.word? table

end Reason

/-- A change to some fields of a session. -/
structure SessionPatch where
  status : Option Status
  livesRemaining : Option Nat
  totalViolations : Option Nat
  autoSubmitted : Option Bool
  timeSpentSeconds : Option Nat
  completedAt : Option Stamp
deriving DecidableEq, Repr, Inhabited

/-- The record of one exam. -/
structure Session where
  id : String
  userId : String
  language : Language
  questionIds : Trio String
  status : Status
  livesRemaining : Nat
  totalViolations : Nat
  autoSubmitted : Bool
  timeSpentSeconds : Option Nat
  startedAt : Stamp
  completedAt : Option Stamp
deriving DecidableEq, Repr, Inhabited

namespace Session

/-- A session that has just begun. -/
def begin (id userId : String) (language : Language) (questionIds : Trio String) (lives : Nat)
    (startedAt : Stamp) : Session :=
  { id, userId, language, questionIds, status := .inProgress, livesRemaining := lives,
    totalViolations := 0, autoSubmitted := false, timeSpentSeconds := none, startedAt,
    completedAt := none }

def isActive (s : Session) : Bool := s.status == .inProgress

/-- The session as it ends; one that has already ended stays as it is. -/
def finish (s : Session) (reason : Reason) (timeSpent : Nat) (time : Stamp) : Session :=
  if s.status.isTerminal then s
  else
    { s with
      status := reason.outcome, autoSubmitted := reason.isAutomatic,
      timeSpentSeconds := some timeSpent, completedAt := some time }

/-- The patch that carries everything that can change of a session. -/
def patch (s : Session) : SessionPatch :=
  { status := some s.status, livesRemaining := some s.livesRemaining,
    totalViolations := some s.totalViolations, autoSubmitted := some s.autoSubmitted,
    timeSpentSeconds := s.timeSpentSeconds, completedAt := s.completedAt }

def members (s : Session) : List (String × Json) :=
  [("id", .text s.id), ("user_id", .text s.userId), ("language", s.language.toJson),
    ("question_ids", s.questionIds.toJson .text), ("status", s.status.toJson),
    ("lives_remaining", .nat s.livesRemaining), ("total_violations", .nat s.totalViolations),
    ("auto_submitted", .bool s.autoSubmitted),
    ("time_spent_seconds", .option .nat s.timeSpentSeconds),
    ("started_at", s.startedAt.toJson), ("completed_at", .option Stamp.toJson s.completedAt)]

def toJson (s : Session) : Json := .object s.members

def fields : List Json.Field :=
  [.plain "id", .plain "user_id", .plain "language", .plain "question_ids", .plain "status",
    .plain "lives_remaining", .plain "total_violations", .plain "auto_submitted",
    .plain "time_spent_seconds", .plain "started_at", .plain "completed_at"]

def ofJson? (j : Json) : Option Session := do
  match ← Json.slots? fields j with
  | [id, user, language, questions, status, lives, violations, auto, spent, started, completed] =>
    do
    let id ← Json.needed Json.text? id
    let userId ← Json.needed Json.text? user
    let language ← Json.needed Language.ofJson? language
    let questionIds ← Json.needed (Trio.ofJson? Json.text?) questions
    let status ← Json.needed Status.ofJson? status
    let livesRemaining ← Json.needed Json.nat8? lives
    let totalViolations ← Json.needed Json.nat32? violations
    let autoSubmitted ← Json.needed Json.bool? auto
    let timeSpentSeconds ← Json.optional Json.nat64? spent
    let startedAt ← Json.needed Stamp.ofJson? started
    let completedAt ← Json.optional Stamp.ofJson? completed
    some
      { id := id, userId, language, questionIds, status, livesRemaining, totalViolations,
        autoSubmitted, timeSpentSeconds, startedAt, completedAt }
  | _ => none

end Session

namespace SessionPatch

/-- The patch that changes nothing. -/
def empty : SessionPatch := ⟨none, none, none, none, none, none⟩

/-- The session with the fields that a patch carries. -/
def applyTo (p : SessionPatch) (s : Session) : Session :=
  { s with
    status := p.status.getD s.status
    livesRemaining := p.livesRemaining.getD s.livesRemaining
    totalViolations := p.totalViolations.getD s.totalViolations
    autoSubmitted := p.autoSubmitted.getD s.autoSubmitted
    timeSpentSeconds := p.timeSpentSeconds.or s.timeSpentSeconds
    completedAt := p.completedAt.or s.completedAt }

/-- The members of a patch; fields that it does not carry are left out. -/
def members (p : SessionPatch) : List (String × Json) :=
  [("status", p.status.map Status.toJson), ("lives_remaining", p.livesRemaining.map .nat),
    ("total_violations", p.totalViolations.map .nat), ("auto_submitted", p.autoSubmitted.map .bool),
    ("time_spent_seconds", p.timeSpentSeconds.map .nat),
    ("completed_at", p.completedAt.map Stamp.toJson)].filterMap fun (name, j) =>
      j.map fun j => (name, j)

def toJson (p : SessionPatch) : Json := .object p.members

def fields : List Json.Field :=
  [.plain "status", .plain "lives_remaining", .plain "total_violations", .plain "auto_submitted",
    .plain "time_spent_seconds", .plain "completed_at"]

def ofJson? (j : Json) : Option SessionPatch := do
  match ← Json.slots? fields j with
  | [status, lives, violations, auto, spent, completed] => do
    let status ← Json.optional Status.ofJson? status
    let livesRemaining ← Json.optional Json.nat8? lives
    let totalViolations ← Json.optional Json.nat32? violations
    let autoSubmitted ← Json.optional Json.bool? auto
    let timeSpentSeconds ← Json.optional Json.nat64? spent
    let completedAt ← Json.optional Stamp.ofJson? completed
    some
      { status := status, livesRemaining, totalViolations, autoSubmitted, timeSpentSeconds,
        completedAt }
  | _ => none

end SessionPatch

end Invigilator
