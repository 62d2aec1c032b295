import Invigilator.Exam.Answer
import Invigilator.Exam.Session
import Invigilator.Exam.Signal

/-!
# Snapshots

Everything that is known of a sitting at one moment: the session, its answers and violations,
the clock and the pending violation. A snapshot that comes from stored records has neither of
the last two.
-/

namespace Invigilator

/-- What the exam clock shows. -/
structure TimerStatus where
  totalSeconds : Nat
  elapsedSeconds : Nat
  remainingSeconds : Nat
  canSubmit : Bool
  secondsUntilSubmit : Nat
  timeCritical : Bool
deriving DecidableEq, Repr, Inhabited

namespace TimerStatus

def toJson (t : TimerStatus) : Json :=
  .object [("total_seconds", .nat t.totalSeconds), ("elapsed_seconds", .nat t.elapsedSeconds),
    ("remaining_seconds", .nat t.remainingSeconds), ("can_submit", .bool t.canSubmit),
    ("seconds_until_submit", .nat t.secondsUntilSubmit), ("time_critical", .bool t.timeCritical)]

def fields : List Json.Field :=
  [.plain "total_seconds", .plain "elapsed_seconds", .plain "remaining_seconds",
    .plain "can_submit", .plain "seconds_until_submit", .plain "time_critical"]

def ofJson? (j : Json) : Option TimerStatus := do
  match ← Json.slots? fields j with
  | [total, elapsed, remaining, can, locked, critical] => do
    let totalSeconds ← Json.needed Json.nat64? total
    let elapsedSeconds ← Json.needed Json.nat64? elapsed
    let remainingSeconds ← Json.needed Json.nat64? remaining
    let canSubmit ← Json.needed Json.bool? can
    let secondsUntilSubmit ← Json.needed Json.nat64? locked
    let timeCritical ← Json.needed Json.bool? critical
    some
      { totalSeconds := totalSeconds, elapsedSeconds, remainingSeconds, canSubmit,
        secondsUntilSubmit, timeCritical }
  | _ => none

end TimerStatus

/-- What is known of a sitting at one moment. -/
structure Snapshot where
  session : Session
  answers : List Answer
  violations : List Violation
  timer : Option TimerStatus
  pendingViolation : Option ViolationType
deriving DecidableEq, Repr, Inhabited

namespace Snapshot

def members (s : Snapshot) : List (String × Json) :=
  [("session", s.session.toJson), ("answers", .listOf Answer.toJson s.answers),
    ("violations", .listOf Violation.toJson s.violations),
    ("timer", .option TimerStatus.toJson s.timer),
    ("pending_violation", .option ViolationType.toJson s.pendingViolation)]

def toJson (s : Snapshot) : Json := .object s.members

def fields : List Json.Field :=
  [.plain "session", .plain "answers", .plain "violations", .plain "timer",
    .plain "pending_violation"]

def ofJson? (j : Json) : Option Snapshot := do
  match ← Json.slots? fields j with
  | [session, answers, violations, timer, pending] => do
    let session ← Json.needed Session.ofJson? session
    let answers ← Json.needed (Json.listOf? Answer.ofJson?) answers
    let violations ← Json.needed (Json.listOf? Violation.ofJson?) violations
    let timer ← Json.optional TimerStatus.ofJson? timer
    let pendingViolation ← Json.optional ViolationType.ofJson? pending
    some { session := session, answers, violations, timer, pendingViolation }
  | _ => none

end Snapshot

end Invigilator
