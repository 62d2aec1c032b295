import Invigilator.Exam.Answer
import Invigilator.Exam.Session
import Invigilator.Exam.Violation
import Invigilator.Records.Retry

/-!
# Writes

What a sitting sends to the records: each write names what it creates or changes, so that doing
it twice is the same as doing it once.
-/

namespace Invigilator

inductive RecordWrite where
  | createSession (session : Session)
  | createAnswer (sessionId : String) (answer : Answer)
  | updateSession (sessionId : String) (patch : SessionPatch)
  | updateAnswer (sessionId : String) (index : Nat) (patch : AnswerPatch)
  | recordViolation (violation : Violation)
  | blockUser (userId sessionId : String)
deriving DecidableEq, Repr, Inhabited

namespace RecordWrite

def name : RecordWrite → String
  | createSession _ => "create_session"
  | createAnswer .. => "create_answer"
  | updateSession .. => "update_session"
  | updateAnswer .. => "update_answer"
  | recordViolation _ => "record_violation"
  | blockUser .. => "block_user"

/-- Penalties and final outcomes are tried for longer than the rest. -/
def retryPolicy : RecordWrite → RetryPolicy
  | recordViolation _ => .persistent
  | blockUser .. => .persistent
  | updateSession _ patch => if patch.completedAt.isSome then .persistent else .standard
  | createSession _ => .standard
  | createAnswer .. => .standard
  | updateAnswer .. => .standard

end RecordWrite

end Invigilator
