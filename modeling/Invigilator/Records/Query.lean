import Invigilator.Records.Documents

/-!
# Queries

What the records of sittings can be asked, as values, and the answers of the cabinet and of the
database. Writes are values as well (`RecordWrite`); here the database learns to carry them
out.
-/

namespace Invigilator

inductive RecordQuery where
  | session (id : String)
  | answers (id : String)
  | violations (id : String)
  | latest (limit : Int)
  | ping
deriving DecidableEq, Repr, Inhabited

/-- The answer of the cabinet to a query. -/
def Cabinet.answer (c : Cabinet) : RecordQuery → Except BackendFault Json
  | .session id => (c.session? id).map (.option Session.toJson)
  | .answers id => (c.answersOf id).map (.listOf Answer.toJson)
  | .violations id => (c.violationsOf id).map (.listOf Violation.toJson)
  | .latest limit => (c.latest limit).map (.listOf Session.toJson)
  | .ping => c.ping.map fun _ => .null

/-- Everything in the cabinet about a session, or nothing when the cabinet is switched off. -/
def Cabinet.fileOf (c : Cabinet) (id : String) : Json :=
  let read (q : RecordQuery) (nothing : Json) : Json := (c.answer q).toOption.getD nothing
  .object [("session", read (.session id) .null), ("answers", read (.answers id) (.list [])),
    ("violations", read (.violations id) (.list []))]

namespace Documents

variable {σ : Type} (server : Server σ)

/-- The answer of the database to a query. -/
def answer : RecordQuery → Attempt σ Json
  | .session id => do return .option Session.toJson (← session? server id)
  | .answers id => do return .listOf Answer.toJson (← answersOf server id)
  | .violations id => do return .listOf Violation.toJson (← violationsOf server id)
  | .latest limit => do return .listOf Session.toJson (← latest server limit)
  | .ping => do
    ping server
    return .null

/-- Carries out a write at a moment. -/
def apply (time : Stamp) : RecordWrite → Attempt σ Unit
  | .createSession s => do
    let _ ← createSession server s
  | .createAnswer id a => createAnswer server id a
  | .updateSession id p => updateSession server id p
  | .updateAnswer id i p => updateAnswer server id i p
  | .recordViolation v => recordViolation server v
  | .blockUser user id => block server user id time

end Documents

end Invigilator
