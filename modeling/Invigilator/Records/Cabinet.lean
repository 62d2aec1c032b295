import Invigilator.Access.Gate
import Invigilator.Exam.Fault
import Invigilator.Records.Write

/-!
# The cabinet

The records of all sittings, in memory: sessions and violations by their ids, answers by
session and question. Creating a record that exists replaces it. The cabinet can be switched
off, and then every call fails and changes nothing.
-/

namespace Invigilator

structure Cabinet where
  /-- In the order they were created. -/
  sessions : List Session
  /-- Each with the session it belongs to. -/
  answers : List (String × Answer)
  /-- In the order they were recorded. -/
  violations : List Violation
  available : Bool
deriving DecidableEq, Repr, Inhabited

namespace Cabinet

def empty : Cabinet := ⟨[], [], [], true⟩

/-- The most sessions that one list holds. -/
def listLimit : Int := 200

/-- What a cabinet that is switched off says. -/
def unavailable : BackendFault := .plain "in-memory exam store is unavailable"

def sessionMissing (id : String) : BackendFault :=
  .plain ("Exam session " ++ id ++ " not found")

def answerMissing (id : String) (index : Nat) : BackendFault :=
  .plain ("Answer " ++ Decimal.text index ++ " of " ++ id ++ " not found")

/-- A call that fails when the cabinet is switched off. -/
def guarded (c : Cabinet) (call : Except BackendFault α) : Except BackendFault α :=
  if c.available then call else .error unavailable

/-! ## Writing -/

def createSession (c : Cabinet) (session : Session) : Except BackendFault Cabinet :=
  c.guarded <| .ok
    { c with sessions := c.sessions.filter (fun s => s.id != session.id) ++ [session] }

/-- Changes the first element that a test picks. -/
def updateFirst (picks : α → Bool) (change : α → α) : List α → List α
  | [] => []
  | a :: rest => if picks a then change a :: rest else a :: updateFirst picks change rest

def updateSession (c : Cabinet) (id : String) (patch : SessionPatch) :
    Except BackendFault Cabinet :=
  c.guarded <|
    if c.sessions.any fun s => s.id == id then
      .ok { c with sessions := updateFirst (fun s => s.id == id) patch.applyTo c.sessions }
    else .error (sessionMissing id)

/-- Whether an entry is the answer to a question of a session. -/
def isAnswerTo (id : String) (index : Nat) (entry : String × Answer) : Bool :=
  entry.1 == id && entry.2.questionIndex == index

def createAnswer (c : Cabinet) (id : String) (answer : Answer) : Except BackendFault Cabinet :=
  c.guarded <| .ok
    { c with
      answers := (c.answers.filter fun e => !isAnswerTo id answer.questionIndex e) ++
        [(id, answer)] }

def updateAnswer (c : Cabinet) (id : String) (index : Nat) (patch : AnswerPatch) :
    Except BackendFault Cabinet :=
  c.guarded <|
    if c.answers.any (isAnswerTo id index) then
      .ok
        { c with
          answers := updateFirst (isAnswerTo id index) (fun e => (e.1, patch.applyTo e.2))
            c.answers }
    else .error (answerMissing id index)

def recordViolation (c : Cabinet) (violation : Violation) : Except BackendFault Cabinet :=
  c.guarded <| .ok
    { c with violations := c.violations.filter (fun v => v.id != violation.id) ++ [violation] }

/-! ## Reading -/

def session? (c : Cabinet) (id : String) : Except BackendFault (Option Session) :=
  c.guarded <| .ok (c.sessions.find? fun s => s.id == id)

/-- The answers of a session, by question. -/
def answersOf (c : Cabinet) (id : String) : Except BackendFault (List Answer) :=
  c.guarded <| .ok <|
    ((c.answers.filter fun e => e.1 == id).map Prod.snd).mergeSort fun a b =>
      a.questionIndex ≤ b.questionIndex

/-- The violations of a session, in the order they were recorded. -/
def violationsOf (c : Cabinet) (id : String) : Except BackendFault (List Violation) :=
  c.guarded <| .ok (c.violations.filter fun v => v.sessionId == id)

/-- How many sessions a list holds when so many were asked for. -/
def clampLimit (limit : Int) : Nat := (max 1 (min limit listLimit)).toNat

/-- The latest sessions, latest first. -/
def latest (c : Cabinet) (limit : Int) : Except BackendFault (List Session) :=
  c.guarded <| .ok <|
    (c.sessions.mergeSort fun a b => !Stamp.lt a.startedAt b.startedAt).take (clampLimit limit)

def ping (c : Cabinet) : Except BackendFault Unit := c.guarded (.ok ())

end Cabinet

/-- The cabinet and the gate, which the writes of a sitting go to. -/
structure Records where
  cabinet : Cabinet
  gate : Gate
deriving DecidableEq, Repr, Inhabited

namespace Records

def empty : Records := ⟨.empty, .empty⟩

/-- Carries out a write at a moment. -/
def apply (r : Records) (time : Stamp) : RecordWrite → Except BackendFault Records
  | .createSession s => (r.cabinet.createSession s).map fun c => { r with cabinet := c }
  | .createAnswer id a => (r.cabinet.createAnswer id a).map fun c => { r with cabinet := c }
  | .updateSession id p => (r.cabinet.updateSession id p).map fun c => { r with cabinet := c }
  | .updateAnswer id i p => (r.cabinet.updateAnswer id i p).map fun c => { r with cabinet := c }
  | .recordViolation v => (r.cabinet.recordViolation v).map fun c => { r with cabinet := c }
  | .blockUser user id => .ok { r with gate := r.gate.block user id time }

/-- What becomes of an attempt at a write on its way. -/
inductive Passage where
  | arrives
  | lost
  | unacknowledged
deriving DecidableEq, Repr, Inhabited

/-- An attempt at a write: it may get lost, or be carried out without word of it coming back. -/
def attempt (r : Records) (time : Stamp) (passage : Passage) (w : RecordWrite) :
    Except BackendFault Unit × Records :=
  match passage with
  | .lost => (.error (.plain "write lost"), r)
  | .arrives =>
    match r.apply time w with
    | .ok r => (.ok (), r)
    | .error e => (.error e, r)
  | .unacknowledged =>
    match r.apply time w with
    | .ok r => (.error (.plain "ack lost"), r)
    | .error e => (.error e, r)

end Records

end Invigilator
