import Invigilator.Exam.Catalog
import Invigilator.Lives.Attempt
import Invigilator.Records.Cabinet

/-!
# Records in a document database

The same records as in the cabinet, the gate and the catalog, kept in a document database: the
commands that are sent, and how the replies are read. The database is an argument, a function
on its own state. One document that cannot be read spoils a whole list.

Documents hold signed numbers of 64 bits. A record with a larger number cannot be written, and
no command is sent for it.
-/

namespace Invigilator.Documents

/-- What an update does to a document: it sets some members, or puts a new one in its place. -/
inductive Change where
  | set (members : List (String × Json))
  | replace (members : List (String × Json))

/-- The members that a document must have to be meant. -/
abbrev Filter := List (String × Json)

inductive Command where
  | find (collection : String) (filter : Filter) (sort : Option (String × Int))
      (limit : Option Int)
  | update (collection : String) (filter : Filter) (change : Change) (upsert : Bool)
  | ping

def Command.toJson : Command → Json
  | .find collection filter sort limit =>
    let sort : List (String × Json) :=
      match sort with
      | none => []
      | some (name, n) => [("sort", .object [(name, .int n)])]
    let limit : List (String × Json) :=
      match limit with
      | none => []
      | some n => [("limit", .int n)]
    .object ([("command", .text "find"), ("collection", .text collection),
      ("filter", .object filter)] ++ sort ++ limit)
  | .update collection filter change upsert =>
    let update : Json :=
      match change with
      | .set members => .object [("$set", .object members)]
      | .replace members => .object members
    .object ([("command", .text "update"), ("collection", .text collection),
      ("filter", .object filter), ("update", update)] ++
      if upsert then [("upsert", .bool true)] else [])
  | .ping => .object [("command", .text "ping"), ("collection", .text "")]

inductive Reply where
  | documents (documents : List Json)
  | modified (count : Int)
  | done
  | refused (text : String)

/-- A database: what it replies to a command, and its state afterwards. -/
abbrev Server (σ : Type) := Command → σ → Reply × σ

/-! ## A prepared database -/

/-- A database that keeps nothing. Its replies are prepared, and it remembers what it was sent. -/
structure Prepared where
  /-- What every search finds. -/
  documents : List Json
  /-- How many documents every update changes. -/
  modified : Int
  refusesAll : Bool
  refusesUpdates : Bool
  /-- The commands so far, latest first. -/
  received : List Command

/-- What the database replies to a command. -/
def Prepared.answer (c : Command) (p : Prepared) : Reply × Prepared :=
  let p := { p with received := c :: p.received }
  if p.refusesAll then (.refused "command refused", p)
  else
    match c with
    | .find .. => (.documents p.documents, p)
    | .update .. =>
      if p.refusesUpdates then (.refused "write error", p) else (.modified p.modified, p)
    | .ping => (.done, p)

/-! ## What can be written -/

/-- The largest number that a document holds. -/
def largest : Int := Int.pow 2 63 - 1

mutual

/-- Whether every number of a value can be held by a document. -/
def fits : Json → Bool
  | .int n => n ≤ largest
  | .list items => allFit items
  | .object members => membersFit members
  | _ => true

def allFit : List Json → Bool
  | [] => true
  | j :: rest => fits j && allFit rest

def membersFit : List (String × Json) → Bool
  | [] => true
  | (_, j) :: rest => fits j && membersFit rest

end

/-! ## What is read

A document is read by rules of its own. A whole number beyond 64 signed bits became a double, and
a number may be written as an object that names its width. A word is a text and nothing else. A
list may be longer than what is read from it.
-/

/-- Reads a whole number with any sign, of so many bits. -/
def signedNumber? (bits : Nat) (text : String) : Option Int :=
  let n? : Option Int :=
    match text.toList with
    | '-' :: digits => (Decimal.read? digits).map fun n => -(n : Int)
    | '+' :: digits => (Decimal.read? digits).map fun n => (n : Int)
    | digits => (Decimal.read? digits).map fun n => (n : Int)
  n?.filter fun n => -Int.pow 2 (bits - 1) ≤ n ∧ n < Int.pow 2 (bits - 1)

/-- The number that an object stands for, if it names the width of one. -/
def number? : List (String × Json) → Option Int
  | [("$numberInt", .text digits)] => signedNumber? 32 digits
  | [("$numberLong", .text digits)] => signedNumber? 64 digits
  | _ => none

mutual

/-- The value that a document holds for a JSON value. -/
def stored : Json → Json
  | .int n => if -Int.pow 2 63 ≤ n ∧ n ≤ largest then .int n else .real (Decimal.intDigits n)
  | .list items => .list (storedItems items)
  | .object members =>
    match number? members with
    | some n => .int n
    | none => .object (storedMembers members)
  | j => j

def storedItems : List Json → List Json
  | [] => []
  | j :: rest => stored j :: storedItems rest

def storedMembers : List (String × Json) → List (String × Json)
  | [] => []
  | (name, j) :: rest => (name, stored j) :: storedMembers rest

end

/-- The value with one member changed. -/
def changeMember (name : String) (change : Json → Json) : Json → Json
  | .object members => .object (members.map fun m => if m.1 = name then (m.1, change m.2) else m)
  | j => j

/-- A list cut to a length. -/
def cutTo (length : Nat) : Json → Json
  | .list items => .list (items.take length)
  | j => j

/-- The items of a list, each cut to a length. -/
def cutItemsTo (length : Nat) : Json → Json
  | .list items => .list (items.map (cutTo length))
  | j => j

/-- A value that is no word unless it is a text. -/
def plainWord : Json → Json
  | .object _ => .object []
  | j => j

/-- A word that may be an object which holds nothing under it. -/
def unfoldedWord : Json → Json
  | .object [(name, .null)] => .text name
  | .object [(name, .object [])] => .text name
  | j => j

def readSession? (doc : Json) : Option Session :=
  Session.ofJson? <| changeMember "language" plainWord <| changeMember "status" plainWord <|
    changeMember "question_ids" (cutTo 3) (stored doc)

def readViolation? (doc : Json) : Option Violation :=
  Violation.ofJson? (changeMember "violation_type" plainWord (stored doc))

def readEligibility? (doc : Json) : Option EligibilityRecord :=
  EligibilityRecord.ofJson? (changeMember "status" plainWord (stored doc))

def readQuestion? (doc : Json) : Option Question :=
  Question.ofJson? <| changeMember "language" plainWord <| changeMember "difficulty" plainWord <|
    changeMember "visible_test_cases" (cutItemsTo 2) <|
    changeMember "hidden_test_cases" (cutItemsTo 2) (stored doc)

/-- An answer with the session it belongs to. Its members were in memory before it was known
what they are, so its status may be unfolded. -/
def readAnswer? (doc : Json) : Option Answer := do
  let doc := changeMember "status" unfoldedWord (stored doc)
  match ← Json.slots? [.plain "session_id"] doc with
  | [id] => do
    let _ ← Json.needed Json.text? id
    Answer.ofJson? doc
  | _ => none

/-- A question's number as a signed number of 64 bits. -/
def indexNumber (index : Nat) : Json := .int (Int.bmod index (Nat.pow 2 64))

/-! ## Talking to the database -/

variable {σ : Type} (server : Server σ)

/-- Fails in a context. -/
def failure (context cause : String) : BackendFault := (BackendFault.plain cause).within context

/-- What a value that cannot be written says. -/
def tooLarge : String := "number too large for a document"

/-- Sends a command and reads the reply. -/
def ask (context : String) (command : Command) (read : Reply → Except String α) : Attempt σ α :=
  fun s =>
    match server command s with
    | (.refused text, s) => ((.error (failure context text), s), [])
    | (reply, s) =>
      match read reply with
      | .ok x => ((.ok x, s), [])
      | .error cause => ((.error (failure context cause), s), [])

/-- The documents of a reply, not yet read. -/
def documentsOf : Reply → Except String (List Json)
  | .documents docs => .ok docs
  | _ => .error "unexpected reply"

/-- The count of a reply, which must not be negative. -/
def countOf : Reply → Except String Int
  | .modified n => if n < 0 then .error "negative count" else .ok n
  | _ => .error "unexpected reply"

/-- Finds documents and reads every one of them. -/
def findAll (queryContext collectContext : String) (read : Json → Option α) (command : Command) :
    Attempt σ (List α) := do
  let docs ← ask server queryContext command documentsOf
  match docs.mapM read with
  | some records => pure records
  | none => Attempt.fail (failure collectContext "document cannot be read")

/-- Finds one document; any further are passed over. -/
def findOne (context : String) (read : Json → Option α) (collection : String) (filter : Filter) :
    Attempt σ (Option α) :=
  ask server context (.find collection filter none (some 1)) fun reply =>
    match documentsOf reply with
    | .error cause => .error cause
    | .ok [] => .ok none
    | .ok (doc :: _) =>
      match read doc with
      | some record => .ok (some record)
      | none => .error "document cannot be read"

/-- Puts a record in the place of an earlier one, if there is one. -/
def replaceOne (context collection : String) (filter : Filter) (members : List (String × Json)) :
    Attempt σ Unit :=
  if membersFit members then do
    let _ ← ask server context (.update collection filter (.replace members) true) countOf
    pure ()
  else Attempt.fail (failure context tooLarge)

/-- Sets members of a record; says how many records were changed. -/
def setMembers (context collection : String) (filter : Filter) (members : List (String × Json))
    (upsert : Bool) : Attempt σ Int :=
  ask server context (.update collection filter (.set members) upsert) countOf

/-- Members that can be written, or a failure in a context. -/
def encode (context : String) (members : List (String × Json)) :
    Attempt σ (List (String × Json)) :=
  if membersFit members then pure members else Attempt.fail (failure context tooLarge)

/-- An operation that is counted. -/
def counted (operation : String) (a : Attempt σ α) : Attempt σ α :=
  Attempt.tracked "mongodb" operation a

/-! ## Sittings -/

def sessions : String := "exam_sessions"

def answers : String := "exam_answers"

def violations : String := "exam_violations"

def createSession (s : Session) : Attempt σ String := do
  counted "create_session"
    (replaceOne server "Failed to insert exam session" sessions [("id", .text s.id)] s.members)
  pure s.id

/-- Changes a session; a patch that changes nothing is not sent. -/
def updateSession (id : String) (patch : SessionPatch) : Attempt σ Unit := do
  let members ← encode "Failed to encode session patch" patch.members
  if members.isEmpty then pure ()
  else
    let _ ← counted "update_session"
      (setMembers server "Failed to update exam session" sessions [("id", .text id)] members false)
    pure ()

/-- The members by which an answer is found. -/
def answerFilter (id : String) (index : Nat) : Filter :=
  [("session_id", .text id), ("question_index", indexNumber index)]

def createAnswer (id : String) (a : Answer) : Attempt σ Unit :=
  counted "create_answer"
    (replaceOne server "Failed to insert answer placeholder" answers
      (answerFilter id a.questionIndex) (("session_id", .text id) :: a.members))

/-- Changes an answer; a patch that changes nothing is not sent. -/
def updateAnswer (id : String) (index : Nat) (patch : AnswerPatch) : Attempt σ Unit := do
  let members ← encode "Failed to encode answer patch" patch.members
  if members.isEmpty then pure ()
  else
    let _ ← counted "update_answer"
      (setMembers server "Failed to update answer" answers (answerFilter id index) members false)
    pure ()

def recordViolation (v : Violation) : Attempt σ Unit :=
  counted "record_violation"
    (replaceOne server "Failed to insert violation" violations [("id", .text v.id)] v.members)

def session? (id : String) : Attempt σ (Option Session) :=
  counted "get_session"
    (findOne server "Failed to query exam session" readSession? sessions [("id", .text id)])

def answersOf (id : String) : Attempt σ (List Answer) :=
  findAll server "Failed to query answers" "Failed to collect answers" readAnswer?
    (.find answers [("session_id", .text id)] (some ("question_index", 1)) none)

def violationsOf (id : String) : Attempt σ (List Violation) :=
  findAll server "Failed to query violations" "Failed to collect violations" readViolation?
    (.find violations [("session_id", .text id)] none none)

/-- The latest sessions, latest first. -/
def latest (limit : Int) : Attempt σ (List Session) :=
  findAll server "Failed to list exam sessions" "Failed to collect exam sessions" readSession?
    (.find sessions [] (some ("started_at", -1)) (some (Cabinet.clampLimit limit)))

def ping : Attempt σ Unit :=
  ask server "MongoDB ping failed" .ping fun _ => .ok ()

/-! ## Eligibility -/

def eligibility : String := "exam_eligibility"

def isEligible (userId : String) : Attempt σ Bool := do
  let record ← counted "eligibility_get"
    (findOne server "Failed to query exam eligibility" readEligibility? eligibility
      [("user_id", .text userId)])
  pure (!record.any (·.isBlocked))

def block (userId sessionId : String) (time : Stamp) : Attempt σ Unit := do
  let members ← encode "Failed to encode eligibility record"
    (EligibilityRecord.block userId sessionId time).members
  let _ ← counted "eligibility_block"
    (setMembers server "Failed to block user" eligibility [("user_id", .text userId)] members true)
  Attempt.note
    [.info ("User " ++ userId ++ " blocked from retakes after session " ++ sessionId)]

/-- Approves a retake; says whether the user was blocked. -/
def approve (userId approver : String) (time : Stamp) : Attempt σ Bool := do
  let count ← counted "eligibility_approve"
    (setMembers server "Failed to approve retake" eligibility
      [("user_id", .text userId), ("status", EligibilityStatus.blocked.toJson)]
      [("status", EligibilityStatus.approved.toJson), ("approved_by", .text approver),
        ("approved_at", .text time.writeWithOffset)] false)
  pure (0 < count)

def blocked : Attempt σ (List EligibilityRecord) :=
  findAll server "Failed to query blocked users" "Failed to collect blocked users"
    readEligibility?
    (.find eligibility [("status", EligibilityStatus.blocked.toJson)] none none)

/-! ## Questions -/

def questions : String := "exam_questions"

/-- The questions of a language, narrowed to a topic when one is given. -/
def pool (language : Language) (topic : Option String) : Attempt σ (List Question) := do
  let found ← counted "questions_for"
    (findAll server "Failed to query exam questions" "Failed to collect exam questions"
      readQuestion? (.find questions [("language", language.toJson)] none none))
  pure (found.filter (Catalog.hasTopic topic))

/-- The questions of a language with the ids asked for, in their order. -/
def byIds (language : Language) (ids : List String) : Attempt σ (List Question) := do
  let found ←
    findAll server "Failed to query exam questions by id" "Failed to collect exam questions"
      readQuestion?
      (.find questions
        [("language", language.toJson), ("id", .object [("$in", .listOf .text ids)])] none none)
  pure (Catalog.orderByIds found ids)

end Invigilator.Documents
