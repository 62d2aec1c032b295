import Invigilator.Exam.Request
import Invigilator.Exam.Score
import Invigilator.Service.State
import Invigilator.Text.Quoted

/-!
# Exams

What candidates ask of the service: to start an exam, to see it, to hand in answers, to report
signals, to submit, and to follow its events. A session belongs to one user, and every call of
another is refused. A session that is no longer running answers from the archive, and when it
has left that, from the records.
-/

namespace Invigilator.Service

open Call

variable {σ : Type}

/-! ## Starting -/

/-- The times that the sittings of a policy go by. -/
def pace (s : Settings) : Pace :=
  { totalSeconds := s.durationSeconds, submitUnlockSeconds := s.submitUnlockSeconds,
    timeCriticalSeconds := s.timeCriticalSeconds, grace := s.graceMs, tick := s.tickMs }

/-- The first question to a start: the user is not sitting another exam. -/
def checkFree (userId : String) : Call σ Unit := do
  match (← service).hall.registry.sessionOf? userId with
  | some id => fail (.alreadyInProgress id)
  | none => pure ()

/-- The second question to a start: the user may start an exam. -/
def checkEligible (userId : String) : Call σ Unit := do
  if (← service).hall.courier.records.gate.isEligible userId then pure ()
  else
    jot [.info ("Exam start refused, user " ++ userId ++ " is not eligible")]
    fail .ineligible

/-- How many questions of a level a pool has. -/
def levelCount (pool : List Question) (d : Difficulty) : String :=
  Decimal.text (Selection.atLevel pool d).length

/-- The line of the log about a pool that lacks a level. -/
def samplingNotes (pool : List Question) : List Note :=
  if 3 ≤ pool.length ∧ Selection.hasAllLevels pool = false then
    [.debug ("Pool lacks one question per difficulty (easy=" ++ levelCount pool .easy ++
      ", medium=" ++ levelCount pool .medium ++ ", hard=" ++ levelCount pool .hard ++
      "), sampling")]
  else []

/-- How the log shows a topic. -/
def topicText : Option String → String
  | none => "None"
  | some topic => "Some(" ++ Text.quoted topic ++ ")"

/-- The questions of a new exam. -/
def chooseQuestions (r : StartRequest) : Call σ (Trio Question) := do
  let s ← service
  let pool := s.catalog.pool r.language r.wantedTopic
  jot (samplingNotes pool)
  match Selection.choose? pool (s.hall.source.questions s.hall.drawn) with
  | some questions => pure questions
  | none =>
    jot [.warn ("Question pool exhausted: language=" ++ r.language.name ++ ", topic=" ++
      topicText r.wantedTopic ++ ", available=" ++ Decimal.text pool.length)]
    fail (.selectionExhausted r.language (r.wantedTopic.getD "any") pool.length)

/-- The placeholders of the answers to the questions of an exam. -/
def placeholders (questions : Trio Question) : List Answer :=
  questions.toList.zipIdx.map fun (q, index) => .placeholder index q

/-- A seat for a new session, with the directives for its candidate. -/
def newSeat (settings : Settings) (h : Hall) (userId : String) (language : Language)
    (questions : Trio Question) : Seat × List Directive :=
  let session := Session.begin (h.source.sessionId h.drawn) userId language
    (questions.map Question.id) settings.maxLives h.time
  let (sitting, directives) :=
    (Sitting.new session (placeholders questions) (pace settings)).arm settings.durationSeconds
      h.now
  ({ sitting, rules := ⟨settings.maxLives, none⟩, lives := .empty, livesTime := none,
     tick := settings.tickMs, nextTick := h.now + settings.tickMs }, directives)

/-- The rest of a start, once the two questions are answered. -/
def begin (userId : String) (r : StartRequest) : Call σ StartResponse := do
  let questions ← chooseQuestions r
  let s ← service
  let settings := s.config.exam
  let (seat, directives) := newSeat settings s.hall userId r.language questions
  let id := seat.sitting.session.id
  match s.hall.draw.launch seat with
  | .error existing => fail (.alreadyInProgress existing)
  | .ok hall => do
    changeHall fun _ => hall
    jot [.info ("Exam started: session=" ++ id ++ ", user=" ++ userId ++ ", language=" ++
      r.language.name ++ ", questions=" ++ Text.quotedList (questions.toList.map Question.id))]
    pure
      { sessionId := id, language := r.language,
        questions := questions.toList.map Question.view, livesRemaining := settings.maxLives,
        totalSeconds := settings.durationSeconds,
        secondsUntilSubmit := settings.submitUnlockSeconds, directives := directives }

/-- A start from the second question on. -/
def enrol (userId : String) (r : StartRequest) : Call σ StartResponse := do
  checkEligible userId
  begin userId r

/-- Starts an exam. -/
def start (userId : String) (r : StartRequest) : Call σ StartResponse := do
  checkFree userId
  enrol userId r

/-! ## Sessions and their owners -/

/-- Whether a session is running, for its owner alone. -/
def isRunningFor (id userId : String) : Call σ Bool := do
  match (← service).hall.registry.find? id with
  | none => pure false
  | some running => if running.userId = userId then pure true else fail .forbidden

/-- The snapshot of a session in the records. -/
def recorded (id : String) : Call σ Snapshot := do
  let cabinet := (← service).hall.courier.records.cabinet
  match ← ofBackend (cabinet.session? id) with
  | none => fail .sessionNotFound
  | some session => do
    let answers ← ofBackend (cabinet.answersOf id)
    let violations ← ofBackend (cabinet.violationsOf id)
    pure { session, answers, violations, timer := none, pendingViolation := none }

/-- The snapshot of a session that is not running, for its owner alone. -/
def finished (id userId : String) : Call σ Snapshot := do
  let snapshot ←
    match (← service).hall.registry.archive.find? id with
    | some snapshot => pure snapshot
    | none => recorded id
  if snapshot.session.userId = userId then pure snapshot else fail .forbidden

/-- Tells a session of its owner of an event; nothing is answered if it is not running. -/
def tell (id userId : String) (stimulus : Stimulus) : Call σ (Option Reply) := do
  if ← isRunningFor id userId then askHall fun h => h.tell id stimulus
  else pure none

/-- A snapshot of a session. -/
def snapshot (id userId : String) : Call σ Snapshot := do
  match ← tell id userId .look with
  | some (.snapshot result) => ofExcept result
  | _ => finished id userId

/-- What the candidate sees of the questions of a session. -/
def questions (snapshot : Snapshot) : Call σ (List QuestionView) := do
  let s ← service
  pure ((s.catalog.byIds snapshot.session.language snapshot.session.questionIds.toList).map
    Question.view)

/-- Something that only a running session answers. -/
def change (id userId : String) (stimulus : Stimulus) : Call σ Answer := do
  match ← tell id userId stimulus with
  | some (.answer result) => ofExcept result
  | some _ => fail .notActive
  | none => do
    let _ ← finished id userId
    fail .notActive

def updateAnswer (id userId : String) (index : Nat) (code : String) : Call σ Answer :=
  change id userId (.update index code)

def recordRun (id userId : String) (index : Nat) (result : RunResult) : Call σ Answer :=
  change id userId (.recordRun index result)

/-- A signal of the browser. One for a session that has ended has no effect. -/
def signal (id userId : String) (signal : Signal) : Call σ SignalOutcome := do
  match ← tell id userId (.signal signal) with
  | some (.outcome outcome) => pure outcome
  | _ => do
    let snapshot ← finished id userId
    jot [.debug ("Signal ignored for finished session " ++ id)]
    pure
      { directives := [], livesRemaining := snapshot.session.livesRemaining,
        pendingViolation := none, sessionActive := false }

/-- Hands an exam in. One that has ended is answered with its final state. -/
def submit (id userId : String) : Call σ Snapshot := do
  match ← tell id userId (.submit .user) with
  | some (.snapshot result) => ofExcept result
  | _ => finished id userId

def score (id userId : String) : Call σ Score := do
  let snapshot ← snapshot id userId
  pure (Score.ofAnswers id snapshot.answers)

/-- Subscribes to the events of a running session; gives the number of the subscription. -/
def subscribe (id userId : String) (eager : Bool) : Call σ Nat := do
  if ← isRunningFor id userId then
    let number ← askHall fun h => h.subscribe id eager
    jot [.info ("Client connected to exam stream: session=" ++ id ++ ", user=" ++ userId)]
    pure number
  else
    let _ ← finished id userId
    fail .notActive

/-! ## For administrators -/

/-- The latest sessions, with how many of them have each status. -/
structure SessionList where
  sessions : List Session
deriving DecidableEq, Repr

namespace SessionList

def count (l : SessionList) (status : Status) : Nat :=
  (l.sessions.filter fun s => s.status == status).length

def toJson (l : SessionList) : Json :=
  .object [
    ("stats", .object [("total", .nat l.sessions.length),
      ("in_progress", .nat (l.count .inProgress)), ("completed", .nat (l.count .completed)),
      ("disqualified", .nat (l.count .disqualified))]),
    ("sessions", .listOf Session.toJson l.sessions)]

end SessionList

def latest (limit : Int) : Call σ SessionList := do
  return ⟨← ofBackend ((← service).hall.courier.records.cabinet.latest limit)⟩

/-- The users who are blocked. -/
def blocked : Call σ (List EligibilityRecord) := do
  return (← service).hall.courier.records.gate.blocked

/-- Approves a retake; says whether the user was blocked. -/
def approve (userId approver : String) : Call σ Bool := do
  let approved ← askHall fun h =>
    let (gate, approved) := h.courier.records.gate.approve userId approver h.time
    (approved,
      { h with courier := { h.courier with records := { h.courier.records with gate := gate } } })
  if approved then jot [.info ("Retake approved: user=" ++ userId ++ ", by=" ++ approver)]
  else jot [.debug ("Retake approval ignored, user " ++ userId ++ " is not blocked")]
  pure approved

/-- Shuts every session down. -/
def shutdown : Call σ Unit := changeHall Hall.shutdown

end Invigilator.Service
