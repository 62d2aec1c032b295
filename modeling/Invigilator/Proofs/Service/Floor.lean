import Invigilator.Proofs.Service.Inquiry
import Invigilator.Proofs.Service.Seat
import Mathlib.Logic.Function.Basic

/-!
# The floor

A call of the service is one step of the hall, but it is made of smaller ones, and between those
others get their turn. The floor has them apart. A session is run at a desk, which takes letters
out of a queue one by one until the sitting is over; then its final snapshot is filed, then the
session is released from the registry, and last the desk is closed and what letters are left go
unanswered. A start asks whether its user is free, then whether the user may start, then has a
seat launched. An inquiry looks its session up, sends its letter, and waits; if no answer comes, it
searches the archive, and then reads the records. Scribes work when they get to it.

A move is one such step, of whoever has it, and a run is any list of moves: one whose time has not
come does nothing. The ghost `filed` remembers the sessions in the order they were filed.
-/

namespace Invigilator

/-! ## Steps of the hall -/

namespace Hall

/-- The hall after a turn at a seat. A sitting that is over keeps its seat. -/
def act (h : Hall) (id : String) (seat : Seat) (state : Sitting × Shelf)
    (actions : List Action) : Hall :=
  let h := actions.foldl (fun h a => h.perform id a) h.draw
  { h with
    registry := h.registry.update id { seat with sitting := state.1, lives := state.2 } }

/-- Something happens to a session; the answer, unless it has no seat. -/
def turn (h : Hall) (id : String) (x : Stimulus) : Option Reply × Hall :=
  match h.registry.find? id with
  | none => (none, h)
  | some running =>
    let seat := running.value
    let ((reply, state), actions) :=
      (Turn.step (ledger seat) (h.scene seat) x).run (seat.sitting, seat.lives)
    (some reply, h.act id seat state actions)

/-- The first turn of a session. -/
def commence (h : Hall) (id : String) : Hall :=
  match h.registry.find? id with
  | none => h
  | some running =>
    let seat := running.value
    let ((_, state), actions) := (Turn.begin : Turn Shelf Unit).run (seat.sitting, seat.lives)
    h.act id seat state actions

/-- Seats an armed sitting, unless its user sits another; then that session is given. -/
def accept (h : Hall) (seat : Seat) : Except String Hall :=
  let s := seat.sitting.session
  match h.registry.launch ⟨s.id, s.userId, seat⟩ with
  | .error existing => .error existing
  | .ok registry => .ok { h with registry := registry }

/-- Files the snapshot of a session. -/
def file (h : Hall) (id : String) : Hall :=
  match h.registry.find? id with
  | none => h
  | some running =>
    { h with registry := h.registry.file id running.value.sitting.snapshot }

/-- Takes a session from the running ones, and ends the connections to it. -/
def release (h : Hall) (id : String) : Hall :=
  ({ h with registry := h.registry.release id } : Hall).disconnect id

/-- Lets the scribe of a session make so many attempts at most. -/
def toil (h : Hall) (id : String) (attempts : Nat) : Hall :=
  let ((s, courier), notes) :=
    (h.scribe id).workFor h.now h.time (h.source.jitter h.drawn) attempts h.courier
  let h := ({ h with courier := courier } : Hall).draw.jot notes
  if s = .idle then { h with scribes := h.scribes.filter fun e => e.1 != id } else h.putScribe id s

end Hall

/-! ## Inquiries -/

namespace Inquiry

/-- What an inquiry tells a running session; a subscription tells it nothing. -/
def stimulus? : Inquiry → Option Stimulus
  | snapshot => some .look
  | score => some .look
  | updateAnswer index code => some (.update index code)
  | recordRun index result => some (.recordRun index result)
  | signal x => some (.signal x)
  | submit => some (.submit .user)
  | subscribe _ => none

/-- What an inquiry makes of a reply; nothing, if that is not to its question. -/
def ofReply? (id : String) : Inquiry → Reply → Option (Except Fault Told)
  | snapshot, .snapshot result => some (result.map .snapshot)
  | score, .snapshot result => some (result.map fun s => .score (Score.ofAnswers id s.answers))
  | updateAnswer .., .answer result => some (result.map .answer)
  | recordRun .., .answer result => some (result.map .answer)
  | signal _, .outcome outcome => some (.ok (.outcome outcome))
  | submit, .snapshot result => some (result.map .snapshot)
  | _, _ => none

/-- Whether an inquiry that gets no reply looks for the final state of its session. -/
def goesOn : Inquiry → Bool
  | snapshot => true
  | score => true
  | updateAnswer .. => false
  | recordRun .. => false
  | signal _ => true
  | submit => true
  | subscribe _ => true

/-- What an inquiry makes of the final snapshot of its session. -/
def ofFinal (id : String) (s : Snapshot) : Inquiry → Except Fault Told
  | snapshot => .ok (.snapshot s)
  | score => .ok (.score (Score.ofAnswers id s.answers))
  | updateAnswer .. => .error .notActive
  | recordRun .. => .error .notActive
  | signal _ =>
    .ok (.outcome { directives := [], livesRemaining := s.session.livesRemaining,
                    pendingViolation := none, sessionActive := false })
  | submit => .ok (.snapshot s)
  | subscribe _ => .error .notActive

/-- What is noted when the final snapshot of a session answers an inquiry. -/
def finalNotes (id : String) : Inquiry → List Note
  | signal _ => [.debug ("Signal ignored for finished session " ++ id)]
  | _ => []

end Inquiry

/-! ## The floor -/

/-- How far the run of a session has come. -/
inductive DeskStage where
  /-- The session is registered, and has not begun to run. -/
  | seated
  | running
  /-- The final snapshot is filed; the session is still registered. -/
  | filed
  /-- The session is not registered any more; letters still come in. -/
  | released
  | closed
deriving DecidableEq, Repr

/-- Where a session is run. -/
structure Desk where
  userId : String
  stage : DeskStage
  /-- The inquiries whose letters wait to be read, the next one first. -/
  letters : List Nat

/-- How far a start has come. -/
inductive EnrolmentStage where
  /-- It asks whether its user is free. -/
  | checking
  /-- It asks whether its user may start. -/
  | asking
  /-- It may have a seat launched. -/
  | entering
  /-- Its seat is launched. -/
  | launched (response : StartResponse)
  | done (result : Except Fault StartResponse)

/-- A start under way. -/
structure Enrolment where
  userId : String
  request : StartRequest
  stage : EnrolmentStage

/-- How far an inquiry has come. -/
inductive QueryStage where
  /-- It looks its session up among those that run. -/
  | looking
  /-- It has a letter to send. -/
  | sending
  | waiting
  | replied (result : Except Fault Told)
  /-- Its letter will not be answered. -/
  | unanswered
  /-- It looks for the final snapshot in the archive. -/
  | searching
  /-- It reads the records. -/
  | reading
  | done (result : Except Fault Told)

/-- An inquiry under way. -/
structure Query where
  id : String
  userId : String
  inquiry : Inquiry
  /-- Whether its user had the session when the inquiry came in. -/
  own : Bool
  stage : QueryStage

/-- A service with everything that is under way. -/
structure Floor (σ : Type) where
  service : Service σ
  desks : String → Option Desk
  enrolments : Nat → Option Enrolment
  queries : Nat → Option Query
  /-- The sessions that were filed, in order. -/
  filed : List String

/-- The next step of somebody on the floor. -/
inductive Move where
  | enrol (k : Nat) (userId : String) (request : StartRequest)
  | checkFree (k : Nat)
  | askGate (k : Nat)
  | launch (k : Nat)
  | confirm (k : Nat)
  | inquire (k : Nat) (id userId : String) (inquiry : Inquiry)
  | lookUp (k : Nat)
  | send (k : Nat)
  | receive (k : Nat)
  | search (k : Nat)
  | read (k : Nat)
  | commence (id : String)
  | handle (id : String)
  /-- A tick or the end of a grace period that is due. -/
  | fire (due : Hall.Due)
  | file (id : String)
  | release (id : String)
  | close (id : String)
  | write (id : String) (attempts : Nat)
  | approve (userId approver : String)
  /-- Time passes. -/
  | pass (ms : Nat)
  /-- Subscribers come, read and go, and notes are taken. -/
  | listen (relays : List Relay) (notes : List Note)
  /-- The cabinet is switched on or off. -/
  | switch (on : Bool)
  /-- So many of the next writes get lost, or are not acknowledged. -/
  | trouble (losses silences : Nat)

namespace Floor

variable {σ : Type}

/-- The floor of a service in which nothing has happened yet. -/
def opened (service : Service σ) : Floor σ :=
  { service, desks := fun _ => none, enrolments := fun _ => none, queries := fun _ => none,
    filed := [] }

abbrev hall (f : Floor σ) : Hall := f.service.hall

/-- Changes the hall. -/
def onHall (f : Floor σ) (g : Hall → Hall) : Floor σ :=
  { f with service := { f.service with hall := g f.service.hall } }

def putDesk (f : Floor σ) (id : String) (d : Desk) : Floor σ :=
  { f with desks := Function.update f.desks id (some d) }

def putEnrolment (f : Floor σ) (k : Nat) (e : Enrolment) : Floor σ :=
  { f with enrolments := Function.update f.enrolments k (some e) }

def putQuery (f : Floor σ) (k : Nat) (q : Query) : Floor σ :=
  { f with queries := Function.update f.queries k (some q) }

/-- A query comes to another stage. -/
def stageQuery (f : Floor σ) (k : Nat) (q : Query) (stage : QueryStage) : Floor σ :=
  f.putQuery k { q with stage }

/-! ### Starts -/

/-- A start makes a call, and goes on if that succeeds. -/
def enrolBy {α : Type} (f : Floor σ) (k : Nat) (e : Enrolment) (c : Call σ α)
    (next : α → EnrolmentStage) : Floor σ :=
  let (result, service) := c.run f.service
  let stage :=
    match result with
    | .ok x => next x
    | .error fault => .done (.error fault)
  ({ f with service := service } : Floor σ).putEnrolment k { e with stage }

/-- A seat is launched, and does not begin to run yet. -/
def admitWith (make : Settings → Hall → Seat × List Directive) (r : StartRequest)
    (questions : Trio Question) : Call σ StartResponse := do
  let s ← Call.service
  let settings := s.config.exam
  let (seat, directives) := make settings s.hall
  match s.hall.draw.accept seat with
  | .error existing => Call.fail (.alreadyInProgress existing)
  | .ok hall => do
    Call.changeHall fun _ => hall
    pure
      { sessionId := seat.sitting.session.id, language := r.language,
        questions := questions.toList.map Question.view, livesRemaining := settings.maxLives,
        totalSeconds := settings.durationSeconds,
        secondsUntilSubmit := settings.submitUnlockSeconds, directives := directives }

/-- What a start does when its two questions are answered, up to the launch. -/
def admission (userId : String) (r : StartRequest) : Call σ StartResponse := do
  let questions ← Service.chooseQuestions r
  admitWith (fun settings h => Service.newSeat settings h userId r.language questions) r questions

/-- What is noted of a start that has succeeded. -/
def startedNote (userId : String) (r : StartResponse) : Note :=
  .info ("Exam started: session=" ++ r.sessionId ++ ", user=" ++ userId ++ ", language=" ++
    r.language.name ++ ", questions=" ++ Text.quotedList (r.questions.map QuestionView.id))

def enrol (f : Floor σ) (k : Nat) (userId : String) (request : StartRequest) : Floor σ :=
  match f.enrolments k with
  | some _ => f
  | none => f.putEnrolment k ⟨userId, request, .checking⟩

def checkFree (f : Floor σ) (k : Nat) : Floor σ :=
  match f.enrolments k with
  | some e =>
    match e.stage with
    | .checking => f.enrolBy k e (Service.checkFree e.userId) fun _ => .asking
    | _ => f
  | none => f

def askGate (f : Floor σ) (k : Nat) : Floor σ :=
  match f.enrolments k with
  | some e =>
    match e.stage with
    | .asking => f.enrolBy k e (Service.checkEligible e.userId) fun _ => .entering
    | _ => f
  | none => f

/-- A start that may have a seat launched has it launched; a desk is set up for it. -/
def launch (f : Floor σ) (k : Nat) : Floor σ :=
  match f.enrolments k with
  | some e =>
    match e.stage with
    | .entering =>
      let f' := f.enrolBy k e (admission e.userId e.request) .launched
      match ((admission e.userId e.request).run f.service).1 with
      | .ok response => f'.putDesk response.sessionId ⟨e.userId, .seated, []⟩
      | .error _ => f'
    | _ => f
  | none => f

def confirm (f : Floor σ) (k : Nat) : Floor σ :=
  match f.enrolments k with
  | some e =>
    match e.stage with
    | .launched response =>
      (f.onHall (·.jot [startedNote e.userId response])).putEnrolment k
        { e with stage := .done (.ok response) }
    | _ => f
  | none => f

/-! ### Inquiries -/

/-- Whether a session was launched for a user. -/
def owns (f : Floor σ) (id userId : String) : Bool := (f.desks id).any fun d => d.userId = userId

def inquire (f : Floor σ) (k : Nat) (id userId : String) (inquiry : Inquiry) : Floor σ :=
  match f.queries k with
  | some _ => f
  | none => f.putQuery k ⟨id, userId, inquiry, f.owns id userId, .looking⟩

/-- A session that runs gets a letter, or a subscriber; another is looked for elsewhere. -/
def lookUp (f : Floor σ) (k : Nat) : Floor σ :=
  match f.queries k with
  | some q =>
    match q.stage with
    | .looking =>
      match ((Service.isRunningFor q.id q.userId).run f.service).1 with
      | .error fault => f.stageQuery k q (.done (.error fault))
      | .ok false => f.stageQuery k q .searching
      | .ok true =>
        match q.inquiry.stimulus? with
        | some _ => f.stageQuery k q .sending
        | none =>
          let (result, service) := (q.inquiry.call q.id q.userId).run f.service
          ({ f with service := service } : Floor σ).stageQuery k q (.done result)
    | _ => f
  | none => f

/-- How many letters wait at a desk at most. -/
def letterLimit : Nat := 32

/-- A letter is put behind the others, if there is room for it. A closed desk takes none. -/
def send (f : Floor σ) (k : Nat) : Floor σ :=
  match f.queries k with
  | some q =>
    match q.stage with
    | .sending =>
      match f.desks q.id with
      | none => f
      | some d =>
        if d.stage = .closed then f.stageQuery k q .unanswered
        else if d.letters.length < letterLimit then
          (f.putDesk q.id { d with letters := d.letters ++ [k] }).stageQuery k q .waiting
        else f
    | _ => f
  | none => f

def receive (f : Floor σ) (k : Nat) : Floor σ :=
  match f.queries k with
  | some q =>
    match q.stage with
    | .replied result => f.stageQuery k q (.done result)
    | .unanswered =>
      f.stageQuery k q (if q.inquiry.goesOn then .searching else .done (.error .notActive))
    | _ => f
  | none => f

/-- What comes of an inquiry when a final snapshot of its session is found. -/
def findFinal (f : Floor σ) (k : Nat) (q : Query) (s : Snapshot) : Floor σ :=
  if s.session.userId = q.userId then
    (f.onHall (·.jot (q.inquiry.finalNotes q.id))).stageQuery k q
      (.done (q.inquiry.ofFinal q.id s))
  else f.stageQuery k q (.done (.error .forbidden))

def search (f : Floor σ) (k : Nat) : Floor σ :=
  match f.queries k with
  | some q =>
    match q.stage with
    | .searching =>
      match f.hall.registry.archive.find? q.id with
      | some s => f.findFinal k q s
      | none => f.stageQuery k q .reading
    | _ => f
  | none => f

def read (f : Floor σ) (k : Nat) : Floor σ :=
  match f.queries k with
  | some q =>
    match q.stage with
    | .reading =>
      match ((Service.recorded q.id).run f.service).1 with
      | .ok s => f.findFinal k q s
      | .error fault => f.stageQuery k q (.done (.error fault))
    | _ => f
  | none => f

/-! ### Sessions -/

/-- Whether the sitting of a session is running, if it has a seat. -/
def isLive (f : Floor σ) (id : String) : Bool :=
  (f.hall.registry.find? id).any fun r => r.value.sitting.isRunning

def commence (f : Floor σ) (id : String) : Floor σ :=
  match f.desks id with
  | some d =>
    if d.stage = .seated then (f.onHall (·.commence id)).putDesk id { d with stage := .running }
    else f
  | none => f

/-- The next letter is read, and answered. -/
def answer (f : Floor σ) (id : String) (k : Nat) : Floor σ :=
  match f.queries k with
  | none => f
  | some q =>
    match q.stage with
    | .waiting =>
      if q.id = id then
        match q.inquiry.stimulus? with
        | none => f
        | some x =>
          let (reply?, hall) := f.hall.turn id x
          let stage : QueryStage :=
            match reply?.bind (q.inquiry.ofReply? id) with
            | some result => .replied result
            | none => .unanswered
          (f.onHall fun _ => hall).stageQuery k q stage
      else f
    | _ => f

def handle (f : Floor σ) (id : String) : Floor σ :=
  match f.desks id with
  | some d =>
    match d.letters with
    | k :: rest =>
      if d.stage = .running ∧ f.isLive id = true then
        (f.putDesk id { d with letters := rest }).answer id k
      else f
    | [] => f
  | none => f

/-- Whether something is due at a session. -/
def isDue (f : Floor σ) (id : String) (due : Hall.Due) : Bool :=
  (f.hall.registry.find? id).any fun r =>
    (Hall.duesOf r).any fun e => e.1 ≤ f.hall.now && e.2 == due

/-- A session whose desk is at work, and that is running, takes a turn that is due. -/
def fireAt (f : Floor σ) (id : String) (due : Hall.Due) (g : Hall → Hall) : Floor σ :=
  match f.desks id with
  | some d =>
    if d.stage = .running ∧ f.isLive id = true ∧ f.isDue id due = true then f.onHall g else f
  | none => f

def fire (f : Floor σ) : Hall.Due → Floor σ
  | .tick id => f.fireAt id (.tick id) fun h => ((h.moveTick id).turn id .tick).2
  | .grace id => f.fireAt id (.grace id) fun h => (h.turn id .graceElapsed).2
  | .errand _ => f

/-- The loop of a session ends, and its final snapshot is filed. -/
def file (f : Floor σ) (id : String) : Floor σ :=
  match f.desks id with
  | some d =>
    if d.stage = .running ∧ f.isLive id = false then
      { (f.onHall (·.file id)).putDesk id { d with stage := .filed } with
        filed := f.filed ++ [id] }
    else f
  | none => f

def release (f : Floor σ) (id : String) : Floor σ :=
  match f.desks id with
  | some d =>
    if d.stage = .filed then (f.onHall (·.release id)).putDesk id { d with stage := .released }
    else f
  | none => f

/-- A query gets no answer any more, if its letter waits at a desk. -/
def dismiss (id : String) (letters : List Nat) (k : Nat) (q : Query) : Query :=
  match q.stage with
  | .waiting => if q.id = id ∧ k ∈ letters then { q with stage := .unanswered } else q
  | _ => q

/-- A desk is closed, and its letters with it. -/
def close (f : Floor σ) (id : String) : Floor σ :=
  match f.desks id with
  | some d =>
    if d.stage = .released then
      { f.putDesk id { d with stage := .closed, letters := [] } with
        queries := fun k => (f.queries k).map (dismiss id d.letters k) }
    else f
  | none => f

/-! ### Moves -/

def step (f : Floor σ) : Move → Floor σ
  | .enrol k userId request => f.enrol k userId request
  | .checkFree k => f.checkFree k
  | .askGate k => f.askGate k
  | .launch k => f.launch k
  | .confirm k => f.confirm k
  | .inquire k id userId inquiry => f.inquire k id userId inquiry
  | .lookUp k => f.lookUp k
  | .send k => f.send k
  | .receive k => f.receive k
  | .search k => f.search k
  | .read k => f.read k
  | .commence id => f.commence id
  | .handle id => f.handle id
  | .fire due => f.fire due
  | .file id => f.file id
  | .release id => f.release id
  | .close id => f.close id
  | .write id attempts => f.onHall (·.toil id attempts)
  | .approve userId approver =>
    { f with service := ((Service.approve userId approver).run f.service).2 }
  | .pass ms => f.onHall fun h => { h with now := h.now + ms }
  | .listen relays notes => f.onHall fun h => ({ h with relays } : Hall).jot notes
  | .switch on => f.onHall fun h => { h with courier := h.courier.setAvailable on }
  | .trouble losses silences =>
    f.onHall fun h => { h with courier := { h.courier with losses, silences } }

/-- The floor after some moves, in order. -/
def run (f : Floor σ) (moves : List Move) : Floor σ := moves.foldl step f

end Floor

end Invigilator
