import Invigilator.Sitting.Basic

/-!
# What happens in a sitting

The answer of a sitting to each event: a request of the candidate, a tick of the clock, the end
of a grace period, a shutdown. `finish` is the only way to a final status, and it lets nothing
happen twice. The ledger of lives may fail; then the life is taken off the count of the session
alone.
-/

namespace Invigilator

/-- What can happen to a sitting. -/
inductive Stimulus where
  | signal (signal : Signal)
  | update (index : Nat) (code : String)
  | recordRun (index : Nat) (result : RunResult)
  | submit (reason : Reason)
  | look
  | tick
  | graceElapsed
  | shutdown
deriving DecidableEq, Repr, Inhabited

/-- What the candidate is answered. -/
inductive Reply where
  | outcome (outcome : SignalOutcome)
  | answer (result : Except Fault Answer)
  | snapshot (result : Except Fault Snapshot)
  | nothing
deriving Inhabited

/-- The answer as a JSON value. -/
def Reply.toJson : Reply → Json
  | .outcome o => o.toJson
  | .answer (.ok a) => a.toJson
  | .answer (.error e) => e.toJson
  | .snapshot (.ok s) => s.toJson
  | .snapshot (.error e) => e.toJson
  | .nothing => .null

namespace Turn

variable {σ : Type}

/-! ## Small steps -/

def publish (e : Event) : Turn σ Unit := act (.publish e)

/-- Hands a write to the scribe. -/
def write (w : RecordWrite) : Turn σ Unit := act (.write w)

/-- Publishes a directive of the sitting. -/
def publishDirective (d : Directive) : Turn σ Unit := do
  let s ← sitting
  publish (.directive s.session.id d)

/-- Tells the detector of an event; its effects are still to be carried out. -/
def feed (scene : Scene) (event : DetectorEvent) : Turn σ (List Effect) := do
  let s ← sitting
  let (detector, effects) := s.detector.step event ⟨scene.now, s.session.livesRemaining⟩
  change fun s => { s with detector := detector }
  pure effects

/-- Counts a step in the life of a grace period. -/
def countGrace (outcome : String) : Turn σ Unit := note (.count (.gracePeriods outcome))

/-! ## Ending -/

/-- An effect of disarming. -/
def disarmEffect : Effect → Turn σ (List Directive)
  | .directive d => do
    publishDirective d
    pure [d]
  | .cancelGrace _ => do
    countGrace "disarmed"
    pure []
  | .startGrace .. => pure []
  | .loseLife _ => pure []
  | .autoSubmit => pure []

/-- The effects of disarming, in order. -/
def disarmEffects : List Effect → Turn σ (List Directive)
  | [] => pure []
  | e :: rest => do
    let ds ← disarmEffect e
    let more ← disarmEffects rest
    pure (ds ++ more)

/-- Stops the clock and the detector. Doing it again changes nothing. -/
def teardown (scene : Scene) : Turn σ (List Directive) := do
  change fun s => { s with timer := s.timer.stop }
  let effects ← feed scene .disarm
  change fun s => { s with grace := none }
  disarmEffects effects

/-- The line of the log about a finished session. -/
def finishedLine (s : Session) (reason : Reason) (timeSpent : Nat) : Note :=
  .info ("Exam session finished: session=" ++ s.id ++ ", status=" ++ s.status.name ++ ", reason=" ++
    reason.label ++ ", lives=" ++ Decimal.text s.livesRemaining ++ ", violations=" ++
    Decimal.text s.totalViolations ++ ", time_spent=" ++ Decimal.text timeSpent ++ "s")

/-- Ends an active session for good; gives the directives that release the candidate. -/
def finish (scene : Scene) (reason : Reason) : Turn σ (List Directive) := do
  let s ← sitting
  if s.session.isActive then
    let directives ← teardown scene
    publishDirective .exitFullscreen
    let s ← sitting
    let timeSpent := s.timer.elapsed
    let session := s.session.finish reason timeSpent scene.time
    change fun s => { s with session := session }
    write (.updateSession session.id session.patch)
    if reason = .livesExhausted then write (.blockUser session.userId session.id)
    note (.count (.sessions session.status.name))
    publish (.sessionFinished session.id session.status session.autoSubmitted timeSpent scene.time)
    note (finishedLine session reason timeSpent)
    pure (directives ++ [.exitFullscreen])
  else pure []

/-! ## Penalties -/

variable (ledger : LivesLedger σ)

/-- The lives left after a penalty: what the ledger says, or one less if it cannot be asked. -/
def takeLife (scene : Scene) (s : Session) : Turn σ Nat := do
  match ← call (Ledger.loseLife ledger.store ledger.rules scene.looked scene.lost
      (.session s.id)) with
  | .ok state => pure state.lives
  | .error fault => do
    note (.warn ("Lives ledger unavailable, decrementing locally: " ++ fault.chain))
    pure (s.livesRemaining - 1)

/-- The line of the log about a penalty. -/
def penaltyLine (v : Violation) : Note :=
  .warn ("Violation penalized: session=" ++ v.sessionId ++ ", type=" ++ v.violationType.name ++
    ", lives " ++ Decimal.text v.heartsBefore ++ " -> " ++ Decimal.text v.heartsAfter)

/-- The patch that a penalty sends. -/
def penaltyPatch (s : Session) : SessionPatch :=
  { SessionPatch.empty with
    livesRemaining := some s.livesRemaining, totalViolations := some s.totalViolations }

/-- Takes a life for a violation; the last one ends the session. -/
def applyViolation (scene : Scene) (kind : ViolationType) : Turn σ (List Directive) := do
  let s ← sitting
  if s.session.isActive ∧ 0 < s.session.livesRemaining then
    let before := s.session.livesRemaining
    let left ← takeLife ledger scene s.session
    let violation : Violation :=
      { id := scene.violationId, sessionId := s.session.id, userId := s.session.userId,
        violationType := kind, heartsBefore := before, heartsAfter := left,
        occurredAt := scene.time }
    let session :=
      { s.session with
        livesRemaining := left, totalViolations := s.session.totalViolations + 1 }
    change fun s => { s with session := session, violations := s.violations ++ [violation] }
    note (.count (.violations kind.name))
    write (.recordViolation violation)
    write (.updateSession session.id (penaltyPatch session))
    publish (.lifeLost session.id kind before left scene.time)
    note (penaltyLine violation)
    if left = 0 then finish scene .livesExhausted else pure []
  else
    note (.debug ("Violation " ++ kind.name ++ " ignored for inactive session " ++ s.session.id))
    pure []

/-- How the log shows a pending violation. -/
def pendingText : Option ViolationType → String
  | none => "None"
  | some v => "Some(" ++ v.label ++ ")"

/-- Carries out an effect of the detector; gives the directives for the candidate. -/
def applyEffect (scene : Scene) : Effect → Turn σ (List Directive)
  | .startGrace deadline generation => do
    change fun s => { s with grace := some ⟨deadline, generation⟩ }
    countGrace "started"
    let s ← sitting
    note (.info ("Grace period started: session=" ++ s.session.id ++ ", violation=" ++
      pendingText s.detector.pendingViolation))
    pure []
  | .cancelGrace reason => do
    change fun s => { s with grace := none }
    countGrace reason.name
    let s ← sitting
    note (.info ("Grace period " ++ reason.name ++ ": session=" ++ s.session.id))
    pure []
  | .loseLife kind => do
    if kind.isInstantaneous = false then countGrace "penalized"
    applyViolation ledger scene kind
  | .autoSubmit => finish scene .livesExhausted
  | .directive d => do
    publishDirective d
    pure [d]

/-- Carries out effects of the detector in order. -/
def applyEffects (scene : Scene) : List Effect → Turn σ (List Directive)
  | [] => pure []
  | e :: rest => do
    let ds ← applyEffect ledger scene e
    let more ← applyEffects scene rest
    pure (ds ++ more)

/-! ## Requests of the candidate -/

/-- A signal of the browser. -/
def onSignal (scene : Scene) (signal : Signal) : Turn σ SignalOutcome := do
  let s ← sitting
  if signal = .fullscreenDenied then
    note (.warn (Fault.fullscreenDenied.message ++ ": session=" ++ s.session.id ++
      ", starting grace period"))
  let effects ← feed scene (.signal signal)
  let directives ← applyEffects ledger scene effects
  let s ← sitting
  pure
    { directives := directives, livesRemaining := s.session.livesRemaining,
      pendingViolation := s.detector.pendingViolation, sessionActive := s.session.isActive }

/-- Puts a changed answer in its place and hands it to the scribe. -/
def storeAnswer (index : Nat) (answer : Answer) : Turn σ (Except Fault Answer) := do
  change fun s => { s with answers := s.answers.set index answer }
  let s ← sitting
  write (.updateAnswer s.session.id index answer.patch)
  pure (.ok answer)

/-- New code for a question. -/
def updateAnswer (index : Nat) (code : String) : Turn σ (Except Fault Answer) := do
  let s ← sitting
  if s.session.isActive then
    match s.answers[index]? with
    | none => pure (.error (.invalidQuestionIndex index))
    | some answer => storeAnswer index (answer.edit code)
  else pure (.error .notActive)

/-- The outcome of a test run. -/
def recordRun (scene : Scene) (index : Nat) (result : RunResult) :
    Turn σ (Except Fault Answer) := do
  let s ← sitting
  if s.session.isActive then
    if result.isConsistent then
      match s.answers[index]? with
      | none => pure (.error (.invalidQuestionIndex index))
      | some answer => do
        match result.graderError with
        | none => pure ()
        | some error =>
          note (.warn ("Grader failed for session=" ++ s.session.id ++ ", question=" ++
            Decimal.text index ++ ": " ++ error))
        let answer := answer.applyRun result scene.time
        note (.debug ("Run recorded: session=" ++ s.session.id ++ ", question=" ++
          Decimal.text index ++ ", passed=" ++ Decimal.text answer.testsPassed ++ "/" ++
          Decimal.text answer.testsTotal))
        storeAnswer index answer
    else pure (.error (.invalidRunResult result.testsPassed result.testsTotal))
  else pure (.error .notActive)

/-- The candidate, or the service for them, hands the exam in. -/
def submit (scene : Scene) (reason : Reason) : Turn σ (Except Fault Snapshot) := do
  let s ← sitting
  if s.session.isActive then
    if reason = .user ∧ s.timer.canSubmit = false then
      pure (.error (.submitLocked s.timer.untilSubmit))
    else
      let _ ← finish scene reason
      let s ← sitting
      pure (.ok s.snapshot)
  else
    note (.debug ("Submit ignored, session already terminal: " ++ s.session.id))
    pure (.ok s.snapshot)

/-! ## Time -/

/-- A second of the exam clock. -/
def onTick (scene : Scene) : Turn σ Unit := do
  let s ← sitting
  let (timer, tick?) := s.timer.tick
  match tick? with
  | none => pure ()
  | some tick => do
    change fun s => { s with timer := timer }
    publish (.timerTick s.session.id tick.remaining tick.elapsed tick.total tick.canSubmit
      timer.untilSubmit timer.isCritical scene.time)
    if tick.expired then
      note (.info ("Exam time expired: session=" ++ s.session.id))
      publish (.timeExpired s.session.id scene.time "Time limit exceeded")
      let _ ← finish scene .timeExpired
      pure ()
    else pure ()

/-- The pending grace period ends. -/
def onGraceElapsed (scene : Scene) : Turn σ Unit := do
  let s ← sitting
  match s.grace with
  | none => pure ()
  | some timer => do
    change fun s => { s with grace := none }
    let effects ← feed scene (.graceElapsed timer.generation)
    let _ ← applyEffects ledger scene effects
    pure ()

/-- The service is shut down. -/
def onShutdown (scene : Scene) : Turn σ Unit := do
  let _ ← teardown scene
  change fun s => { s with suspended := true }
  let s ← sitting
  note (.info ("Exam session suspended by shutdown: session=" ++ s.session.id))

/-! ## The life of a sitting -/

/-- The first turn of a sitting: its records are created. -/
def begin : Turn σ Unit := do
  let s ← sitting
  write (.createSession s.session)
  s.answers.forM fun answer => write (.createAnswer s.session.id answer)
  note (.move .sessionsActive 1)
  note (.info ("Exam session running: session=" ++ s.session.id ++ ", user=" ++ s.session.userId ++
    ", language=" ++ s.session.language.name))

/-- What a sitting does when something happens, whether it is running or not. -/
def handle (scene : Scene) : Stimulus → Turn σ Reply
  | .signal signal => do return .outcome (← onSignal ledger scene signal)
  | .update index code => do return .answer (← updateAnswer index code)
  | .recordRun index result => do return .answer (← recordRun scene index result)
  | .submit reason => do return .snapshot (← submit scene reason)
  | .look => do return .snapshot (.ok (← sitting).snapshot)
  | .tick => do
    onTick scene
    return .nothing
  | .graceElapsed => do
    onGraceElapsed ledger scene
    return .nothing
  | .shutdown => do
    onShutdown scene
    return .nothing

/-- What a running sitting does when something happens. Nothing reaches one that has ended. -/
def step (scene : Scene) (stimulus : Stimulus) : Turn σ Reply := do
  if (← sitting).isRunning then
    let reply ← handle ledger scene stimulus
    if (← sitting).isRunning then pure reply
    else
      note (.move .sessionsActive (-1))
      pure reply
  else pure .nothing

end Turn

end Invigilator
