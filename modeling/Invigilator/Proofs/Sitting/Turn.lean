import Invigilator.Proofs.Detector.Reaction
import Invigilator.Sitting.Step

/-!
# What turns leave behind

A turn gives a value, a sitting with the store of its lives, and actions. This file takes the
three apart (`value`, `after`, `actions`), and says what each piece of a turn leaves behind:
`finish` leaves `Sitting.ended`, a penalty leaves `Sitting.charged`, and so on. Later proofs
use these equations and do not open the turns again.
-/

namespace Invigilator

namespace Sitting

/-- The sitting with its clock and its detector stopped. -/
def disarmed (s : Sitting) : Sitting :=
  { s with timer := s.timer.stop, detector := s.detector.disarm.1, grace := none }

/-- The sitting, over for a reason. -/
def ended (s : Sitting) (reason : Reason) (time : Stamp) : Sitting :=
  { s.disarmed with session := s.session.finish reason s.timer.elapsed time }

/-- The record of a penalty that leaves so many lives. -/
def violation (s : Sitting) (scene : Scene) (kind : ViolationType) (left : Nat) : Violation :=
  { id := scene.violationId, sessionId := s.session.id, userId := s.session.userId,
    violationType := kind, heartsBefore := s.session.livesRemaining, heartsAfter := left,
    occurredAt := scene.time }

/-- The sitting with one more penalty. -/
def charged (s : Sitting) (v : Violation) : Sitting :=
  { s with
    session := { s.session with
      livesRemaining := v.heartsAfter, totalViolations := s.session.totalViolations + 1 }
    violations := s.violations ++ [v] }

/-- The sitting, over if a condition holds. -/
def endedIf (s : Sitting) (c : Prop) [Decidable c] (reason : Reason) (time : Stamp) : Sitting :=
  if c then s.ended reason time else s

end Sitting

/-- An active session takes the outcome of the reason for which it ends. -/
theorem Session.finish_active {s : Session} {reason : Reason} {spent : Nat} {time : Stamp}
    (h : s.isActive = true) :
    s.finish reason spent time =
      { s with
        status := reason.outcome, autoSubmitted := reason.isAutomatic,
        timeSpentSeconds := some spent, completedAt := some time } := by
  have hstatus : s.status = .inProgress := by simpa [Session.isActive] using h
  rw [finish, hstatus, Status.isTerminal, if_neg Bool.false_ne_true]

theorem Session.finish_id (s : Session) (reason : Reason) (spent : Nat) (time : Stamp) :
    (s.finish reason spent time).id = s.id := by
  unfold finish
  split <;> rfl

namespace Turn

variable {σ α β : Type}

/-! ## The three results of a turn -/

def value (t : Turn σ α) (s : Sitting × σ) : α := (t.run s).1.1

/-- The sitting and the store of its lives after a turn. -/
def after (t : Turn σ α) (s : Sitting × σ) : Sitting × σ := (t.run s).1.2

def actions (t : Turn σ α) (s : Sitting × σ) : List Action := (t.run s).2

variable (s : Sitting × σ)

@[simp] theorem value_pure (x : α) : (pure x : Turn σ α).value s = x := rfl

@[simp] theorem after_pure (x : α) : (pure x : Turn σ α).after s = s := rfl

@[simp] theorem actions_pure (x : α) : (pure x : Turn σ α).actions s = [] := rfl

@[simp] theorem value_bind (t : Turn σ α) (f : α → Turn σ β) :
    (t >>= f).value s = (f (t.value s)).value (t.after s) := rfl

@[simp] theorem after_bind (t : Turn σ α) (f : α → Turn σ β) :
    (t >>= f).after s = (f (t.value s)).after (t.after s) := rfl

@[simp] theorem actions_bind (t : Turn σ α) (f : α → Turn σ β) :
    (t >>= f).actions s = t.actions s ++ (f (t.value s)).actions (t.after s) := rfl

@[simp] theorem value_sitting : (sitting : Turn σ Sitting).value s = s.1 := rfl

@[simp] theorem after_sitting : (sitting : Turn σ Sitting).after s = s := rfl

@[simp] theorem actions_sitting : (sitting : Turn σ Sitting).actions s = [] := rfl

@[simp] theorem after_change (f : Sitting → Sitting) :
    (change f : Turn σ Unit).after s = (f s.1, s.2) := rfl

@[simp] theorem actions_change (f : Sitting → Sitting) :
    (change f : Turn σ Unit).actions s = [] := rfl

@[simp] theorem after_act (a : Action) : (act a : Turn σ Unit).after s = s := rfl

@[simp] theorem actions_act (a : Action) : (act a : Turn σ Unit).actions s = [a] := rfl

@[simp] theorem after_note (n : Note) : (note n : Turn σ Unit).after s = s := rfl

@[simp] theorem after_publish (e : Event) : (publish e : Turn σ Unit).after s = s := rfl

@[simp] theorem after_write (w : RecordWrite) : (write w : Turn σ Unit).after s = s := rfl

@[simp] theorem after_countGrace (outcome : String) :
    (countGrace outcome : Turn σ Unit).after s = s := rfl

@[simp] theorem after_publishDirective (d : Directive) :
    (publishDirective d : Turn σ Unit).after s = s := rfl

@[simp] theorem actions_note (n : Note) : (note n : Turn σ Unit).actions s = [.note n] := rfl

@[simp] theorem actions_publish (e : Event) :
    (publish e : Turn σ Unit).actions s = [.publish e] := rfl

@[simp] theorem actions_write (w : RecordWrite) :
    (write w : Turn σ Unit).actions s = [.write w] := rfl

@[simp] theorem actions_publishDirective (d : Directive) :
    (publishDirective d : Turn σ Unit).actions s = [.publish (.directive s.1.session.id d)] := rfl

theorem after_ite (c : Prop) [Decidable c] (t u : Turn σ α) :
    (if c then t else u).after s = if c then t.after s else u.after s := by
  split <;> rfl

theorem actions_ite (c : Prop) [Decidable c] (t u : Turn σ α) :
    (if c then t else u).actions s = if c then t.actions s else u.actions s := by
  split <;> rfl

/-! ## The detector is told -/

/-- What the detector answers to an event in a scene. -/
def told (scene : Scene) (event : DetectorEvent) (s : Sitting) : Detector × List Effect :=
  s.detector.step event ⟨scene.now, s.session.livesRemaining⟩

@[simp] theorem value_feed (scene : Scene) (event : DetectorEvent) :
    (feed scene event : Turn σ (List Effect)).value s = (told scene event s.1).2 := rfl

@[simp] theorem after_feed (scene : Scene) (event : DetectorEvent) :
    (feed scene event : Turn σ (List Effect)).after s =
      ({ s.1 with detector := (told scene event s.1).1 }, s.2) := rfl

/-- A detector that watches takes a report in one of the ways that there are. -/
theorem told_signal (scene : Scene) (signal : Signal) {s : Sitting}
    (harmed : s.detector.armed = true) :
    ∃ d es, told scene (.signal signal) s = (d, es) ∧
      Detector.Reaction s.detector signal ⟨scene.now, s.session.livesRemaining⟩ d es := by
  have htold : told scene (.signal signal) s =
      s.detector.onSignal signal ⟨scene.now, s.session.livesRemaining⟩ := by
    simp [told, Detector.step, harmed]
  exact ⟨_, _, htold, Detector.onSignal_reaction _ _ _⟩

/-! ## Ending -/

theorem after_disarmEffect (e : Effect) :
    (disarmEffect e : Turn σ (List Directive)).after s = s := by
  cases e <;> rfl

@[simp] theorem after_disarmEffects (es : List Effect) :
    (disarmEffects es : Turn σ (List Directive)).after s = s := by
  induction es with
  | nil => rfl
  | cons e es ih => simp [disarmEffects, after_disarmEffect, ih]

@[simp] theorem after_teardown (scene : Scene) :
    (teardown scene : Turn σ (List Directive)).after s = (s.1.disarmed, s.2) := by
  simp [teardown, told, Detector.step, Sitting.disarmed]

theorem stop_elapsed (c : Countdown) : c.stop.elapsed = c.elapsed := by
  unfold Countdown.stop
  split <;> rfl

/-- An active session ends, and no other does anything. -/
theorem after_finish (scene : Scene) (reason : Reason) :
    (finish scene reason : Turn σ (List Directive)).after s =
      (s.1.endedIf (s.1.session.isActive = true) reason scene.time, s.2) := by
  unfold Sitting.endedIf
  by_cases h : s.1.session.isActive = true
  · simp only [finish, after_bind, value_sitting, after_sitting, h, ↓reduceIte, after_teardown,
      after_publishDirective, after_change, after_write, ↓after_ite, after_note, after_publish,
      after_pure, ite_self]
    simp only [Sitting.ended, Sitting.disarmed, stop_elapsed]
  · simp [finish, h]

/-- What an active session does when it ends, in order: its release, its records, its farewell. -/
theorem actions_finish (scene : Scene) (reason : Reason) (h : s.1.session.isActive = true) :
    (finish scene reason : Turn σ (List Directive)).actions s =
      (teardown scene : Turn σ (List Directive)).actions s ++
        ([.publish (.directive s.1.session.id .exitFullscreen),
          .write (.updateSession (s.1.ended reason scene.time).session.id
            (s.1.ended reason scene.time).session.patch)] ++
        (if reason = .livesExhausted then
          [.write (.blockUser (s.1.ended reason scene.time).session.userId
            (s.1.ended reason scene.time).session.id)] else []) ++
        [.note (.count (.sessions (s.1.ended reason scene.time).session.status.name)),
          .publish (.sessionFinished (s.1.ended reason scene.time).session.id
            (s.1.ended reason scene.time).session.status
            (s.1.ended reason scene.time).session.autoSubmitted s.1.timer.elapsed scene.time),
          .note (finishedLine (s.1.ended reason scene.time).session reason
            s.1.timer.elapsed)]) := by
  have helapsed : s.1.disarmed.timer.elapsed = s.1.timer.elapsed := stop_elapsed _
  have hsession : (s.1.ended reason scene.time).session =
      s.1.session.finish reason s.1.timer.elapsed scene.time := rfl
  have hdisarmed : s.1.disarmed.session = s.1.session := rfl
  rw [hsession]
  simp only [finish, actions_bind, actions_sitting, value_sitting, after_sitting, h, ↓reduceIte,
    after_teardown, actions_publishDirective, after_publishDirective, actions_change,
    actions_write, ↓actions_ite, actions_note, actions_publish, actions_pure, helapsed, hdisarmed]
  split <;> simp

/-! ## Penalties -/

variable (ledger : LivesLedger σ) (scene : Scene)

/-- What the ledger says when a life is to be taken, and its store afterwards. -/
def asked (s : Sitting × σ) : Except BackendFault LivesState × σ :=
  ((Ledger.loseLife ledger.store ledger.rules scene.looked scene.lost
    (.session s.1.session.id)).run s.2).1

/-- The lives left after a penalty. -/
def livesLeft (s : Sitting × σ) : Nat :=
  match (asked ledger scene s).1 with
  | .ok state => state.lives
  | .error _ => s.1.session.livesRemaining - 1

theorem value_call (a : Attempt σ α) : (call a).value s = (a.run s.2).1.1 := rfl

theorem after_call (a : Attempt σ α) : (call a).after s = (s.1, (a.run s.2).1.2) := rfl

theorem after_takeLife :
    (takeLife ledger scene s.1.session).after s = (s.1, (asked ledger scene s).2) := by
  simp only [takeLife, after_bind, after_call, value_call, asked]
  split <;> simp

theorem value_takeLife :
    (takeLife ledger scene s.1.session).value s = livesLeft ledger scene s := by
  simp only [takeLife, value_bind, value_call, livesLeft, asked]
  split <;> simp_all

/-- A penalty of an active session with a life to lose. The last life ends the session. -/
theorem after_applyViolation (kind : ViolationType)
    (h : s.1.session.isActive = true ∧ 0 < s.1.session.livesRemaining) :
    (applyViolation ledger scene kind).after s =
      ((s.1.charged (s.1.violation scene kind (livesLeft ledger scene s))).endedIf
          (livesLeft ledger scene s = 0) .livesExhausted scene.time,
        (asked ledger scene s).2) := by
  simp only [applyViolation, after_bind, value_sitting, after_sitting, h, and_self, ↓reduceIte,
    after_takeLife, value_takeLife, after_change, after_note, after_write, after_publish,
    after_ite, after_pure]
  let v := s.1.violation scene kind (livesLeft ledger scene s)
  -- the session is still active when its last life is charged, so it ends in this turn
  by_cases hl : livesLeft ledger scene s = 0
  · have hended := after_finish (s.1.charged v, (asked ledger scene s).2) scene .livesExhausted
    have hactive : (s.1.charged v).session.isActive = true := h.1
    rw [Sitting.endedIf, if_pos hactive] at hended
    rw [if_pos hl, Sitting.endedIf, if_pos hl]
    exact hended
  · rw [if_neg hl, Sitting.endedIf, if_neg hl]
    rfl

/-! ## The first turn -/

theorem after_createAnswers (id : String) (answers : List Answer) :
    (answers.forM fun a => (write (.createAnswer id a) : Turn σ Unit)).after s = s := by
  induction answers with
  | nil => rfl
  | cons a answers ih => exact ih

theorem actions_createAnswers (id : String) (answers : List Answer) :
    (answers.forM fun a => (write (.createAnswer id a) : Turn σ Unit)).actions s =
      answers.map fun a => .write (.createAnswer id a) := by
  induction answers with
  | nil => rfl
  | cons a answers ih => exact congrArg (Action.write (.createAnswer id a) :: ·) ih

/-- Creating the records changes nothing of the sitting. -/
@[simp] theorem after_begin : (begin : Turn σ Unit).after s = s := by
  simp only [begin, after_bind, value_sitting, after_sitting, after_write, after_createAnswers,
    after_note]

/-- The session is created first, then its answers in order. -/
theorem actions_begin :
    (begin : Turn σ Unit).actions s =
      [.write (.createSession s.1.session)] ++
        s.1.answers.map (fun a => .write (.createAnswer s.1.session.id a)) ++
        [.note (.move .sessionsActive 1), .note (.info ("Exam session running: session=" ++
          s.1.session.id ++ ", user=" ++ s.1.session.userId ++ ", language=" ++
          s.1.session.language.name))] := by
  simp only [begin, actions_bind, actions_sitting, value_sitting, after_sitting, actions_write,
    after_write, actions_createAnswers, after_createAnswers, actions_note, after_note,
    List.nil_append, List.cons_append]

/-! ## Effects of the detector -/

@[simp] theorem applyEffects_nil : applyEffects ledger scene [] = pure [] := rfl

theorem after_applyEffects_cons (e : Effect) (es : List Effect) :
    (applyEffects ledger scene (e :: es)).after s =
      (applyEffects ledger scene es).after ((applyEffect ledger scene e).after s) := by
  simp [applyEffects]

theorem after_applyEffects_append (es fs : List Effect) :
    (applyEffects ledger scene (es ++ fs)).after s =
      (applyEffects ledger scene fs).after ((applyEffects ledger scene es).after s) := by
  induction es generalizing s with
  | nil => rfl
  | cons e es ih => rw [List.cons_append, after_applyEffects_cons, after_applyEffects_cons, ih]

@[simp] theorem after_applyEffect_directive (d : Directive) :
    (applyEffect ledger scene (.directive d)).after s = s := rfl

/-- What is only said to the candidate changes nothing. -/
@[simp] theorem after_applyEffects_spoken (directives : List Directive) :
    (applyEffects ledger scene (Detector.spoken directives)).after s = s := by
  induction directives with
  | nil => rfl
  | cons d ds ih =>
    rw [Detector.spoken, List.map_cons, after_applyEffects_cons, after_applyEffect_directive]
    exact ih

@[simp] theorem after_applyEffect_startGrace (deadline : Instant) (generation : Nat) :
    (applyEffect ledger scene (.startGrace deadline generation)).after s =
      ({ s.1 with grace := some ⟨deadline, generation⟩ }, s.2) := rfl

@[simp] theorem after_applyEffect_cancelGrace (reason : CancelReason) :
    (applyEffect ledger scene (.cancelGrace reason)).after s =
      ({ s.1 with grace := none }, s.2) := rfl

@[simp] theorem after_applyEffect_loseLife (kind : ViolationType) :
    (applyEffect ledger scene (.loseLife kind)).after s =
      (applyViolation ledger scene kind).after s := by
  simp only [applyEffect, after_ite, after_bind, after_countGrace, ite_self]

@[simp] theorem after_applyEffect_autoSubmit :
    (applyEffect ledger scene .autoSubmit).after s =
      (s.1.endedIf (s.1.session.isActive = true) .livesExhausted scene.time, s.2) :=
  after_finish s scene .livesExhausted

end Turn

end Invigilator
