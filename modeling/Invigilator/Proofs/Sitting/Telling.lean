import Invigilator.Proofs.Sitting.Change

/-!
# What a sitting tells

Of the actions of a sitting the events are what its subscribers get to know. They are published
from several places, some of them in the middle of a list of effects, and between them the
sitting changes. `Turn.tells` takes the events out of the actions of a turn, and each piece of a
turn has its equation here, beside the one that says what it leaves behind.

What comes of it is `Telling`: all that a running sitting can tell at one stimulus, with what
becomes of its session, its penalties and its clock. Statements about the events of whole runs
are proved from it, and open no turn.
-/

namespace Invigilator

/-- The event that an action publishes. -/
def Action.event? : Action → Option Event
  | .publish e => some e
  | .write _ => none
  | .note _ => none

/-- The events that are published among some actions, in order. -/
def published (as : List Action) : List Event := as.filterMap Action.event?

theorem published_append (as bs : List Action) :
    published (as ++ bs) = published as ++ published bs :=
  List.filterMap_append

/-- Directives, as a session tells them. -/
def Session.voice (s : Session) (ds : List Directive) : List Event := ds.map (.directive s.id)

namespace Sitting

/-- The warning that is taken back when a watched sitting is torn down. -/
def pardon (s : Sitting) : List Directive :=
  if s.detector.pending.isSome then [.clearWarning] else []

/-- What a watched sitting tells when it ends: the release of the candidate, and then the end. -/
def lastWords (s : Sitting) (reason : Reason) (time : Stamp) : List Event :=
  s.session.voice (s.pardon ++ [.exitFullscreen]) ++
    [.sessionFinished s.session.id reason.outcome reason.isAutomatic s.timer.elapsed time]

/-- What a sitting tells of a penalty. -/
def loss (s : Sitting) (scene : Scene) (kind : ViolationType) (left : Nat) : Event :=
  .lifeLost s.session.id kind s.session.livesRemaining left scene.time

/-- What a sitting tells of a tick of its clock. -/
def beat (s : Sitting) (tick : Tick) (time : Stamp) : Event :=
  .timerTick s.session.id tick.remaining tick.elapsed tick.total tick.canSubmit
    s.timer.tick.1.untilSubmit s.timer.tick.1.isCritical time

/-- A session speaks the same whether it is over or not. -/
theorem voice_endedIf (s : Sitting) (p : Prop) [Decidable p] (reason : Reason) (time : Stamp)
    (ds : List Directive) : (s.endedIf p reason time).session.voice ds = s.session.voice ds := by
  have hid : (s.endedIf p reason time).session.id = s.session.id := by
    unfold endedIf
    split
    · exact Session.finish_id _ _ _ _
    · rfl
  rw [Session.voice, hid, Session.voice]

end Sitting

namespace Turn

variable {σ α β : Type}

/-- The events that a turn publishes, in order. -/
def tells (t : Turn σ α) (s : Sitting × σ) : List Event := published (t.actions s)

variable (s : Sitting × σ)

@[simp] theorem tells_pure (x : α) : (pure x : Turn σ α).tells s = [] := rfl

@[simp] theorem tells_bind (t : Turn σ α) (f : α → Turn σ β) :
    (t >>= f).tells s = t.tells s ++ (f (t.value s)).tells (t.after s) :=
  published_append _ _

@[simp] theorem tells_sitting : (sitting : Turn σ Sitting).tells s = [] := rfl

@[simp] theorem tells_change (f : Sitting → Sitting) : (change f : Turn σ Unit).tells s = [] := rfl

@[simp] theorem tells_note (n : Note) : (note n : Turn σ Unit).tells s = [] := rfl

@[simp] theorem tells_write (w : RecordWrite) : (write w : Turn σ Unit).tells s = [] := rfl

@[simp] theorem tells_countGrace (outcome : String) :
    (countGrace outcome : Turn σ Unit).tells s = [] := rfl

@[simp] theorem tells_publish (e : Event) : (publish e : Turn σ Unit).tells s = [e] := rfl

@[simp] theorem tells_publishDirective (d : Directive) :
    (publishDirective d : Turn σ Unit).tells s = s.1.session.voice [d] := rfl

@[simp] theorem tells_feed (scene : Scene) (event : DetectorEvent) :
    (feed scene event : Turn σ (List Effect)).tells s = [] := rfl

theorem tells_ite (c : Prop) [Decidable c] (t u : Turn σ α) :
    (if c then t else u).tells s = if c then t.tells s else u.tells s := by
  split <;> rfl

/-- A call on the store of lives leaves notes and nothing else. -/
@[simp] theorem tells_call (a : Attempt σ α) : (call a).tells s = [] := by
  refine List.filterMap_eq_nil_iff.mpr fun action haction => ?_
  obtain ⟨n, -, rfl⟩ := List.mem_map.mp haction
  rfl

/-- Creating the records tells nobody anything. -/
theorem tells_begin : (begin : Turn σ Unit).tells s = [] := by
  rw [tells, actions_begin]
  refine List.filterMap_eq_nil_iff.mpr fun action haction => ?_
  simp only [List.mem_append, List.mem_map, List.mem_cons, List.not_mem_nil, or_false]
    at haction
  rcases haction with (rfl | ⟨answer, -, rfl⟩) | rfl | rfl <;> rfl

/-! ## Ending -/

/-- A watching detector that is told to stop cancels the pending grace period. -/
theorem told_disarm (scene : Scene) {s : Sitting} (harmed : s.detector.armed = true) :
    (told scene .disarm { s with timer := s.timer.stop }).2 =
      if s.detector.pending.isSome then [.cancelGrace .disarmed, .directive .clearWarning]
      else [] :=
  Detector.disarm_effects harmed

/-- To tear a watched sitting down takes back the warning of the pending grace period. -/
theorem tells_teardown (scene : Scene) (harmed : s.1.detector.armed = true) :
    (teardown scene : Turn σ (List Directive)).tells s = s.1.session.voice s.1.pardon := by
  simp only [teardown, tells_bind, tells_change, after_change, tells_feed, value_feed, after_feed,
    told_disarm scene harmed, List.nil_append, Sitting.pardon]
  split <;> rfl

/-- A watched, active session ends with its last words. -/
theorem tells_finish (scene : Scene) (reason : Reason) (hactive : s.1.session.isActive = true)
    (harmed : s.1.detector.armed = true) :
    (finish scene reason : Turn σ (List Directive)).tells s = s.1.lastWords reason scene.time := by
  have helapsed : s.1.disarmed.timer.elapsed = s.1.timer.elapsed := stop_elapsed _
  have hsession : s.1.disarmed.session = s.1.session := rfl
  simp only [finish, tells_bind, tells_sitting, value_sitting, after_sitting, hactive, ↓reduceIte,
    tells_teardown s scene harmed, after_teardown, tells_publishDirective, after_publishDirective,
    tells_change, tells_write, ↓tells_ite, tells_pure, ite_self, tells_note, tells_publish,
    helapsed, hsession, Session.finish_active hactive, List.nil_append, List.append_nil]
  simp [Sitting.lastWords, Session.voice]

/-- A session that is over has nothing to tell any more. -/
theorem tells_finish_over (scene : Scene) (reason : Reason)
    (hover : s.1.session.isActive = false) :
    (finish scene reason : Turn σ (List Directive)).tells s = [] := by
  simp [finish, hover]

/-! ## Penalties -/

variable (ledger : LivesLedger σ) (scene : Scene)

theorem tells_takeLife (session : Session) : (takeLife ledger scene session).tells s = [] := by
  rw [takeLife, tells_bind, tells_call, List.nil_append]
  split
  · rfl
  · rfl

/-- A penalty is told as it is charged, and the end of the session right behind it. -/
theorem tells_applyViolation (kind : ViolationType) (hactive : s.1.session.isActive = true)
    (halive : 0 < s.1.session.livesRemaining) (harmed : s.1.detector.armed = true) :
    (applyViolation ledger scene kind).tells s =
      s.1.loss scene kind (livesLeft ledger scene s) ::
        if livesLeft ledger scene s = 0 then
          (s.1.charged (s.1.violation scene kind 0)).lastWords .livesExhausted scene.time
        else [] := by
  simp only [applyViolation, tells_bind, tells_sitting, value_sitting, after_sitting, hactive,
    halive, and_self, ↓reduceIte, tells_takeLife, after_takeLife, value_takeLife, tells_change,
    after_change, tells_note, after_note, tells_write, after_write, tells_publish, after_publish,
    List.nil_append, List.singleton_append]
  refine congrArg (s.1.loss scene kind (livesLeft ledger scene s) :: ·) ?_
  split
  · rename_i hzero
    rw [hzero]
    exact tells_finish (s.1.charged (s.1.violation scene kind 0), (asked ledger scene s).2) scene
      .livesExhausted hactive harmed
  · rfl

/-! ## Effects of the detector -/

theorem tells_applyEffects_cons (e : Effect) (es : List Effect) :
    (applyEffects ledger scene (e :: es)).tells s =
      (applyEffect ledger scene e).tells s ++
        (applyEffects ledger scene es).tells ((applyEffect ledger scene e).after s) := by
  simp [applyEffects]

theorem tells_applyEffects_append (es fs : List Effect) :
    (applyEffects ledger scene (es ++ fs)).tells s =
      (applyEffects ledger scene es).tells s ++
        (applyEffects ledger scene fs).tells ((applyEffects ledger scene es).after s) := by
  induction es generalizing s with
  | nil => rfl
  | cons e es ih =>
    rw [List.cons_append, tells_applyEffects_cons, tells_applyEffects_cons, ih,
      after_applyEffects_cons, List.append_assoc]

@[simp] theorem tells_applyEffect_directive (d : Directive) :
    (applyEffect ledger scene (.directive d)).tells s = s.1.session.voice [d] := rfl

/-- What is only said to the candidate is told as it is. -/
theorem tells_applyEffects_spoken (ds : List Directive) :
    (applyEffects ledger scene (Detector.spoken ds)).tells s = s.1.session.voice ds := by
  induction ds with
  | nil => rfl
  | cons d ds ih =>
    rw [Detector.spoken, List.map_cons, tells_applyEffects_cons, tells_applyEffect_directive,
      after_applyEffect_directive]
    exact congrArg (s.1.session.voice [d] ++ ·) ih

@[simp] theorem tells_applyEffect_startGrace (deadline : Instant) (generation : Nat) :
    (applyEffect ledger scene (.startGrace deadline generation)).tells s = [] := rfl

@[simp] theorem tells_applyEffect_cancelGrace (reason : CancelReason) :
    (applyEffect ledger scene (.cancelGrace reason)).tells s = [] := rfl

@[simp] theorem tells_applyEffect_loseLife (kind : ViolationType) :
    (applyEffect ledger scene (.loseLife kind)).tells s =
      (applyViolation ledger scene kind).tells s := by
  simp only [applyEffect, tells_bind, tells_ite, tells_countGrace, after_countGrace, ite_self,
    List.nil_append]

end Turn

/-! ## What is told at a stimulus -/

namespace Sitting

/-- Two sittings have the same session, the same penalties and the same clock. -/
structure Agrees (s t : Sitting) : Prop where
  session : t.session = s.session
  violations : t.violations = s.violations
  timer : t.timer = s.timer

/-- What a running sitting can tell at a stimulus, and what it leaves. -/
inductive Telling (scene : Scene) (s : Sitting) : Stimulus → List Event → Sitting → Prop where
  /-- The candidate is spoken to, or nothing is told at all. -/
  | spoke {x : Stimulus} {t : Sitting} (ds : List Directive) (other : x ≠ .tick)
      (agrees : s.Agrees t) : Telling scene s x (s.session.voice ds) t
  /-- The clock ticks and goes on. -/
  | ticked {t : Sitting} (tick : Tick) (ticks : s.timer.tick.2 = some tick)
      (goesOn : tick.expired = false)
      (agrees : Agrees { s with timer := s.timer.tick.1 } t) :
      Telling scene s .tick [s.beat tick scene.time] t
  /-- The clock ticks for the last time. -/
  | timedOut {t : Sitting} (tick : Tick) (ticks : s.timer.tick.2 = some tick)
      (last : tick.expired = true)
      (agrees : (({ s with timer := s.timer.tick.1 } : Sitting).ended .timeExpired
        scene.time).Agrees t) :
      Telling scene s .tick
        (s.beat tick scene.time ::
          .timeExpired s.session.id scene.time "Time limit exceeded" ::
          ({ s with timer := s.timer.tick.1 } : Sitting).lastWords .timeExpired scene.time) t
  /-- The exam is handed in. -/
  | handedIn {t : Sitting} (reason : Reason) (agrees : (s.ended reason scene.time).Agrees t) :
      Telling scene s (.submit reason) (s.lastWords reason scene.time) t
  /-- A life is lost, and the session goes on. -/
  | lost {x : Stimulus} {t : Sitting} (kind : ViolationType) (left : Nat)
      (before after : List Directive) (other : x ≠ .tick)
      (agrees : (s.charged (s.violation scene kind left)).Agrees t) :
      Telling scene s x
        (s.session.voice before ++ s.loss scene kind left :: s.session.voice after) t
  /-- A life is lost, and the session ends of it. Something is left to say behind the end, unless it
  was the last life and a grace period took it. -/
  | lostLast {x : Stimulus} {t u : Sitting} (kind : ViolationType) (left : Nat)
      (before after : List Directive) (other : x ≠ .tick)
      (trigger : x = .graceElapsed ∨ ∃ signal, x = .signal signal)
      (spoken : after = [] ↔ x = .graceElapsed ∧ s.session.livesRemaining = 1)
      (charged : (s.charged (s.violation scene kind left)).Agrees u)
      (agrees : (u.ended .livesExhausted scene.time).Agrees t) :
      Telling scene s x
        (s.session.voice before ++ s.loss scene kind left ::
          (u.lastWords .livesExhausted scene.time ++ s.session.voice after)) t
  /-- The service is shut down. -/
  | shut {t : Sitting} (agrees : s.disarmed.Agrees t) :
      Telling scene s .shutdown (s.session.voice s.pardon) t

end Sitting

namespace Turn

variable {σ : Type} (ledger : LivesLedger σ) (scene : Scene) {s : Sitting × σ}

open Sitting (Agrees Telling isActive_of_isRunning)

/-- What the detector sends at the end of a grace period is carried out: the penalty is told, with
the end of the session if it comes to that, and a candidate who had more lives is called back. -/
theorem tells_penalty (kind : ViolationType) (hactive : s.1.session.isActive = true)
    (halive : 0 < s.1.session.livesRemaining) (harmed : s.1.detector.armed = true) :
    (applyEffects ledger scene
        (Detector.penalty kind ⟨scene.now, s.1.session.livesRemaining⟩)).tells s =
      s.1.loss scene kind (livesLeft ledger scene s) ::
        ((if livesLeft ledger scene s = 0 ∨ s.1.session.livesRemaining = 1 then
          (s.1.charged (s.1.violation scene kind (livesLeft ledger scene s))).lastWords
            .livesExhausted scene.time else []) ++
        s.1.session.voice
          (if s.1.session.livesRemaining = 1 then [] else [.requestFullscreen])) := by
  have hloss := tells_applyViolation s ledger scene kind hactive halive harmed
  have hafter := after_applyViolation s ledger scene kind ⟨hactive, halive⟩
  unfold Detector.penalty
  rw [if_neg (Nat.pos_iff_ne_zero.mp halive)]
  by_cases hone : s.1.session.livesRemaining = 1
  · have hlast : ¬1 < s.1.session.livesRemaining := by omega
    rw [if_neg hlast, tells_applyEffects_cons, tells_applyEffect_loseLife,
      after_applyEffect_loseLife, tells_applyEffects_cons, applyEffects_nil, tells_pure,
      List.append_nil, hloss, hafter, if_pos (Or.inr hone), if_pos hone]
    -- the loss may have ended the session already, and then the order to submit finds it over
    by_cases hzero : livesLeft ledger scene s = 0
    · rw [if_pos hzero, Sitting.endedIf, if_pos hzero, hzero]
      have hover := tells_finish_over
        ((s.1.charged (s.1.violation scene kind 0)).ended .livesExhausted scene.time,
          (asked ledger scene s).2) scene .livesExhausted
        (Sitting.ended_isActive _ _ (by exact hactive))
      rw [applyEffect, hover]
      rfl
    · rw [if_neg hzero, Sitting.endedIf, if_neg hzero, applyEffect,
        tells_finish _ scene .livesExhausted (by exact hactive) (by exact harmed)]
      exact congrArg (_ :: ·) (List.append_nil _).symm
  · have hmore : 1 < s.1.session.livesRemaining := by omega
    rw [if_pos hmore, tells_applyEffects_cons, tells_applyEffect_loseLife,
      after_applyEffect_loseLife, tells_applyEffects_cons, applyEffects_nil, tells_pure,
      List.append_nil, hloss, tells_applyEffect_directive, hafter, Sitting.voice_endedIf,
      if_neg hone]
    by_cases hzero : livesLeft ledger scene s = 0
    · rw [if_pos hzero, if_pos (Or.inl hzero), hzero]
      rfl
    · rw [if_neg hzero, if_neg (not_or.mpr ⟨hzero, hone⟩)]
      rfl

/-- A report of the browser, as it is told. -/
theorem onSignal_telling (signal : Signal) (hrun : s.1.isRunning = true) (hc : s.1.Coupled) :
    Telling scene s.1 (.signal signal) ((onSignal ledger scene signal).tells s)
      ((onSignal ledger scene signal).after s).1 := by
  have hactive := isActive_of_isRunning hrun
  have harmed : s.1.detector.armed = true := by rw [hc.armed, hrun]
  obtain ⟨d, es, htold, hreact⟩ := told_signal scene signal harmed
  have htells : (onSignal ledger scene signal).tells s =
      (applyEffects ledger scene (told scene (.signal signal) s.1).2).tells
        ({ s.1 with detector := (told scene (.signal signal) s.1).1 }, s.2) := by
    simp only [onSignal, tells_bind, tells_sitting, value_sitting, after_sitting, ↓tells_ite,
      tells_note, tells_pure, ite_self, after_note, tells_feed, value_feed, after_feed,
      List.nil_append, List.append_nil]
  rw [htells, after_onSignal, htold]
  cases hreact with
  | quiet ds =>
    rw [after_applyEffects_spoken, tells_applyEffects_spoken]
    exact .spoke ds (by simp) ⟨rfl, rfl, rfl⟩
  | opened kind g before after =>
    rw [tells_applyEffects_append, after_applyEffects_append, tells_applyEffects_spoken,
      after_applyEffects_spoken, tells_applyEffects_cons, after_applyEffects_cons,
      tells_applyEffect_startGrace, after_applyEffect_startGrace, tells_applyEffects_spoken,
      after_applyEffects_spoken, List.nil_append]
    have hspoke : s.1.session.voice before ++ s.1.session.voice after =
        s.1.session.voice (before ++ after) := List.map_append.symm
    rw [hspoke]
    exact .spoke _ (by simp) ⟨rfl, rfl, rfl⟩
  | recovered =>
    rw [tells_applyEffects_cons, after_applyEffects_cons, tells_applyEffect_cancelGrace,
      after_applyEffect_cancelGrace, tells_applyEffects_spoken, after_applyEffects_spoken,
      List.nil_append]
    exact .spoke _ (by simp) ⟨rfl, rfl, rfl⟩
  | charged kind message use alive =>
    have henv := Environment.observe_of_clipboard? s.1.detector.env use
    rw [henv, tells_applyEffects_cons, after_applyEffects_cons, tells_applyEffect_directive,
      after_applyEffect_directive, tells_applyEffects_cons, after_applyEffects_cons,
      tells_applyEffect_loseLife, after_applyEffect_loseLife, tells_applyEffects_spoken,
      after_applyEffects_spoken]
    have hloss := tells_applyViolation s ledger scene kind hactive alive harmed
    have hafter := after_applyViolation s ledger scene kind ⟨hactive, alive⟩
    show Telling scene s.1 _ (s.1.session.voice [.preventDefault] ++
      ((applyViolation ledger scene kind).tells s ++
        ((applyViolation ledger scene kind).after s).1.session.voice [.notify message]))
      ((applyViolation ledger scene kind).after s).1
    rw [hloss, hafter, Sitting.voice_endedIf]
    -- the notice of the clipboard is told behind the loss, also if that was the end
    by_cases hzero : livesLeft ledger scene s = 0
    · rw [if_pos hzero, Sitting.endedIf, if_pos hzero, hzero]
      exact .lostLast (u := s.1.charged (s.1.violation scene kind 0)) kind 0 [.preventDefault]
        [.notify message] (by simp) (Or.inr ⟨signal, rfl⟩) (by simp) ⟨rfl, rfl, rfl⟩ ⟨rfl, rfl, rfl⟩
    · rw [if_neg hzero, Sitting.endedIf, if_neg hzero]
      exact .lost kind _ [.preventDefault] [.notify message] (by simp) ⟨rfl, rfl, rfl⟩

/-- The end of a grace period, as it is told. -/
theorem onGraceElapsed_telling (hrun : s.1.isRunning = true) (hc : s.1.Coupled) :
    Telling scene s.1 .graceElapsed ((onGraceElapsed ledger scene).tells s)
      ((onGraceElapsed ledger scene).after s).1 := by
  cases hp : s.1.detector.pending with
  | none =>
    rw [tells, actions, after, onGraceElapsed_safe ledger scene hc hp]
    exact .spoke [] (by simp) ⟨rfl, rfl, rfl⟩
  | some g =>
    have hactive := isActive_of_isRunning hrun
    have harmed : s.1.detector.armed = true := by rw [hc.armed, hrun]
    have htells : (onGraceElapsed ledger scene).tells s =
        s.1.session.voice [.clearWarning] ++ (applyEffects ledger scene
          (Detector.penalty g.violation
            ⟨scene.now, (s.1.lapsed, s.2).1.session.livesRemaining⟩)).tells (s.1.lapsed, s.2) := by
      have hcons := tells_applyEffects_cons (s.1.lapsed, s.2) ledger scene (.directive .clearWarning)
        (Detector.penalty g.violation ⟨scene.now, s.1.session.livesRemaining⟩)
      rw [tells, actions, onGraceElapsed_fires ledger scene hrun hc hp]
      exact (tells_bind _ _ _).trans ((List.append_nil _).trans hcons)
    have hafter : (onGraceElapsed ledger scene).after s =
        (applyEffects ledger scene
          (Detector.penalty g.violation
            ⟨scene.now, (s.1.lapsed, s.2).1.session.livesRemaining⟩)).after (s.1.lapsed, s.2) := by
      rw [after, onGraceElapsed_fires ledger scene hrun hc hp]
      exact after_applyEffects_cons (s.1.lapsed, s.2) ledger scene (.directive .clearWarning) _
    rw [htells, hafter]
    rcases Nat.eq_zero_or_pos (s.1.lapsed, s.2).1.session.livesRemaining with hdead | halive
    · rw [Detector.penalty, if_pos hdead, applyEffects_nil, tells_pure, after_pure, List.append_nil]
      exact .spoke [.clearWarning] (by simp) ⟨rfl, rfl, rfl⟩
    · have hpenalty := tells_penalty ledger scene (s := (s.1.lapsed, s.2)) g.violation hactive
        halive harmed
      have hcharge := after_penalty ledger scene (s := (s.1.lapsed, s.2)) g.violation hactive halive
      rw [hpenalty, hcharge]
      by_cases hends : livesLeft ledger scene (s.1.lapsed, s.2) = 0 ∨
          (s.1.lapsed, s.2).1.session.livesRemaining = 1
      · rw [if_pos hends, Sitting.endedIf, if_pos hends]
        exact .lostLast (u := s.1.lapsed.charged _) g.violation _ [.clearWarning] _ (by simp)
          (Or.inl rfl) (by split <;> simp_all [Sitting.lapsed]) ⟨rfl, rfl, rfl⟩ ⟨rfl, rfl, rfl⟩
      · rw [if_neg hends, Sitting.endedIf, if_neg hends]
        exact .lost g.violation _ [.clearWarning] _ (by simp) ⟨rfl, rfl, rfl⟩

/-! ## The other stimuli -/

theorem tells_updateAnswer (index : Nat) (code : String) :
    (updateAnswer index code : Turn σ (Except Fault Answer)).tells s = [] := by
  unfold updateAnswer
  rw [tells_bind, tells_sitting, List.nil_append, value_sitting, after_sitting]
  split
  · split
    · rfl
    · rfl
  · rfl

theorem tells_recordRun (index : Nat) (result : RunResult) :
    (recordRun scene index result : Turn σ (Except Fault Answer)).tells s = [] := by
  unfold recordRun
  rw [tells_bind, tells_sitting, List.nil_append, value_sitting, after_sitting]
  split
  · split
    · split
      · rfl
      · split
        · rfl
        · rfl
    · rfl
  · rfl

/-- A stimulus that reaches the answers alone tells nothing. -/
theorem answers_telling {x : Stimulus} {t : Sitting × σ} {events : List Event} (hx : x ≠ .tick)
    (hevents : events = []) (hanswers : ∃ answers, t = ({ s.1 with answers := answers }, s.2)) :
    Telling scene s.1 x events t.1 := by
  obtain ⟨answers, rfl⟩ := hanswers
  rw [hevents]
  exact .spoke [] hx ⟨rfl, rfl, rfl⟩

theorem submit_telling (reason : Reason) (hrun : s.1.isRunning = true) (hc : s.1.Coupled) :
    Telling scene s.1 (.submit reason)
      ((submit scene reason : Turn σ (Except Fault Snapshot)).tells s)
      ((submit scene reason : Turn σ (Except Fault Snapshot)).after s).1 := by
  have hactive := isActive_of_isRunning hrun
  have harmed : s.1.detector.armed = true := by rw [hc.armed, hrun]
  by_cases hlocked : reason = .user ∧ s.1.timer.canSubmit = false
  · have hrefused : (submit scene reason : Turn σ (Except Fault Snapshot)).run s =
        ((.error (.submitLocked s.1.timer.untilSubmit), s), []) := by
      simp [submit, run_bind, hactive, hlocked]
    rw [tells, actions, after, hrefused]
    exact .spoke [] (by simp) ⟨rfl, rfl, rfl⟩
  · have hafter : (submit scene reason : Turn σ (Except Fault Snapshot)).after s =
        (s.1.ended reason scene.time, s.2) := by
      simp only [submit, after_bind, value_sitting, after_sitting, hactive, ↓reduceIte, hlocked,
        after_finish, Sitting.endedIf, after_pure]
    have htells : (submit scene reason : Turn σ (Except Fault Snapshot)).tells s =
        s.1.lastWords reason scene.time := by
      simp only [submit, tells_bind, tells_sitting, value_sitting, after_sitting, hactive,
        ↓reduceIte, hlocked, tells_finish s scene reason hactive harmed, tells_pure,
        List.nil_append, List.append_nil]
    rw [hafter, htells]
    exact .handedIn reason ⟨rfl, rfl, rfl⟩

/-- A tick, as it is told. -/
theorem onTick_telling (hrun : s.1.isRunning = true) (hc : s.1.Coupled) :
    Telling scene s.1 .tick ((onTick scene : Turn σ Unit).tells s)
      ((onTick scene : Turn σ Unit).after s).1 := by
  have hclock : s.1.timer.isRunning = true := by rw [hc.ticking, hrun]
  obtain ⟨tick, htick, -⟩ := tick_running hclock
  have hactive := isActive_of_isRunning hrun
  have harmed : s.1.detector.armed = true := by rw [hc.armed, hrun]
  cases hlast : tick.expired with
  | true =>
    have hfinish := tells_finish ({ s.1 with timer := s.1.timer.tick.1 }, s.2) scene .timeExpired
      hactive harmed
    have htells : (onTick scene : Turn σ Unit).tells s =
        s.1.beat tick scene.time ::
          .timeExpired s.1.session.id scene.time "Time limit exceeded" ::
          ({ s.1 with timer := s.1.timer.tick.1 } : Sitting).lastWords .timeExpired scene.time := by
      simp only [onTick, tells_bind, tells_sitting, value_sitting, after_sitting, htick,
        tells_change, after_change, tells_publish, after_publish, hlast, ↓reduceIte, tells_note,
        after_note, hfinish, tells_pure, List.nil_append, List.append_nil, List.singleton_append,
        Sitting.beat]
    rw [htells, after_onTick scene htick, Sitting.endedIf, if_pos ⟨hlast, hactive⟩]
    exact .timedOut tick htick hlast ⟨rfl, rfl, rfl⟩
  | false =>
    have htells : (onTick scene : Turn σ Unit).tells s = [s.1.beat tick scene.time] := by
      simp only [onTick, tells_bind, tells_sitting, value_sitting, after_sitting, htick,
        tells_change, after_change, tells_publish, hlast, Bool.false_eq_true, ↓reduceIte,
        tells_pure, List.nil_append, List.append_nil, Sitting.beat]
    have hmore : ¬(tick.expired = true ∧ s.1.session.isActive = true) := by simp [hlast]
    rw [htells, after_onTick scene htick, Sitting.endedIf, if_neg hmore]
    exact .ticked tick htick hlast ⟨rfl, rfl, rfl⟩

/-- **A running sitting tells of every stimulus in one of the listed ways.** -/
theorem handle_telling (x : Stimulus) (hrun : s.1.isRunning = true) (hc : s.1.Coupled) :
    Telling scene s.1 x ((handle ledger scene x).tells s) ((handle ledger scene x).after s).1 := by
  have hvalue : ∀ {α : Type} (t : Turn σ α) (f : α → Reply),
      (do return f (← t) : Turn σ Reply).tells s = t.tells s :=
    fun t f => (tells_bind s t _).trans (List.append_nil _)
  cases x with
  | signal signal =>
    rw [handle, hvalue]
    exact onSignal_telling ledger scene signal hrun hc
  | update index code =>
    rw [handle, hvalue]
    exact answers_telling scene (by simp) (tells_updateAnswer index code) (after_updateAnswer index code)
  | recordRun index result =>
    rw [handle, hvalue]
    exact answers_telling scene (by simp) (tells_recordRun scene index result)
      (after_recordRun scene index result)
  | submit reason =>
    rw [handle, hvalue]
    exact submit_telling scene reason hrun hc
  | look => exact answers_telling scene (by simp) rfl ⟨s.1.answers, rfl⟩
  | tick =>
    rw [handle, tells_bind, tells_pure, List.append_nil]
    exact onTick_telling scene hrun hc
  | graceElapsed =>
    rw [handle, tells_bind, tells_pure, List.append_nil]
    exact onGraceElapsed_telling ledger scene hrun hc
  | shutdown =>
    have harmed : s.1.detector.armed = true := by rw [hc.armed, hrun]
    have htells : (handle ledger scene .shutdown).tells s = s.1.session.voice s.1.pardon := by
      simp only [handle, onShutdown, tells_bind, tells_teardown s scene harmed, tells_change,
        tells_sitting, tells_note, tells_pure, List.append_nil]
    rw [htells, shutdown_after]
    exact .shut ⟨rfl, rfl, rfl⟩

end Turn

/-! ## Runs -/

namespace Turn

variable {σ : Type} (ledger : LivesLedger σ)

/-- All events that a sitting publishes from its beginning on. -/
def broadcast (s : Sitting × σ) (cues : List Cue) : List Event := published (deeds ledger s cues)

/-- Nothing is told before anything happens. -/
@[simp] theorem broadcast_nil (s : Sitting × σ) : broadcast ledger s [] = [] := by
  rw [broadcast, deeds, history_nil, List.flatMap_nil, List.append_nil]
  exact tells_begin s

/-- One more moment tells its events behind all others. -/
theorem broadcast_concat (s : Sitting × σ) (cues : List Cue) (c : Cue) :
    broadcast ledger s (cues ++ [c]) =
      broadcast ledger s cues ++ published (moment ledger (reached ledger s cues) c).actions := by
  simp only [broadcast, deeds, history_concat, List.flatMap_append, published_append,
    List.flatMap_cons, List.flatMap_nil, List.append_nil, List.append_assoc]

variable {s : Sitting × σ}

/-- What is published at a moment is what handling the stimulus tells. -/
theorem published_moment (c : Cue) (hrun : s.1.isRunning = true) :
    published (moment ledger s c).actions = (handle ledger c.scene c.stimulus).tells s := by
  have hactions : (moment ledger s c).actions = _ :=
    actions_step_running ledger c.scene c.stimulus hrun
  rw [hactions, published_append]
  split
  · exact List.append_nil _
  · exact List.append_nil _

/-- What is told at a moment of a running sitting. -/
theorem moment_telling (c : Cue) (hrun : s.1.isRunning = true) (hc : s.1.Coupled) :
    Sitting.Telling c.scene s.1 c.stimulus (published (moment ledger s c).actions)
      (moment ledger s c).after.1 := by
  have hafter : (moment ledger s c).after = (handle ledger c.scene c.stimulus).after s :=
    after_step_running ledger c.scene c.stimulus hrun
  rw [published_moment ledger c hrun, hafter]
  exact handle_telling ledger c.scene c.stimulus hrun hc

end Turn

end Invigilator
