import Invigilator.Proofs.Sitting.History

/-!
# Stretches of a run

There are three things that a sitting can do to its records: a penalty is charged, an answer is
revised, the session is closed. Each comes with actions of its own, and only an active session
does any of them. `Stretch s t as` says that a run can lead from one sitting to another by these
alone, with some actions, and `stretch_history` that every run does.

So a relation that composes and holds of the three steps, and of everything that leaves the
records alone, holds of every run: by induction over stretches. No such proof opens the turns
again.
-/

namespace Invigilator

/-- What has no part in the records: neither a write nor the farewell. -/
def Action.isIdle : Action → Bool
  | .publish e => !e.isLast
  | .write _ => false
  | .note _ => true

/-- What can become of an answer: its code is replaced, or a test run is recorded. -/
inductive Answer.Revision (old : Answer) : Answer → Prop where
  | edit (code : String) : Revision old (old.edit code)
  | run (result : RunResult) (time : Stamp) : Revision old (old.applyRun result time)

namespace Sitting

/-- The actions that a penalty takes when it is charged. -/
def penalty (s : Sitting) (v : Violation) : List Action :=
  [.note (.count (.violations v.violationType.name)), .write (.recordViolation v),
    .write (.updateSession s.session.id (Turn.penaltyPatch (s.charged v).session)),
    .publish (.lifeLost s.session.id v.violationType v.heartsBefore v.heartsAfter v.occurredAt),
    .note (Turn.penaltyLine v)]

/-- The sitting with an answer in the place of another. -/
def revised (s : Sitting) (index : Nat) (new : Answer) : Sitting :=
  { s with answers := s.answers.set index new }

/-- The sitting with its session finished. -/
def closed (s : Sitting) (reason : Reason) (spent : Nat) (time : Stamp) : Sitting :=
  { s with session := s.session.finish reason spent time }

end Sitting

/-- The actions with which a finished session takes its leave. -/
def Session.leave (s : Session) (reason : Reason) (spent : Nat) (time : Stamp) : List Action :=
  [.write (.updateSession s.id s.patch)] ++
    (if reason = .livesExhausted then [.write (.blockUser s.userId s.id)] else []) ++
    [.note (.count (.sessions s.status.name)),
      .publish (.sessionFinished s.id s.status s.autoSubmitted spent time),
      .note (Turn.finishedLine s reason spent)]

/-- A way from one sitting to another, and the actions on it. -/
inductive Stretch : Sitting → Sitting → List Action → Prop where
  /-- The records are left alone. -/
  | idle {s t : Sitting} {as : List Action} (session : t.session = s.session)
      (answers : t.answers = s.answers) (violations : t.violations = s.violations)
      (still : ∀ a ∈ as, a.isIdle = true) : Stretch s t as
  /-- A penalty is charged; the last one leaves closing to another step. -/
  | charge {s : Sitting} (scene : Scene) (kind : ViolationType) (left : Nat)
      (active : s.session.isActive = true) :
      Stretch s (s.charged (s.violation scene kind left)) (s.penalty (s.violation scene kind left))
  /-- An answer is revised in its place. -/
  | revise {s : Sitting} {index : Nat} {old new : Answer} (active : s.session.isActive = true)
      (place : s.answers[index]? = some old) (revision : old.Revision new) :
      Stretch s (s.revised index new) [.write (.updateAnswer s.session.id index new.patch)]
  /-- The session is closed for good. -/
  | close {s : Sitting} (reason : Reason) (spent : Nat) (time : Stamp)
      (active : s.session.isActive = true) :
      Stretch s (s.closed reason spent time)
        ((s.closed reason spent time).session.leave reason spent time)
  | andThen {s t u : Sitting} {as bs : List Action} (first : Stretch s t as)
      (second : Stretch t u bs) : Stretch s u (as ++ bs)

namespace Turn

variable {σ α β : Type} {s : Sitting × σ}

/-- A turn is a stretch, from a state. -/
def Stretches (t : Turn σ α) (s : Sitting × σ) : Prop := Stretch s.1 (t.after s).1 (t.actions s)

/-! ## Pieces of turns -/

theorem stretches_bind {t : Turn σ α} {f : α → Turn σ β} (ht : t.Stretches s)
    (hf : (f (t.value s)).Stretches (t.after s)) : (t >>= f).Stretches s :=
  Stretch.andThen ht hf

theorem stretches_pure (x : α) : (pure x : Turn σ α).Stretches s :=
  .idle rfl rfl rfl (List.forall_mem_nil _)

theorem stretches_sitting : (sitting : Turn σ Sitting).Stretches s :=
  .idle rfl rfl rfl (List.forall_mem_nil _)

theorem stretches_act {a : Action} (h : a.isIdle = true) : (act a : Turn σ Unit).Stretches s := by
  refine .idle rfl rfl rfl ?_
  rw [actions_act]
  exact List.forall_mem_singleton.mpr h

theorem stretches_note (n : Note) : (note n : Turn σ Unit).Stretches s := stretches_act rfl

theorem stretches_publish {e : Event} (h : e.isLast = false) :
    (publish e : Turn σ Unit).Stretches s :=
  stretches_act (congrArg Bool.not h)

theorem stretches_publishDirective (d : Directive) :
    (publishDirective d : Turn σ Unit).Stretches s :=
  stretches_bind stretches_sitting (stretches_publish rfl)

/-- A change of anything but the records. -/
theorem stretches_change {f : Sitting → Sitting} (hsession : (f s.1).session = s.1.session)
    (hanswers : (f s.1).answers = s.1.answers) (hviolations : (f s.1).violations = s.1.violations) :
    (change f : Turn σ Unit).Stretches s :=
  .idle hsession hanswers hviolations (List.forall_mem_nil _)

theorem stretches_call (a : Attempt σ α) : (call a).Stretches s := by
  refine .idle rfl rfl rfl fun x hx => ?_
  obtain ⟨n, -, rfl⟩ := List.mem_map.mp (show x ∈ (a s.2).2.map Action.note from hx)
  rfl

theorem stretches_feed (scene : Scene) (event : DetectorEvent) :
    (feed scene event : Turn σ (List Effect)).Stretches s :=
  stretches_bind stretches_sitting (stretches_bind (stretches_change rfl rfl rfl)
    (stretches_pure _))

/-! ## The end -/

theorem stretches_disarmEffect (e : Effect) :
    (disarmEffect e : Turn σ (List Directive)).Stretches s := by
  cases e with
  | directive d => exact stretches_bind (stretches_publishDirective d) (stretches_pure _)
  | cancelGrace reason => exact stretches_bind (stretches_note _) (stretches_pure _)
  | startGrace deadline generation => exact stretches_pure _
  | loseLife kind => exact stretches_pure _
  | autoSubmit => exact stretches_pure _

theorem stretches_disarmEffects (es : List Effect) :
    (disarmEffects es : Turn σ (List Directive)).Stretches s := by
  induction es generalizing s with
  | nil => exact stretches_pure _
  | cons e es ih =>
    exact stretches_bind (stretches_disarmEffect e) (stretches_bind ih (stretches_pure _))

theorem stretches_teardown (scene : Scene) :
    (teardown scene : Turn σ (List Directive)).Stretches s :=
  stretches_bind (stretches_change rfl rfl rfl) (stretches_bind (stretches_feed scene .disarm)
    (stretches_bind (stretches_change rfl rfl rfl) (stretches_disarmEffects _)))

/-- **Whoever calls it, and however often, `finish` closes an active session and no other.** -/
theorem stretches_finish (scene : Scene) (reason : Reason) :
    (finish scene reason : Turn σ (List Directive)).Stretches s := by
  cases hs : s.1.session.isActive with
  | false => refine .idle ?_ ?_ ?_ ?_ <;> simp [finish, hs]
  | true =>
    have hteardown : Stretch s.1 s.1.disarmed ((teardown scene : Turn σ _).actions s) := by
      have h := stretches_teardown (s := s) scene
      rwa [Stretches, after_teardown] at h
    have hrelease : Stretch s.1.disarmed s.1.disarmed
        [.publish (.directive s.1.session.id .exitFullscreen)] :=
      .idle rfl rfl rfl (List.forall_mem_singleton.mpr rfl)
    have hclose := Stretch.close (s := s.1.disarmed) reason s.1.timer.elapsed scene.time hs
    -- stopping and releasing come before the records are touched; what follows is the closing
    have hended : s.1.disarmed.closed reason s.1.timer.elapsed scene.time =
        s.1.ended reason scene.time := rfl
    have h := (hteardown.andThen hrelease).andThen hclose
    rw [hended, Session.leave] at h
    rw [Stretches, after_finish, Sitting.endedIf, if_pos hs, actions_finish s scene reason hs]
    simpa only [List.append_assoc, List.cons_append, List.nil_append] using h

/-! ## Effects -/

variable (ledger : LivesLedger σ)

theorem stretches_takeLife (scene : Scene) (session : Session) :
    (takeLife ledger scene session).Stretches s := by
  refine stretches_bind (stretches_call _) ?_
  split
  · exact stretches_pure _
  · exact stretches_bind (stretches_note _) (stretches_pure _)

theorem stretches_applyViolation (scene : Scene) (kind : ViolationType) :
    (applyViolation ledger scene kind).Stretches s := by
  refine stretches_bind stretches_sitting ?_
  rw [value_sitting, after_sitting]
  split
  · rename_i h
    refine stretches_bind (stretches_takeLife ledger scene _) ?_
    rw [after_takeLife, value_takeLife]
    -- the change and the five actions that follow it are the charge; what is left may close
    have hcharge := Stretch.charge scene kind (livesLeft ledger scene s) h.1
    have hclose : Stretches
        (if livesLeft ledger scene s = 0 then finish scene .livesExhausted else pure [])
        (s.1.charged (s.1.violation scene kind (livesLeft ledger scene s)),
          (asked ledger scene s).2) := by
      split
      · exact stretches_finish scene _
      · exact stretches_pure _
    exact (hcharge.andThen hclose :)
  · exact stretches_bind (stretches_note _) (stretches_pure _)

theorem stretches_applyEffect (scene : Scene) (e : Effect) :
    (applyEffect ledger scene e).Stretches s := by
  cases e with
  | startGrace deadline generation =>
    exact stretches_bind (stretches_change rfl rfl rfl) (stretches_bind (stretches_note _)
      (stretches_bind stretches_sitting (stretches_bind (stretches_note _) (stretches_pure _))))
  | cancelGrace reason =>
    exact stretches_bind (stretches_change rfl rfl rfl) (stretches_bind (stretches_note _)
      (stretches_bind stretches_sitting (stretches_bind (stretches_note _) (stretches_pure _))))
  | loseLife kind =>
    simp only [applyEffect]
    split
    · exact stretches_bind (stretches_note _) (stretches_applyViolation ledger scene kind)
    · exact stretches_applyViolation ledger scene kind
  | autoSubmit => exact stretches_finish scene .livesExhausted
  | directive d => exact stretches_bind (stretches_publishDirective d) (stretches_pure _)

/-- Whatever stands in a list of effects, and in whatever order, it is a stretch. -/
theorem stretches_applyEffects (scene : Scene) (es : List Effect) :
    (applyEffects ledger scene es).Stretches s := by
  induction es generalizing s with
  | nil => exact stretches_pure _
  | cons e es ih =>
    exact stretches_bind (stretches_applyEffect ledger scene e)
      (stretches_bind ih (stretches_pure _))

/-! ## Stimuli -/

theorem stretches_onSignal (scene : Scene) (signal : Signal) :
    (onSignal ledger scene signal).Stretches s := by
  have hrest : ∀ {u : Sitting × σ}, Stretches (do
      let effects ← feed scene (.signal signal)
      let directives ← applyEffects ledger scene effects
      let s ← sitting
      pure ({ directives := directives, livesRemaining := s.session.livesRemaining,
              pendingViolation := s.detector.pendingViolation,
              sessionActive := s.session.isActive } : SignalOutcome)) u :=
    stretches_bind (stretches_feed scene _) (stretches_bind (stretches_applyEffects ledger scene _)
      (stretches_bind stretches_sitting (stretches_pure _)))
  refine stretches_bind stretches_sitting ?_
  split
  · exact stretches_bind (stretches_note _) hrest
  · exact hrest

theorem stretches_storeAnswer {index : Nat} {old new : Answer} (h : s.1.session.isActive = true)
    (hplace : s.1.answers[index]? = some old) (hnew : old.Revision new) :
    (storeAnswer index new : Turn σ (Except Fault Answer)).Stretches s :=
  Stretch.revise h hplace hnew

theorem stretches_updateAnswer (index : Nat) (code : String) :
    (updateAnswer index code : Turn σ (Except Fault Answer)).Stretches s := by
  refine stretches_bind stretches_sitting ?_
  rw [value_sitting, after_sitting]
  split
  · rename_i h
    split
    · exact stretches_pure _
    · rename_i answer hplace
      exact stretches_storeAnswer h hplace (.edit code)
  · exact stretches_pure _

theorem stretches_recordRun (scene : Scene) (index : Nat) (result : RunResult) :
    (recordRun scene index result : Turn σ (Except Fault Answer)).Stretches s := by
  refine stretches_bind stretches_sitting ?_
  rw [value_sitting, after_sitting]
  split
  · rename_i h
    split
    · split
      · exact stretches_pure _
      · rename_i answer hplace
        have hstore := stretches_storeAnswer h hplace (.run result scene.time)
        split
        · exact stretches_bind (stretches_note _) hstore
        · exact stretches_bind (stretches_note _) (stretches_bind (stretches_note _) hstore)
    · exact stretches_pure _
  · exact stretches_pure _

theorem stretches_submit (scene : Scene) (reason : Reason) :
    (submit scene reason : Turn σ (Except Fault Snapshot)).Stretches s := by
  refine stretches_bind stretches_sitting ?_
  split
  · split
    · exact stretches_pure _
    · exact stretches_bind (stretches_finish scene reason)
        (stretches_bind stretches_sitting (stretches_pure _))
  · exact stretches_bind (stretches_note _) (stretches_pure _)

theorem stretches_onTick (scene : Scene) : (onTick scene : Turn σ Unit).Stretches s := by
  refine stretches_bind stretches_sitting ?_
  rw [value_sitting, after_sitting]
  split
  split
  · exact stretches_pure _
  · refine stretches_bind (stretches_change rfl rfl rfl)
      (stretches_bind (stretches_publish rfl) ?_)
    split
    · exact stretches_bind (stretches_note _) (stretches_bind (stretches_publish rfl)
        (stretches_bind (stretches_finish scene _) (stretches_pure _)))
    · exact stretches_pure _

theorem stretches_onGraceElapsed (scene : Scene) :
    (onGraceElapsed ledger scene).Stretches s := by
  refine stretches_bind stretches_sitting ?_
  rw [value_sitting, after_sitting]
  split
  · exact stretches_pure _
  · exact stretches_bind (stretches_change rfl rfl rfl) (stretches_bind (stretches_feed scene _)
      (stretches_bind (stretches_applyEffects ledger scene _) (stretches_pure _)))

theorem stretches_onShutdown (scene : Scene) : (onShutdown scene : Turn σ Unit).Stretches s :=
  stretches_bind (stretches_teardown scene) (stretches_bind (stretches_change rfl rfl rfl)
    (stretches_bind stretches_sitting (stretches_note _)))

/-- **Every stimulus that is handled is a stretch,** also one that comes when the session is
over. -/
theorem stretches_handle (scene : Scene) (x : Stimulus) : (handle ledger scene x).Stretches s := by
  cases x with
  | signal signal =>
    exact stretches_bind (stretches_onSignal ledger scene signal) (stretches_pure _)
  | update index code => exact stretches_bind (stretches_updateAnswer index code) (stretches_pure _)
  | recordRun index result =>
    exact stretches_bind (stretches_recordRun scene index result) (stretches_pure _)
  | submit reason => exact stretches_bind (stretches_submit scene reason) (stretches_pure _)
  | look => exact stretches_bind stretches_sitting (stretches_pure _)
  | tick => exact stretches_bind (stretches_onTick scene) (stretches_pure _)
  | graceElapsed =>
    exact stretches_bind (stretches_onGraceElapsed ledger scene) (stretches_pure _)
  | shutdown => exact stretches_bind (stretches_onShutdown scene) (stretches_pure _)

theorem stretches_step (scene : Scene) (x : Stimulus) : (step ledger scene x).Stretches s := by
  refine stretches_bind stretches_sitting ?_
  split
  · refine stretches_bind (stretches_handle ledger scene x) (stretches_bind stretches_sitting ?_)
    split
    · exact stretches_pure _
    · exact stretches_bind (stretches_note _) (stretches_pure _)
  · exact stretches_pure _

/-! ## Runs -/

/-- **A whole run is a stretch,** from the moment its records are created. -/
theorem stretch_history (s : Sitting × σ) (cues : List Cue) :
    Stretch s.1 (reached ledger s cues).1 ((history ledger s cues).flatMap Moment.actions) := by
  induction cues generalizing s with
  | nil => exact .idle rfl rfl rfl (List.forall_mem_nil _)
  | cons c cues ih =>
    exact (stretches_step ledger c.scene c.stimulus).andThen (ih (moment ledger s c).after)

end Turn

end Invigilator
