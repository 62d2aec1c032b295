import Invigilator.Proofs.Sitting.Telling

/-!
# The reply and the stream

A candidate who sends a signal gets directives twice: in the reply, and as events. They are made
at four levels, and each level hands up the ones that it has published: the effects of the
detector, the penalty among them, the end of the session inside the penalty, and the teardown
inside the end. `Says` follows both sides through the text of a turn, so that at every level what
is handed up is what was published (`says_teardown`, `says_finish`, `says_applyViolation`,
`says_applyEffects`), whether the session goes on or not.

An end in the middle of a list of effects releases the candidate once, and takes the warning of a
pending grace period back just before.
-/

namespace Invigilator

/-- Whether an event is a directive to the candidate. -/
def Event.isDirective : Event → Bool
  | .directive .. => true
  | .timerTick .. | .timeExpired .. | .lifeLost .. | .sessionFinished .. => false

theorem Session.filter_voice (s : Session) (ds : List Directive) :
    (s.voice ds).filter Event.isDirective = s.voice ds := by
  refine List.filter_eq_self.mpr fun e he => ?_
  obtain ⟨d, -, rfl⟩ := List.mem_map.mp he
  rfl

namespace Turn

variable {σ α β : Type} {s : Sitting × σ} {ds es : List Directive}

/-- The directives that a turn publishes are these, as those of its session. -/
structure Says (t : Turn σ α) (s : Sitting × σ) (ds : List Directive) : Prop where
  told : (t.tells s).filter Event.isDirective = s.1.session.voice ds
  id_eq : (t.after s).1.session.id = s.1.session.id

/-! ## Pieces of turns -/

theorem Says.bind {t : Turn σ α} {f : α → Turn σ β} (ht : t.Says s ds)
    (hf : (f (t.value s)).Says (t.after s) es) : (t >>= f).Says s (ds ++ es) where
  told := by
    have hsame : (t.after s).1.session.voice es = s.1.session.voice es := by
      rw [Session.voice, ht.id_eq, Session.voice]
    rw [tells_bind, List.filter_append, ht.told, hf.told, hsame]
    exact List.map_append.symm
  id_eq := hf.id_eq.trans ht.id_eq

/-- What says nothing may come first. -/
theorem Says.andThen {t : Turn σ α} {f : α → Turn σ β} (ht : t.Says s [])
    (hf : (f (t.value s)).Says (t.after s) es) : (t >>= f).Says s es := ht.bind hf

/-- What says nothing may come last. -/
theorem Says.before {t : Turn σ α} {f : α → Turn σ β} (ht : t.Says s ds)
    (hf : (f (t.value s)).Says (t.after s) []) : (t >>= f).Says s ds :=
  List.append_nil ds ▸ ht.bind hf

theorem says_pure (x : α) : (pure x : Turn σ α).Says s [] := ⟨rfl, rfl⟩

theorem says_sitting : (sitting : Turn σ Sitting).Says s [] := ⟨rfl, rfl⟩

theorem says_change {f : Sitting → Sitting} (hid : (f s.1).session.id = s.1.session.id) :
    (change f : Turn σ Unit).Says s [] := ⟨rfl, hid⟩

theorem says_note (n : Note) : (note n : Turn σ Unit).Says s [] := ⟨rfl, rfl⟩

theorem says_write (w : RecordWrite) : (write w : Turn σ Unit).Says s [] := ⟨rfl, rfl⟩

theorem says_countGrace (outcome : String) : (countGrace outcome : Turn σ Unit).Says s [] :=
  ⟨rfl, rfl⟩

theorem says_feed (scene : Scene) (event : DetectorEvent) :
    (feed scene event : Turn σ (List Effect)).Says s [] := ⟨rfl, rfl⟩

theorem says_publish {e : Event} (h : e.isDirective = false) :
    (publish e : Turn σ Unit).Says s [] where
  told := by simp [h, Session.voice]
  id_eq := rfl

theorem says_publishDirective (d : Directive) : (publishDirective d : Turn σ Unit).Says s [d] where
  told := by rw [tells_publishDirective, Session.filter_voice]
  id_eq := rfl

theorem says_ite {c : Prop} [Decidable c] {t u : Turn σ α} (ht : t.Says s ds)
    (hu : u.Says s ds) : (if c then t else u).Says s ds := by
  split
  · exact ht
  · exact hu

theorem value_ite (c : Prop) [Decidable c] (t u : Turn σ α) :
    (if c then t else u).value s = if c then t.value s else u.value s := by
  split <;> rfl

/-! ## Four levels -/

/-- The turn hands up the directives that it publishes. -/
def Echoes (t : Turn σ (List Directive)) (s : Sitting × σ) : Prop := t.Says s (t.value s)

/-- Two lists that are handed up are handed up as one. -/
theorem Echoes.append {t u : Turn σ (List Directive)} (ht : t.Echoes s)
    (hu : u.Echoes (t.after s)) :
    (do let first ← t; let more ← u; pure (first ++ more)).Echoes s :=
  Says.bind ht (Says.before hu (says_pure _))

theorem Echoes.after {t : Turn σ α} {f : α → Turn σ (List Directive)} (ht : t.Says s [])
    (hf : (f (t.value s)).Echoes (t.after s)) : (t >>= f).Echoes s := ht.andThen hf

theorem echoes_ite {c : Prop} [Decidable c] {t u : Turn σ (List Directive)} (ht : t.Echoes s)
    (hu : u.Echoes s) : (if c then t else u).Echoes s := by
  split
  · exact ht
  · exact hu

theorem echoes_pure_nil : (pure [] : Turn σ (List Directive)).Echoes s := says_pure []

theorem echoes_publishDirective (d : Directive) :
    (do publishDirective d; pure [d] : Turn σ (List Directive)).Echoes s :=
  (says_publishDirective d).before (says_pure [d])

theorem echoes_disarmEffects (effects : List Effect) :
    (disarmEffects effects : Turn σ (List Directive)).Echoes s := by
  induction effects generalizing s with
  | nil => exact echoes_pure_nil
  | cons e effects ih =>
    refine Echoes.append ?_ ih
    cases e with
    | directive d => exact echoes_publishDirective d
    | cancelGrace reason => exact (says_countGrace _).andThen echoes_pure_nil
    | startGrace | loseLife | autoSubmit => exact echoes_pure_nil

theorem echoes_teardown (scene : Scene) :
    (teardown scene : Turn σ (List Directive)).Echoes s :=
  (says_change rfl).andThen ((says_feed scene _).andThen ((says_change rfl).andThen
    (echoes_disarmEffects _)))

theorem value_finish (scene : Scene) (reason : Reason) (h : s.1.session.isActive = true) :
    (finish scene reason : Turn σ (List Directive)).value s =
      (teardown scene : Turn σ (List Directive)).value s ++ [.exitFullscreen] := by
  simp only [finish, value_bind, value_sitting, after_sitting, h, ↓reduceIte, ↓value_ite,
    value_pure, ite_self]

theorem value_finish_over (scene : Scene) (reason : Reason)
    (h : s.1.session.isActive = false) :
    (finish scene reason : Turn σ (List Directive)).value s = [] := by
  simp [finish, h]

/-- The end hands up what the teardown has, and the release of the candidate behind it. -/
theorem echoes_finish (scene : Scene) (reason : Reason) :
    (finish scene reason : Turn σ (List Directive)).Echoes s := by
  by_cases h : s.1.session.isActive = true
  · rw [Echoes, value_finish scene reason h, finish]
    refine says_sitting.andThen ?_
    rw [value_sitting, if_pos h]
    refine (echoes_teardown scene).bind ((says_publishDirective .exitFullscreen).before ?_)
    -- the rest is records, notes and the farewell, which is no directive
    refine says_sitting.andThen ((says_change (Session.finish_id ..)).andThen
      ((says_write _).andThen ?_))
    have hfarewell : ∀ {t : Sitting × σ} {e : Event} {first last : Note} {ds : List Directive},
        e.isDirective = false →
          (do note first; publish e; note last; pure ds : Turn σ (List Directive)).Says t [] :=
      fun he => (says_note _).andThen ((says_publish he).andThen ((says_note _).andThen
        (says_pure _)))
    exact says_ite ((says_write _).andThen (hfarewell rfl)) (hfarewell rfl)
  · have hover : s.1.session.isActive = false := Bool.eq_false_iff.mpr h
    refine ⟨?_, ?_⟩
    · rw [tells_finish_over s scene reason hover, value_finish_over scene reason hover]
      rfl
    · rw [after_finish, Sitting.endedIf, if_neg h]

variable (ledger : LivesLedger σ) (scene : Scene)

/-- A penalty hands up nothing, unless it ends the session. -/
theorem echoes_applyViolation (kind : ViolationType) :
    (applyViolation ledger scene kind).Echoes s := by
  have htake : (takeLife ledger scene s.1.session).Says s [] :=
    ⟨by rw [tells_takeLife]; rfl, by rw [after_takeLife]⟩
  refine .after says_sitting (echoes_ite ?_ (.after (says_note _) echoes_pure_nil))
  refine .after htake (.after (says_change htake.id_eq.symm) ?_)
  refine .after (says_note _) (.after (says_write _) (.after (says_write _)
    (.after (says_publish rfl) (.after (says_note _) ?_))))
  exact echoes_ite (echoes_finish scene .livesExhausted) echoes_pure_nil

theorem echoes_applyEffect (e : Effect) : (applyEffect ledger scene e).Echoes s := by
  cases e with
  | startGrace deadline generation =>
    exact .after (says_change rfl) (.after (says_countGrace _) (.after says_sitting
      (.after (says_note _) echoes_pure_nil)))
  | cancelGrace reason =>
    exact .after (says_change rfl) (.after (says_countGrace _) (.after says_sitting
      (.after (says_note _) echoes_pure_nil)))
  | loseLife kind =>
    exact echoes_ite (.after (says_countGrace _) (echoes_applyViolation ledger scene kind))
      (echoes_applyViolation ledger scene kind)
  | autoSubmit => exact echoes_finish scene .livesExhausted
  | directive d => exact echoes_publishDirective d

/-- **What the effects hand up is what they publish**, also if the session ends among them. -/
theorem echoes_applyEffects (effects : List Effect) :
    (applyEffects ledger scene effects).Echoes s := by
  induction effects generalizing s with
  | nil => exact echoes_pure_nil
  | cons e effects ih => exact (echoes_applyEffect ledger scene e).append ih

/-- The reply to a signal: what the effects hand up, and the state that they leave. -/
theorem value_onSignal (signal : Signal) :
    (onSignal ledger scene signal).value s =
      { directives := (applyEffects ledger scene (told scene (.signal signal) s.1).2).value
          ({ s.1 with detector := (told scene (.signal signal) s.1).1 }, s.2)
        livesRemaining := ((onSignal ledger scene signal).after s).1.session.livesRemaining
        pendingViolation := ((onSignal ledger scene signal).after s).1.detector.pendingViolation
        sessionActive := ((onSignal ledger scene signal).after s).1.session.isActive } := by
  rw [after_onSignal]
  by_cases h : signal = .fullscreenDenied
  · simp [onSignal, h]
  · simp [onSignal, h]

theorem says_onSignal (signal : Signal) :
    (onSignal ledger scene signal).Says s ((onSignal ledger scene signal).value s).directives := by
  rw [value_onSignal]
  have hrest : ∀ t : Sitting × σ, (do
      let effects ← feed scene (.signal signal)
      let directives ← applyEffects ledger scene effects
      let s ← sitting
      pure ({ directives := directives, livesRemaining := s.session.livesRemaining,
              pendingViolation := s.detector.pendingViolation,
              sessionActive := s.session.isActive } : SignalOutcome)).Says t
        ((applyEffects ledger scene (told scene (.signal signal) t.1).2).value
          ({ t.1 with detector := (told scene (.signal signal) t.1).1 }, t.2)) :=
    fun t => (says_feed scene _).andThen (Says.before (echoes_applyEffects ledger scene _)
      (says_sitting.andThen (says_pure _)))
  exact says_sitting.andThen (says_ite ((says_note _).andThen (hrest s)) (hrest s))

/-! ## The release -/

/-- To tear a watched sitting down hands up the warning that it takes back. -/
theorem value_teardown (harmed : s.1.detector.armed = true) :
    (teardown scene : Turn σ (List Directive)).value s = s.1.pardon := by
  simp only [teardown, value_bind, after_change, value_feed, after_feed, told_disarm scene harmed,
    Sitting.pardon]
  split <;> rfl

theorem value_applyViolation (kind : ViolationType) (hactive : s.1.session.isActive = true)
    (halive : 0 < s.1.session.livesRemaining) (harmed : s.1.detector.armed = true) :
    (applyViolation ledger scene kind).value s =
      if livesLeft ledger scene s = 0 then s.1.pardon ++ [.exitFullscreen] else [] := by
  simp only [applyViolation, value_bind, value_sitting, after_sitting, hactive, halive, and_self,
    ↓reduceIte, after_takeLife, value_takeLife, after_change, after_note, after_write,
    after_publish, value_ite, value_pure]
  split
  · rw [value_finish scene .livesExhausted (by exact hactive),
      value_teardown scene (by exact harmed)]
    rfl
  · rfl

theorem value_applyEffects_cons (e : Effect) (es : List Effect) :
    (applyEffects ledger scene (e :: es)).value s =
      (applyEffect ledger scene e).value s ++
        (applyEffects ledger scene es).value ((applyEffect ledger scene e).after s) := by
  simp [applyEffects]

theorem value_applyEffect_loseLife (kind : ViolationType) :
    (applyEffect ledger scene (.loseLife kind)).value s =
      (applyViolation ledger scene kind).value s := by
  simp only [applyEffect, value_ite, value_bind, after_countGrace, ite_self]

/-- A signal that ends the session is a use of the clipboard, and its reply releases the
candidate. -/
theorem onSignal_releases (signal : Signal) (hrun : s.1.isRunning = true) (hc : s.1.Coupled)
    (hover : ((onSignal ledger scene signal).after s).1.session.isActive = false) :
    ∃ message, ((onSignal ledger scene signal).value s).directives =
      .preventDefault :: (s.1.pardon ++ [.exitFullscreen, .notify message]) := by
  have hactive := Sitting.isActive_of_isRunning hrun
  have harmed : s.1.detector.armed = true := by rw [hc.armed, hrun]
  obtain ⟨d, es, htold, hreact⟩ := told_signal scene signal harmed
  rw [value_onSignal]
  rw [after_onSignal] at hover
  dsimp only
  rw [htold] at hover ⊢
  -- the session is left active by every reaction but a charge
  have hstill : ∀ {t : Sitting}, t.session = s.1.session → t.session.isActive = false → False :=
    fun hsame h => by rw [hsame, hactive] at h; cases h
  cases hreact with
  | quiet ds =>
    rw [after_applyEffects_spoken] at hover
    exact (hstill rfl hover).elim
  | opened kind g before after =>
    rw [after_applyEffects_append, after_applyEffects_spoken, after_applyEffects_cons,
      after_applyEffect_startGrace, after_applyEffects_spoken] at hover
    exact (hstill rfl hover).elim
  | recovered =>
    rw [after_applyEffects_cons, after_applyEffect_cancelGrace, after_applyEffects_spoken] at hover
    exact (hstill rfl hover).elim
  | charged kind message use alive =>
    rw [Environment.observe_of_clipboard? s.1.detector.env use] at hover ⊢
    have hpenalty := after_applyViolation s ledger scene kind ⟨hactive, alive⟩
    have hlost := value_applyViolation ledger scene kind hactive alive harmed
    rw [after_applyEffects_cons, after_applyEffect_directive, after_applyEffects_cons,
      after_applyEffect_loseLife, after_applyEffects_spoken] at hover
    rw [value_applyEffects_cons, after_applyEffect_directive, value_applyEffects_cons,
      value_applyEffect_loseLife]
    by_cases hzero : livesLeft ledger scene s = 0
    · rw [if_pos hzero] at hlost
      have haround := congrArg (fun ds : List Directive =>
        [.preventDefault] ++ (ds ++ [.notify message])) hlost
      rw [List.append_assoc] at haround
      exact ⟨message, haround⟩
    · rw [Sitting.endedIf, if_neg hzero] at hpenalty
      have hleft := congrArg (fun t : Sitting × σ => t.1.session.isActive) hpenalty
      exact Bool.noConfusion (hover.symm.trans (hleft.trans hactive))

/-! ## What a reply repeats -/

end Turn

/-- What is owed of the reply to a signal, from the sitting before and after it and what it told:
the reply has the directives that were told, in order, and the lives, the pending violation and
the state of the session that it leaves. If it ends the session, it releases the candidate once,
and takes the warning of a pending grace period back just before. -/
structure SignalOutcome.Repeats (o : SignalOutcome) (before after : Sitting) (told : List Event) :
    Prop where
  directives : told.filter Event.isDirective = before.session.voice o.directives
  livesRemaining : o.livesRemaining = after.session.livesRemaining
  pendingViolation : o.pendingViolation = after.detector.pendingViolation
  sessionActive : o.sessionActive = after.session.isActive
  released : after.session.isActive = false → o.directives.count .exitFullscreen = 1
  pardoned : after.session.isActive = false → before.detector.pending.isSome = true →
    [.clearWarning, .exitFullscreen] <:+: o.directives

namespace Turn

variable {σ : Type} (ledger : LivesLedger σ)

/-- A sitting that runs no more is not ended by a signal. -/
theorem onSignal_idle {s : Sitting × σ} (scene : Scene) (signal : Signal)
    (hrun : s.1.isRunning = false) (hc : s.1.Coupled) :
    ((onSignal ledger scene signal).after s).1.session = s.1.session := by
  have htold : told scene (.signal signal) s.1 = (s.1.detector, []) := by
    simp [told, Detector.step, hc.armed, hrun]
  rw [after_onSignal, htold]
  rfl

theorem repeats_onSignal {s : Sitting × σ} (scene : Scene) (signal : Signal)
    (hactive : s.1.session.isActive = true) (hc : s.1.Coupled) :
    ((onSignal ledger scene signal).value s).Repeats s.1 ((onSignal ledger scene signal).after s).1
      ((onSignal ledger scene signal).tells s) := by
  have hreleases : ((onSignal ledger scene signal).after s).1.session.isActive = false →
      ∃ message, ((onSignal ledger scene signal).value s).directives =
        .preventDefault :: (s.1.pardon ++ [.exitFullscreen, .notify message]) := by
    intro hover
    cases hrun : s.1.isRunning with
    | true => exact onSignal_releases ledger scene signal hrun hc hover
    | false =>
      -- a signal ends nothing that does not run
      rw [onSignal_idle ledger scene signal hrun hc, hactive] at hover
      cases hover
  constructor
  case directives => exact (says_onSignal ledger scene signal).told
  case livesRemaining => rw [value_onSignal]
  case pendingViolation => rw [value_onSignal]
  case sessionActive => rw [value_onSignal]
  case released =>
    intro hover
    obtain ⟨message, hdirectives⟩ := hreleases hover
    rw [hdirectives, Sitting.pardon]
    split <;> rfl
  case pardoned =>
    intro hover hpending
    obtain ⟨message, hdirectives⟩ := hreleases hover
    rw [hdirectives, Sitting.pardon, if_pos hpending]
    exact ⟨[.preventDefault], [.notify message], rfl⟩

/-- **The reply to a signal and the stream say the same.** Wherever a run has led, the reply to a
signal repeats what was published of it, and shows the state that it leaves; and it is what the
sitting replies as long as it runs. -/
theorem reply_repeats (session : Session) (answers : List Answer) (pace : Pace) (now : Instant)
    (lives : σ) (hsession : session.isActive = true) (cues : List Cue) (scene : Scene)
    (signal : Signal) :
    let s := reached ledger (.opened session answers pace now, lives) cues
    let o := (onSignal ledger scene signal).value s
    s.1.session.isActive = true →
      o.Repeats s.1 ((onSignal ledger scene signal).after s).1
        ((onSignal ledger scene signal).tells s) ∧
      (s.1.isRunning = true →
        let m := moment ledger s ⟨scene, .signal signal⟩
        m.reply = .outcome o ∧ published m.actions = (onSignal ledger scene signal).tells s ∧
          m.after = (onSignal ledger scene signal).after s) := by
  intro s o hactive
  have hc : s.1.Coupled :=
    coupled_reached ledger (Sitting.coupled_opened answers pace now hsession) cues
  refine ⟨repeats_onSignal ledger scene signal hactive hc, fun hrun => ⟨?_, ?_, ?_⟩⟩
  · exact value_step_running ledger scene (.signal signal) hrun
  · rw [published_moment ledger _ hrun, handle, tells_bind, tells_pure, List.append_nil]
  · exact after_step_running ledger scene (.signal signal) hrun

/-- The last life goes for a copy while a grace period is pending. -/
theorem reply_repeats_lastLife :
    let s := reached (.lasting Shelf.store 1) (.specimen 1, .empty)
      [.at 0 (.signal (.fullscreenChange false))]
    let o := (onSignal (.lasting Shelf.store 1) (Cue.at 1000 .look).scene .copy).value s
    (Session.specimen 1).isActive = true ∧ s.1.session.isActive = true ∧
      s.1.detector.pending.isSome = true ∧ o.sessionActive = false ∧
      o.directives =
        [.preventDefault, .clearWarning, .exitFullscreen, .notify Detector.copyBlocked] ∧
      o.Repeats s.1
        ((onSignal (.lasting Shelf.store 1) (Cue.at 1000 .look).scene .copy).after s).1
        ((onSignal (.lasting Shelf.store 1) (Cue.at 1000 .look).scene .copy).tells s) := by
  intro s o
  have hactive : s.1.session.isActive = true := by decide +kernel
  refine ⟨by decide, hactive, by decide +kernel, by decide +kernel, by decide +kernel, ?_⟩
  exact (reply_repeats (.lasting Shelf.store 1) (.specimen 1) [] .specimen 0 .empty (by decide)
    [.at 0 (.signal (.fullscreenChange false))] (Cue.at 1000 .look).scene .copy hactive).1

end Turn

end Invigilator
