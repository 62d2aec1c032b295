import Invigilator.Proofs.Sitting.History

/-!
# How a sitting changes

The clock, the detector and the timer of the grace period are separate parts, and one stimulus
may touch several of them. Between stimuli they agree: that is `Coupled`, the invariant of a
sitting. Of a coupled, running sitting everything that a stimulus can do is listed by `Change`,
one constructor for each way, and `handle_change` says that the list is complete.

`Coupled` is kept by every change, so it holds of everything that a newly opened sitting
reaches, and `moment_change` may be used at every moment of a run.
-/

namespace Invigilator

/-- The timer of a grace period. -/
def Grace.timer (g : Grace) : GraceTimer := ⟨g.deadline, g.generation⟩

/-- The environment after a stimulus. -/
def Environment.sees (e : Environment) : Stimulus → Environment
  | .signal s => e.observe s
  | _ => e

namespace Sitting

/-- The parts of a sitting agree. -/
structure Coupled (s : Sitting) : Prop where
  /-- The detector watches as long as the sitting runs. -/
  armed : s.detector.armed = s.isRunning
  /-- The clock goes as long as the sitting runs. -/
  ticking : s.timer.isRunning = s.isRunning
  /-- There is a timer for the pending grace period, and none otherwise. -/
  timed : s.grace = s.detector.pending.map Grace.timer
  /-- No grace period outlives the run. -/
  safe : s.isRunning = false → s.detector.pending = none

/-- The sitting with an environment seen, and nothing else changed in the detector. -/
def seen (s : Sitting) (x : Stimulus) : Detector :=
  { s.detector with env := s.detector.env.sees x }

/-- The sitting after its grace period has run out, before the penalty. -/
def lapsed (s : Sitting) : Sitting :=
  { s with grace := none, detector := { s.detector with pending := none } }

theorem isActive_of_isRunning {s : Sitting} (h : s.isRunning = true) :
    s.session.isActive = true := by
  rw [isRunning, Bool.and_eq_true] at h
  exact h.1

theorem ended_isActive {s : Sitting} (reason : Reason) (time : Stamp)
    (h : s.session.isActive = true) : (s.ended reason time).session.isActive = false := by
  rw [ended, Session.finish_active h]
  cases reason <;> rfl

/-- A sitting that goes on after it was to end under a condition is the sitting before. -/
theorem endedIf_active {s : Sitting} {p : Prop} [Decidable p] {reason : Reason} {time : Stamp}
    (hs : s.session.isActive = true)
    (h : (s.endedIf p reason time).session.isActive = true) :
    ¬p ∧ s.endedIf p reason time = s := by
  by_cases hp : p
  · rw [endedIf, if_pos hp, ended_isActive _ _ hs] at h
    cases h
  · exact ⟨hp, if_neg hp⟩

variable {σ : Type}

/-- What a stimulus can do to a running sitting and the store of its lives. -/
inductive Change (ledger : LivesLedger σ) (scene : Scene) (s : Sitting) (lives : σ) :
    Stimulus → Sitting → σ → Prop where
  /-- The records of the session, the grace period and the lives stay as they are. The clock goes on
  if it ticked. -/
  | quiet (x : Stimulus) (answers : List Answer) (timer : Countdown)
      (ticking : timer.isRunning = s.timer.isRunning)
      (notBack : ∀ signal, x = .signal signal → signal.isReturn = true →
        s.detector.pending.isSome = true → (s.detector.env.observe signal).isRecovered = false)
      (notCharged : ∀ signal, x = .signal signal → signal.clipboard?.isSome = true →
        s.session.livesRemaining = 0)
      (notLapsed : x = .graceElapsed → s.detector.pending = none)
      (passed : (x = .tick ∧ timer = s.timer.tick.1) ∨ (x ≠ .tick ∧ timer = s.timer)) :
      Change ledger scene s lives x
        { s with answers := answers, timer := timer, detector := s.seen x } lives
  /-- A report of leaving opens a grace period. -/
  | opened (signal : Signal) (kind : ViolationType) (g : Grace)
      (departure : signal.departure? = some kind) (safe : s.detector.pending = none)
      (alive : 0 < s.session.livesRemaining) (opens : g.Opens s.detector kind scene.now) :
      Change ledger scene s lives (.signal signal)
        { s with
          detector := { s.seen (.signal signal) with
            generation := s.detector.generation + 1, pending := some g }
          grace := some g.timer } lives
  /-- A report of coming back ends the pending grace period. -/
  | recovered (signal : Signal) (back : signal.isReturn = true)
      (pending : s.detector.pending.isSome = true)
      (whole : (s.detector.env.observe signal).isRecovered = true) :
      Change ledger scene s lives (.signal signal)
        { s with
          detector := { s.seen (.signal signal) with pending := none }
          grace := none } lives
  /-- A use of the clipboard costs a life, and the last life ends the session. -/
  | clipped (signal : Signal) (kind : ViolationType) (use : signal.clipboard? = some kind)
      (alive : 0 < s.session.livesRemaining) :
      Change ledger scene s lives (.signal signal)
        ((s.charged (s.violation scene kind (Turn.livesLeft ledger scene (s, lives)))).endedIf
          (Turn.livesLeft ledger scene (s, lives) = 0) .livesExhausted scene.time)
        (Turn.asked ledger scene (s, lives)).2
  /-- A grace period that has run out costs a life. The session ends if none is left, and also if
  it was the last one when the period ran out, whatever the ledger says. -/
  | penalized (g : Grace) (pending : s.detector.pending = some g)
      (alive : 0 < s.session.livesRemaining) :
      Change ledger scene s lives .graceElapsed
        ((s.lapsed.charged
            (s.violation scene g.violation (Turn.livesLeft ledger scene (s, lives)))).endedIf
          (Turn.livesLeft ledger scene (s, lives) = 0 ∨ s.session.livesRemaining = 1)
          .livesExhausted scene.time)
        (Turn.asked ledger scene (s, lives)).2
  /-- A grace period that has run out costs nothing when there is nothing to lose. -/
  | excused (g : Grace) (pending : s.detector.pending = some g)
      (dead : s.session.livesRemaining = 0) :
      Change ledger scene s lives .graceElapsed s.lapsed lives
  /-- The time is up. -/
  | expired (tick : Tick) (ticked : s.timer.tick.2 = some tick) (last : tick.expired = true) :
      Change ledger scene s lives .tick
        (({ s with timer := s.timer.tick.1 } : Sitting).ended .timeExpired scene.time) lives
  /-- The exam is handed in. -/
  | submitted (reason : Reason) (unlocked : reason = .user → s.timer.canSubmit = true) :
      Change ledger scene s lives (.submit reason) (s.ended reason scene.time) lives
  /-- The service is shut down. -/
  | shut : Change ledger scene s lives .shutdown { s.disarmed with suspended := true } lives

end Sitting

namespace Turn

variable {σ : Type} (ledger : LivesLedger σ) (scene : Scene) {s : Sitting × σ}

open Sitting (Change Coupled isActive_of_isRunning ended_isActive)

/-! ## Signals -/

theorem after_onSignal (signal : Signal) :
    (onSignal ledger scene signal).after s =
      (applyEffects ledger scene (told scene (.signal signal) s.1).2).after
        ({ s.1 with detector := (told scene (.signal signal) s.1).1 }, s.2) := by
  unfold onSignal
  by_cases h : signal = .fullscreenDenied
  · simp [h]
  · simp [h]

/-- A report of the browser reaches a running sitting. -/
theorem onSignal_change (signal : Signal) (hrun : s.1.isRunning = true) (hc : s.1.Coupled) :
    Change ledger scene s.1 s.2 (.signal signal) ((onSignal ledger scene signal).after s).1
      ((onSignal ledger scene signal).after s).2 := by
  have harmed : s.1.detector.armed = true := by rw [hc.armed, hrun]
  obtain ⟨d, es, htold, hreact⟩ := told_signal scene signal harmed
  rw [after_onSignal, htold]
  cases hreact with
  | quiet directives notBack notCharged notOpened =>
    rw [after_applyEffects_spoken]
    refine .quiet (.signal signal) s.1.answers s.1.timer rfl ?_ ?_ (by simp) (by simp)
    · rintro _ ⟨⟩
      exact notBack
    · rintro _ ⟨⟩
      exact notCharged
  | opened kind g before after departure safe alive blur opens =>
    -- only the order for a timer changes anything; what is said before and after it does not
    rw [after_applyEffects_append, after_applyEffects_spoken, after_applyEffects_cons,
      after_applyEffect_startGrace, after_applyEffects_spoken]
    exact .opened signal kind g departure safe alive opens
  | recovered back pending whole =>
    rw [after_applyEffects_cons, after_applyEffect_cancelGrace, after_applyEffects_spoken]
    exact .recovered signal back pending whole
  | charged kind message use alive =>
    -- the clipboard is no part of the environment
    have henv := Environment.observe_of_clipboard? s.1.detector.env use
    rw [henv, after_applyEffects_cons, after_applyEffect_directive, after_applyEffects_cons,
      after_applyEffect_loseLife, after_applyEffects_spoken,
      after_applyViolation _ _ _ _ ⟨isActive_of_isRunning hrun, alive⟩]
    exact .clipped signal kind use alive

/-! ## The end of a grace period -/

/-- The order to submit that follows the loss of the last life finds the session over, unless the
ledger left it a life. -/
theorem endedIf_endedIf {s : Sitting} (h : s.session.isActive = true) (p : Prop) [Decidable p]
    (time : Stamp) :
    (s.endedIf p .livesExhausted time).endedIf
        ((s.endedIf p .livesExhausted time).session.isActive = true) .livesExhausted time =
      s.ended .livesExhausted time := by
  by_cases hp : p
  · have hover : ¬(s.ended .livesExhausted time).session.isActive = true := by
      rw [ended_isActive _ _ h]
      exact Bool.false_ne_true
    simp only [Sitting.endedIf, if_pos hp, if_neg hover]
  · simp only [Sitting.endedIf, if_neg hp, if_pos h]

/-- What the detector sends when a grace period ends is carried out. -/
theorem after_penalty (kind : ViolationType) (hactive : s.1.session.isActive = true)
    (halive : 0 < s.1.session.livesRemaining) :
    (applyEffects ledger scene
        (Detector.penalty kind ⟨scene.now, s.1.session.livesRemaining⟩)).after s =
      ((s.1.charged (s.1.violation scene kind (livesLeft ledger scene s))).endedIf
          (livesLeft ledger scene s = 0 ∨ s.1.session.livesRemaining = 1) .livesExhausted
          scene.time,
        (asked ledger scene s).2) := by
  have hloss := after_applyViolation s ledger scene kind ⟨hactive, halive⟩
  unfold Detector.penalty
  rw [if_neg (Nat.pos_iff_ne_zero.mp halive)]
  by_cases hmore : 1 < s.1.session.livesRemaining
  · have hone : ¬s.1.session.livesRemaining = 1 := by omega
    rw [if_pos hmore, after_applyEffects_cons, after_applyEffect_loseLife, hloss,
      after_applyEffects_cons, after_applyEffect_directive, applyEffects_nil, after_pure]
    simp only [Sitting.endedIf, hone, or_false]
  · have hone : s.1.session.livesRemaining = 1 := by omega
    rw [if_neg hmore, after_applyEffects_cons, after_applyEffect_loseLife, hloss,
      after_applyEffects_cons, after_applyEffect_autoSubmit, applyEffects_nil, after_pure]
    -- the loss may have ended the session already, and then the order to submit finds it over
    have htwice := endedIf_endedIf
      (s := s.1.charged (s.1.violation scene kind (livesLeft ledger scene s))) hactive
      (livesLeft ledger scene s = 0) scene.time
    have hended : (s.1.charged (s.1.violation scene kind (livesLeft ledger scene s))).endedIf
        (livesLeft ledger scene s = 0 ∨ s.1.session.livesRemaining = 1) .livesExhausted scene.time =
        (s.1.charged (s.1.violation scene kind (livesLeft ledger scene s))).ended .livesExhausted
          scene.time := if_pos (Or.inr hone)
    exact Prod.ext (htwice.trans hended.symm) rfl

/-- Without a pending grace period no timer fires. -/
theorem onGraceElapsed_safe (hc : s.1.Coupled) (hp : s.1.detector.pending = none) :
    (onGraceElapsed ledger scene).run s = (((), s), []) := by
  have hgrace : s.1.grace = none := by rw [hc.timed, hp]; rfl
  simp [onGraceElapsed, run_bind, hgrace]

/-- The timer of the pending grace period fires: what the detector answers is carried out on the
sitting that it has lapsed in. -/
theorem onGraceElapsed_fires {g : Grace} (hrun : s.1.isRunning = true) (hc : s.1.Coupled)
    (hp : s.1.detector.pending = some g) :
    (onGraceElapsed ledger scene).run s =
      ((applyEffects ledger scene (.directive .clearWarning ::
        Detector.penalty g.violation ⟨scene.now, s.1.session.livesRemaining⟩) >>=
          fun _ => pure () : Turn σ Unit)).run (s.1.lapsed, s.2) := by
  have harmed : s.1.detector.armed = true := by rw [hc.armed, hrun]
  have hgrace : s.1.grace = some g.timer := by rw [hc.timed, hp]; rfl
  have htold : s.1.detector.step (.graceElapsed g.generation)
        ⟨scene.now, s.1.session.livesRemaining⟩ =
      ({ s.1.detector with pending := none }, .directive .clearWarning ::
        Detector.penalty g.violation ⟨scene.now, s.1.session.livesRemaining⟩) := by
    rw [← Detector.onGraceElapsed_pending hp, Detector.step, if_pos harmed]
  simp [onGraceElapsed, run_bind, hgrace, Grace.timer, feed, htold, Sitting.lapsed]

/-- The timer of a grace period reaches a running sitting. -/
theorem onGraceElapsed_change (hrun : s.1.isRunning = true) (hc : s.1.Coupled) :
    Change ledger scene s.1 s.2 .graceElapsed ((onGraceElapsed ledger scene).after s).1
      ((onGraceElapsed ledger scene).after s).2 := by
  cases hp : s.1.detector.pending with
  | none =>
    have hafter : (onGraceElapsed ledger scene).after s = s := by
      rw [after, onGraceElapsed_safe ledger scene hc hp]
    rw [hafter]
    exact .quiet .graceElapsed s.1.answers s.1.timer rfl (by simp) (by simp) (fun _ => hp) (by simp)
  | some g =>
    -- the warning is taken back first, which changes nothing of the sitting
    have hafter : (onGraceElapsed ledger scene).after s =
        (applyEffects ledger scene
          (Detector.penalty g.violation ⟨scene.now, s.1.session.livesRemaining⟩)).after
          (s.1.lapsed, s.2) := by
      rw [after, onGraceElapsed_fires ledger scene hrun hc hp]
      exact after_applyEffects_cons (s.1.lapsed, s.2) ledger scene (.directive .clearWarning) _
    rcases Nat.eq_zero_or_pos s.1.session.livesRemaining with hdead | halive
    · rw [hafter, Detector.penalty, if_pos hdead]
      exact .excused g hp hdead
    · rw [hafter.trans (after_penalty ledger scene (s := (s.1.lapsed, s.2)) g.violation
        (isActive_of_isRunning hrun) halive)]
      exact .penalized g hp halive

/-! ## The other stimuli -/

/-- A stimulus that changes nothing but the answers. -/
theorem answers_change {x : Stimulus} {t : Sitting × σ}
    (hanswers : ∃ answers, t = ({ s.1 with answers := answers }, s.2))
    (hsignal : ∀ signal, x ≠ .signal signal) (hgrace : x ≠ .graceElapsed) (htick : x ≠ .tick) :
    Change ledger scene s.1 s.2 x t.1 t.2 := by
  obtain ⟨answers, rfl⟩ := hanswers
  have hseen : s.1.seen x = s.1.detector := by
    unfold Sitting.seen Environment.sees
    split
    · rename_i signal
      exact absurd rfl (hsignal signal)
    · rfl
  have hquiet : Change ledger scene s.1 s.2 x _ s.2 :=
    .quiet x answers s.1.timer rfl (fun signal h => absurd h (hsignal signal))
      (fun signal h => absurd h (hsignal signal)) (fun h => absurd h hgrace) (Or.inr ⟨htick, rfl⟩)
  rwa [hseen] at hquiet

theorem after_updateAnswer (index : Nat) (code : String) :
    ∃ answers, (updateAnswer index code : Turn σ (Except Fault Answer)).after s =
      ({ s.1 with answers := answers }, s.2) := by
  unfold updateAnswer
  rw [after_bind, value_sitting, after_sitting]
  split
  · split
    · exact ⟨s.1.answers, rfl⟩
    · exact ⟨_, rfl⟩
  · exact ⟨s.1.answers, rfl⟩

theorem after_recordRun (index : Nat) (result : RunResult) :
    ∃ answers, (recordRun scene index result : Turn σ (Except Fault Answer)).after s =
      ({ s.1 with answers := answers }, s.2) := by
  unfold recordRun
  rw [after_bind, value_sitting, after_sitting]
  split
  · split
    · split
      · exact ⟨s.1.answers, rfl⟩
      · split
        · exact ⟨_, rfl⟩
        · exact ⟨_, rfl⟩
    · exact ⟨s.1.answers, rfl⟩
  · exact ⟨s.1.answers, rfl⟩

theorem submit_change (reason : Reason) (hrun : s.1.isRunning = true) :
    Change ledger scene s.1 s.2 (.submit reason)
      ((submit scene reason : Turn σ (Except Fault Snapshot)).after s).1
      ((submit scene reason : Turn σ (Except Fault Snapshot)).after s).2 := by
  have hactive := isActive_of_isRunning hrun
  by_cases hlocked : reason = .user ∧ s.1.timer.canSubmit = false
  · have hafter : (submit scene reason : Turn σ (Except Fault Snapshot)).after s = s := by
      simp [submit, hactive, hlocked]
    rw [hafter]
    exact answers_change ledger scene ⟨s.1.answers, rfl⟩ (by simp) (by simp) (by simp)
  · have hafter : (submit scene reason : Turn σ (Except Fault Snapshot)).after s =
        (s.1.ended reason scene.time, s.2) := by
      simp only [submit, after_bind, value_sitting, after_sitting, hactive, ↓reduceIte, hlocked,
        after_finish, Sitting.endedIf, after_pure]
    rw [hafter]
    refine .submitted reason (fun huser => ?_)
    rw [not_and, Bool.not_eq_false] at hlocked
    exact hlocked huser

/-- A clock that goes ticks, and goes on unless that was the last tick. -/
theorem tick_running {c : Countdown} (h : c.isRunning = true) :
    ∃ tick, c.tick.2 = some tick ∧ (tick.expired = true ∨ c.tick.1.isRunning = true) := by
  have hphase : c.phase = .running := by simpa [Countdown.isRunning] using h
  unfold Countdown.tick
  rw [if_pos hphase]
  refine ⟨_, rfl, ?_⟩
  cases hlast : c.total - min (c.elapsed + 1) c.total == 0 with
  | true => exact Or.inl rfl
  | false => exact Or.inr (by simp [Countdown.isRunning, hlast])

/-- A tick moves the clock, and the last one ends the session. -/
theorem after_onTick {tick : Tick} (htick : s.1.timer.tick.2 = some tick) :
    (onTick scene : Turn σ Unit).after s =
      (({ s.1 with timer := s.1.timer.tick.1 } : Sitting).endedIf
        (tick.expired = true ∧ s.1.session.isActive = true) .timeExpired scene.time, s.2) := by
  cases hlast : tick.expired with
  | true =>
    simp only [onTick, after_bind, value_sitting, after_sitting, htick, after_change,
      after_publish, hlast, ↓reduceIte, after_note, after_finish, after_pure, true_and]
  | false =>
    simp only [onTick, after_bind, value_sitting, after_sitting, htick, after_change,
      after_publish, hlast, Bool.false_eq_true, ↓reduceIte, after_pure, false_and, Sitting.endedIf]

theorem onTick_change (hrun : s.1.isRunning = true) (hc : s.1.Coupled) :
    Change ledger scene s.1 s.2 .tick ((onTick scene : Turn σ Unit).after s).1
      ((onTick scene : Turn σ Unit).after s).2 := by
  have hclock : s.1.timer.isRunning = true := by rw [hc.ticking, hrun]
  obtain ⟨tick, htick, hnext⟩ := tick_running hclock
  have hactive := isActive_of_isRunning hrun
  rw [after_onTick scene htick]
  by_cases hlast : tick.expired = true
  · rw [Sitting.endedIf, if_pos ⟨hlast, hactive⟩]
    exact .expired tick htick hlast
  · have hrunning : s.1.timer.tick.1.isRunning = s.1.timer.isRunning := by
      rw [hclock]
      exact hnext.resolve_left hlast
    rw [Sitting.endedIf, if_neg fun h => hlast h.1]
    exact .quiet .tick s.1.answers s.1.timer.tick.1 hrunning (by simp) (by simp) (by simp) (by simp)

/-- **A shutdown stops the sitting and touches nothing else.** -/
theorem shutdown_after :
    (handle ledger scene .shutdown).after s = ({ s.1.disarmed with suspended := true }, s.2) := by
  simp [handle, onShutdown]

/-- **Every stimulus changes a running sitting in one of the listed ways.** -/
theorem handle_change (x : Stimulus) (hrun : s.1.isRunning = true) (hc : s.1.Coupled) :
    Change ledger scene s.1 s.2 x ((handle ledger scene x).after s).1
      ((handle ledger scene x).after s).2 := by
  cases x with
  | signal signal => exact onSignal_change ledger scene signal hrun hc
  | update index code =>
    exact answers_change ledger scene (after_updateAnswer index code) (by simp) (by simp) (by simp)
  | recordRun index result =>
    exact answers_change ledger scene (after_recordRun scene index result) (by simp) (by simp)
      (by simp)
  | submit reason => exact submit_change ledger scene reason hrun
  | look => exact answers_change ledger scene ⟨s.1.answers, rfl⟩ (by simp) (by simp) (by simp)
  | tick => exact onTick_change ledger scene hrun hc
  | graceElapsed => exact onGraceElapsed_change ledger scene hrun hc
  | shutdown =>
    rw [shutdown_after]
    exact .shut

end Turn

/-! ## What every change keeps -/

namespace Sitting

variable {σ : Type} {ledger : LivesLedger σ} {scene : Scene} {s t : Sitting} {lives lives' : σ}
  {x : Stimulus}

/-- A session that goes on after a change has a life left, if it had one before. -/
theorem Change.alive (h : Change ledger scene s lives x t lives') (hrun : s.isRunning = true)
    (halive : 0 < s.session.livesRemaining) (ht : t.session.isActive = true) :
    0 < t.session.livesRemaining := by
  have hactive := isActive_of_isRunning hrun
  cases h with
  | quiet => exact halive
  | opened => exact halive
  | recovered => exact halive
  | clipped signal kind =>
    -- had the loss left no life, it would have ended the session
    obtain ⟨hleft, hsame⟩ := endedIf_active (by exact hactive) ht
    rw [hsame]
    exact Nat.pos_of_ne_zero hleft
  | penalized g =>
    obtain ⟨hleft, hsame⟩ := endedIf_active (by exact hactive) ht
    rw [hsame]
    exact Nat.pos_of_ne_zero (fun hzero => hleft (Or.inl hzero))
  | excused => exact halive
  | expired tick =>
    rw [ended_isActive _ _ (by exact hactive)] at ht
    cases ht
  | submitted reason =>
    rw [ended_isActive _ _ hactive] at ht
    cases ht
  | shut => exact halive

/-- The detector sees every report, and goes by the same length of a grace period all the time. -/
theorem Change.sees (h : Change ledger scene s lives x t lives') :
    t.detector.env = s.detector.env.sees x ∧ t.detector.gracePeriod = s.detector.gracePeriod := by
  have hended : ∀ (u : Sitting) (reason : Reason) (time : Stamp),
      (u.ended reason time).detector.env = u.detector.env ∧
        (u.ended reason time).detector.gracePeriod = u.detector.gracePeriod :=
    fun u _ _ => ⟨u.detector.disarm_env, u.detector.disarm_gracePeriod⟩
  cases h with
  | quiet => exact ⟨rfl, rfl⟩
  | opened => exact ⟨rfl, rfl⟩
  | recovered => exact ⟨rfl, rfl⟩
  | clipped signal kind use =>
    -- the clipboard is no part of the environment
    have hseen : s.detector.env.sees (.signal signal) = s.detector.env :=
      Environment.observe_of_clipboard? s.detector.env use
    rw [hseen]
    unfold endedIf
    split
    · exact hended _ _ _
    · exact ⟨rfl, rfl⟩
  | penalized g =>
    unfold endedIf
    split
    · exact hended _ _ _
    · exact ⟨rfl, rfl⟩
  | excused => exact ⟨rfl, rfl⟩
  | expired tick => exact hended _ _ _
  | submitted reason => exact hended s _ _
  | shut => exact ⟨s.detector.disarm_env, s.detector.disarm_gracePeriod⟩

end Sitting

/-! ## The invariant -/

namespace Sitting

variable {σ : Type}

theorem stop_isRunning (c : Countdown) : c.stop.isRunning = false := by
  unfold Countdown.stop
  split <;> rename_i h <;> simp [Countdown.isRunning, h]

/-- A sitting that is torn down is at rest. -/
theorem coupled_of_disarmed {s t : Sitting} (hc : s.Coupled) (htimer : t.timer.isRunning = false)
    (hdetector : t.detector = s.detector.disarm.1) (hgrace : t.grace = none)
    (hrun : t.isRunning = false) : t.Coupled := by
  have hdisarmed : t.detector.armed = false ∧ t.detector.pending = none := by
    rw [hdetector]
    cases harmed : s.detector.armed with
    | true => rw [Detector.disarm_armed harmed]; exact ⟨rfl, rfl⟩
    | false =>
      rw [Detector.disarm_disarmed harmed]
      exact ⟨harmed, hc.safe (by rw [← hc.armed, harmed])⟩
  exact ⟨by rw [hdisarmed.1, hrun], by rw [htimer, hrun], by rw [hgrace, hdisarmed.2]; rfl,
    fun _ => hdisarmed.2⟩

theorem isRunning_ended {s : Sitting} (reason : Reason) (time : Stamp)
    (h : s.session.isActive = true) : (s.ended reason time).isRunning = false := by
  rw [isRunning, ended_isActive _ _ h, Bool.false_and]

/-- Whatever the clock shows when the session ends, the parts agree afterwards. -/
theorem coupled_ended {s : Sitting} (timer : Countdown) (reason : Reason) (time : Stamp)
    (hc : s.Coupled) (h : s.session.isActive = true) :
    (({ s with timer := timer } : Sitting).ended reason time).Coupled :=
  coupled_of_disarmed hc (stop_isRunning timer) rfl rfl (isRunning_ended reason time h)

theorem coupled_endedIf {s : Sitting} (p : Prop) [Decidable p] (reason : Reason) (time : Stamp)
    (hc : s.Coupled) (h : s.session.isActive = true) : (s.endedIf p reason time).Coupled := by
  unfold endedIf
  split
  · exact coupled_ended s.timer reason time hc h
  · exact hc

theorem coupled_lapsed {s : Sitting} (hc : s.Coupled) : s.lapsed.Coupled :=
  ⟨hc.armed, hc.ticking, rfl, fun _ => rfl⟩

theorem coupled_charged {s : Sitting} (v : Violation) (hc : s.Coupled) : (s.charged v).Coupled :=
  ⟨hc.armed, hc.ticking, hc.timed, hc.safe⟩

/-- **The parts agree after every change.** -/
theorem Change.coupled {ledger : LivesLedger σ} {scene : Scene} {s t : Sitting} {lives lives' : σ}
    {x : Stimulus} (h : Change ledger scene s lives x t lives') (hrun : s.isRunning = true)
    (hc : s.Coupled) : t.Coupled := by
  have hactive := isActive_of_isRunning hrun
  cases h with
  | quiet _ answers timer ticking => exact ⟨hc.armed, ticking.trans hc.ticking, hc.timed, hc.safe⟩
  | opened signal kind g =>
    refine ⟨hc.armed, hc.ticking, rfl, fun hover => ?_⟩
    have hstopped : s.isRunning = false := hover
    rw [hrun] at hstopped
    cases hstopped
  | recovered signal => exact ⟨hc.armed, hc.ticking, rfl, fun _ => rfl⟩
  | clipped signal kind => exact coupled_endedIf _ _ _ (coupled_charged _ hc) hactive
  | penalized g =>
    exact coupled_endedIf _ _ _ (coupled_charged _ (coupled_lapsed hc)) hactive
  | excused g => exact coupled_lapsed hc
  | expired tick => exact coupled_ended _ _ _ hc hactive
  | submitted reason => exact coupled_ended s.timer _ _ hc hactive
  | shut => exact coupled_of_disarmed hc (stop_isRunning _) rfl rfl (by simp [isRunning])

/-- A sitting that is opened with an active session starts coupled, and safe. -/
theorem coupled_opened {session : Session} (answers : List Answer) (pace : Pace) (now : Instant)
    (h : session.isActive = true) : (opened session answers pace now).Coupled := by
  have hrun : (opened session answers pace now).isRunning = true := by
    rw [opened_eq, isRunning, h]
    rfl
  refine ⟨hrun.symm, hrun.symm, rfl, fun _ => rfl⟩

end Sitting

namespace Turn

variable {σ : Type} (ledger : LivesLedger σ)

/-- What one moment changes, if the sitting runs. -/
theorem moment_change {s : Sitting × σ} (c : Cue) (hrun : s.1.isRunning = true)
    (hc : s.1.Coupled) :
    Sitting.Change ledger c.scene s.1 s.2 c.stimulus (moment ledger s c).after.1
      (moment ledger s c).after.2 := by
  have hafter : (moment ledger s c).after = (handle ledger c.scene c.stimulus).after s :=
    after_step_running ledger c.scene c.stimulus hrun
  rw [hafter]
  exact handle_change ledger c.scene c.stimulus hrun hc

/-- A moment of a sitting that does not run changes nothing. -/
theorem moment_over {s : Sitting × σ} (c : Cue) (hover : s.1.isRunning = false) :
    (moment ledger s c).after = s :=
  after_step_over ledger c.scene c.stimulus hover

/-- The parts agree at every point of a run. -/
theorem coupled_reached {s : Sitting × σ} (hc : s.1.Coupled) (cues : List Cue) :
    (reached ledger s cues).1.Coupled := by
  induction cues generalizing s with
  | nil => exact hc
  | cons c cues ih =>
    refine ih ?_
    cases hrun : s.1.isRunning with
    | true => exact (moment_change ledger c hrun hc).coupled hrun hc
    | false =>
      rw [moment_over ledger c hrun]
      exact hc

end Turn

end Invigilator
