import Invigilator.Proofs.Sitting.Change

/-!
# The parts in step, and at rest

The timer of the grace period stands in a slot of the sitting, and the detector has a period of
its own; the clock goes by itself, and the session knows nothing of either. `InStep` is what can be
relied on at every point of a run: the slot and the period are the same, the three parts go on and
stop together, and the timer that goes off is the one that the detector waits for.

A sitting stops in two ways, by its end and by a shutdown, and either may come in the middle of
anything. Both leave it as `Rests` says: nothing is pending and nothing goes, so no stimulus
finds anything that could answer it. That is no second invariant. A coupled sitting that does not
run has no choice (`Coupled.rests`), so it is enough that both ways keep the parts coupled.
-/

namespace Invigilator

open Sitting (Coupled)

namespace Turn

variable {σ : Type} (ledger : LivesLedger σ)

/-! ## At rest -/

/-- Nothing of a sitting is left that could go off. -/
structure Rests (s : Sitting × σ) : Prop where
  slot : s.1.grace = none
  unarmed : s.1.detector.armed = false
  safe : s.1.detector.pending = none
  stopped : s.1.timer.isRunning = false
  /-- A tick that comes all the same moves nothing, and nobody hears of it. -/
  tickless : ∀ scene, (onTick scene : Turn σ Unit).run s = (((), s), [])
  /-- Whatever comes, the sitting stays as it is. -/
  lasting : ∀ cues, reached ledger s cues = s
  /-- Whatever comes, it does nothing. -/
  silent : ∀ cues, (history ledger s cues).flatMap Moment.actions = []

/-- A clock that does not go does not tick. -/
theorem tick_of_stopped {c : Countdown} (h : c.isRunning = false) : c.tick = (c, none) := by
  have hphase : ¬c.phase = .running := by simpa [Countdown.isRunning] using h
  unfold Countdown.tick
  rw [if_neg hphase]

theorem onTick_of_stopped {s : Sitting × σ} (scene : Scene) (h : s.1.timer.isRunning = false) :
    (onTick scene : Turn σ Unit).run s = (((), s), []) := by
  simp [onTick, run_bind, tick_of_stopped h]

/-- A moment of a sitting that does not run is without actions. -/
theorem actions_moment_over {s : Sitting × σ} (c : Cue) (hover : s.1.isRunning = false) :
    (moment ledger s c).actions = [] := by
  simp [moment, step, hover]

/-- A sitting that does not run is not moved by anything. -/
theorem reached_over {s : Sitting × σ} (cues : List Cue) (hover : s.1.isRunning = false) :
    reached ledger s cues = s := by
  induction cues with
  | nil => rfl
  | cons c cues ih => rw [reached, moment_over ledger c hover, ih]

theorem actions_history_over {s : Sitting × σ} (cues : List Cue) (hover : s.1.isRunning = false) :
    (history ledger s cues).flatMap Moment.actions = [] := by
  induction cues with
  | nil => rfl
  | cons c cues ih =>
    rw [history, List.flatMap_cons, actions_moment_over ledger c hover,
      moment_over ledger c hover, ih, List.append_nil]

end Turn

/-- **A coupled sitting that does not run is at rest.** -/
theorem Sitting.Coupled.rests {σ : Type} (ledger : LivesLedger σ) {s : Sitting × σ}
    (hc : s.1.Coupled) (hover : s.1.isRunning = false) : Turn.Rests ledger s := by
  have hpending := hc.safe hover
  have hstopped : s.1.timer.isRunning = false := by rw [hc.ticking, hover]
  constructor
  case slot =>
    rw [hc.timed, hpending]
    rfl
  case unarmed => rw [hc.armed, hover]
  case safe => exact hpending
  case stopped => exact hstopped
  case tickless =>
    intro scene
    exact Turn.onTick_of_stopped scene hstopped
  case lasting =>
    intro cues
    exact Turn.reached_over ledger cues hover
  case silent =>
    intro cues
    exact Turn.actions_history_over ledger cues hover

/-- The slot and the pending grace period are the same timer. -/
theorem Sitting.Coupled.slot_iff {s : Sitting} (hc : s.Coupled) (deadline : Instant)
    (generation : Nat) : s.grace = some ⟨deadline, generation⟩ ↔
      ∃ kind, s.detector.pending = some ⟨kind, deadline, generation⟩ := by
  rw [hc.timed, Option.map_eq_some_iff]
  constructor
  · rintro ⟨g, hg, htimer⟩
    cases htimer
    exact ⟨g.violation, hg⟩
  · rintro ⟨kind, hg⟩
    exact ⟨_, hg, rfl⟩

namespace Turn

variable {σ : Type} (ledger : LivesLedger σ)

/-! ## The two ways to stop -/

/-- The end leaves any coupled sitting at rest, also one that was over before. -/
theorem rests_finish {s : Sitting × σ} (hc : s.1.Coupled) (scene : Scene) (reason : Reason) :
    Rests ledger ((finish scene reason : Turn σ (List Directive)).after s) := by
  rw [after_finish]
  by_cases hactive : s.1.session.isActive = true
  · rw [Sitting.endedIf, if_pos hactive]
    have hcoupled := Sitting.coupled_ended s.1.timer reason scene.time hc hactive
    exact hcoupled.rests ledger (Sitting.isRunning_ended reason scene.time hactive)
  · rw [Sitting.endedIf, if_neg hactive]
    have hover : s.1.isRunning = false := by simp [Sitting.isRunning, hactive]
    exact hc.rests ledger hover

/-- What is done when the clock and the detector are stopped is never a write. -/
theorem write_notMem_disarmEffects {s : Sitting × σ} (es : List Effect) (w : RecordWrite) :
    Action.write w ∉ (disarmEffects es : Turn σ (List Directive)).actions s := by
  induction es generalizing s with
  | nil => exact List.not_mem_nil
  | cons e es ih =>
    rw [disarmEffects, actions_bind, actions_bind, actions_pure, List.append_nil, List.mem_append]
    rintro (h | h)
    · cases e <;> simp [disarmEffect, countGrace] at h
    · exact ih h

theorem write_notMem_shutdown {s : Sitting × σ} (scene : Scene) (w : RecordWrite) :
    Action.write w ∉ (handle ledger scene .shutdown).actions s := by
  have hstop := write_notMem_disarmEffects (s := ({ s.1 with
    timer := s.1.timer.stop, detector := s.1.detector.disarm.1, grace := none }, s.2))
    s.1.detector.disarm.2 w
  simpa [handle, onShutdown, teardown, told, Detector.step, feed] using hstop

theorem rests_shutdown {s : Sitting × σ} (hc : s.1.Coupled) (scene : Scene) :
    Rests ledger ((handle ledger scene .shutdown).after s) := by
  rw [shutdown_after]
  have hover : ({ s.1.disarmed with suspended := true } : Sitting).isRunning = false := by
    simp [Sitting.isRunning]
  have hcoupled := Sitting.coupled_of_disarmed hc (Sitting.stop_isRunning s.1.timer)
    (t := { s.1.disarmed with suspended := true }) rfl rfl hover
  exact hcoupled.rests ledger hover

/-! ## In step -/

theorem pending_disarm {d : Detector} (h : d.pending = none) : d.disarm.1.pending = none := by
  unfold Detector.disarm
  split
  · rfl
  · exact h

/-- What a timer that goes off does, if it is the timer of the pending grace period. -/
structure Fires (s t : Sitting) (g : Grace) : Prop where
  /-- The detector takes it: the period is over. -/
  resolved : t.detector.pending = none
  /-- The slot is free again. -/
  cleared : t.grace = none
  /-- The period is paid for, if there is a life to pay with. -/
  paid : 0 < s.session.livesRemaining →
    ∃ v, v.violationType = g.violation ∧ t.violations = s.violations ++ [v]

/-- **The timer of a pending grace period is the one that the detector waits for.** -/
theorem graceElapsed_fires {s : Sitting × σ} (hc : s.1.Coupled) (scene : Scene) {g : Grace}
    (hg : s.1.detector.pending = some g) :
    Fires s.1 ((handle ledger scene .graceElapsed).after s).1 g := by
  have hrun : s.1.isRunning = true := by
    refine Bool.of_not_eq_false fun hover => ?_
    rw [hc.safe hover] at hg
    cases hg
  have hchange := handle_change ledger scene .graceElapsed hrun hc
  generalize ((handle ledger scene .graceElapsed).after s).1 = t at hchange ⊢
  generalize ((handle ledger scene .graceElapsed).after s).2 = lives at hchange
  cases hchange with
  | quiet _ answers timer ticking notBack notCharged notLapsed =>
    -- a detector that waits for a timer does not stay quiet when it goes off
    rw [notLapsed rfl] at hg
    cases hg
  | penalized g' pending alive =>
    have hsame : g' = g := Option.some.inj (pending.symm.trans hg)
    subst hsame
    unfold Sitting.endedIf
    split
    · exact ⟨pending_disarm rfl, rfl, fun _ => ⟨_, rfl, rfl⟩⟩
    · exact ⟨rfl, rfl, fun _ => ⟨_, rfl, rfl⟩⟩
  | excused g' pending dead =>
    exact ⟨rfl, rfl, fun halive => absurd dead (Nat.pos_iff_ne_zero.mp halive)⟩

/-- What a shutdown does. -/
structure ShutDown (s t : Sitting × σ) (as : List Action) : Prop where
  rests : Rests ledger t
  session : t.1.session = s.1.session
  answers : t.1.answers = s.1.answers
  violations : t.1.violations = s.1.violations
  /-- The store of the lives is not touched. -/
  lives : t.2 = s.2
  unwritten : ∀ w, Action.write w ∉ as

theorem handle_shutdown {s : Sitting × σ} (hc : s.1.Coupled) (scene : Scene) :
    ShutDown ledger s ((handle ledger scene .shutdown).after s)
      ((handle ledger scene .shutdown).actions s) := by
  have hafter := shutdown_after ledger (s := s) scene
  constructor
  case rests => exact rests_shutdown ledger hc scene
  case session => rw [hafter]; rfl
  case answers => rw [hafter]; rfl
  case violations => rw [hafter]; rfl
  case lives => rw [hafter]
  case unwritten => exact write_notMem_shutdown ledger scene

/-- The clock, the detector, the slot of the timer and the session are in step. -/
structure InStep (s : Sitting × σ) : Prop where
  /-- The slot holds a timer for the pending grace period, and no other. -/
  slot : ∀ deadline generation, s.1.grace = some ⟨deadline, generation⟩ ↔
    ∃ kind, s.1.detector.pending = some ⟨kind, deadline, generation⟩
  /-- As long as events are taken, the detector watches while the session is in progress. -/
  armed : s.1.suspended = false →
    (s.1.detector.armed = true ↔ s.1.session.isActive = true)
  /-- So does the clock. -/
  ticking : s.1.suspended = false →
    (s.1.timer.isRunning = true ↔ s.1.session.isActive = true)
  fires : ∀ scene g, s.1.detector.pending = some g →
    Fires s.1 ((handle ledger scene .graceElapsed).after s).1 g
  /-- The end leaves nothing that could go off, whenever it comes. -/
  ended : ∀ scene reason, Rests ledger ((finish scene reason : Turn σ _).after s)
  /-- Once the session is over, it has left nothing. -/
  finished : s.1.session.isActive = false → Rests ledger s
  /-- Nor does a shutdown, and it leaves the records alone. -/
  shut : ∀ scene, ShutDown ledger s ((handle ledger scene .shutdown).after s)
    ((handle ledger scene .shutdown).actions s)
  /-- A sitting that was shut down has left nothing. -/
  suspended : s.1.suspended = true → Rests ledger s

theorem inStep_of_coupled {s : Sitting × σ} (hc : s.1.Coupled) : InStep ledger s := by
  have hrun : s.1.suspended = false → s.1.isRunning = s.1.session.isActive := by
    intro hopen
    rw [Sitting.isRunning, hopen, Bool.not_false, Bool.and_true]
  constructor
  case slot => exact hc.slot_iff
  case armed =>
    intro hopen
    rw [hc.armed, hrun hopen]
  case ticking =>
    intro hopen
    rw [hc.ticking, hrun hopen]
  case fires =>
    intro scene g hg
    exact graceElapsed_fires ledger hc scene hg
  case ended =>
    intro scene reason
    exact rests_finish ledger hc scene reason
  case finished =>
    intro hover
    exact hc.rests ledger (by rw [Sitting.isRunning, hover, Bool.false_and])
  case shut =>
    intro scene
    exact handle_shutdown ledger hc scene
  case suspended =>
    intro hshut
    exact hc.rests ledger (by rw [Sitting.isRunning, hshut, Bool.not_true, Bool.and_false])

/-- **The parts are in step at every point of a run.** Whatever comes in whatever order, with any
ledger: the slot holds the timer of the pending period, the session, the detector and the clock go
on and stop together, and neither an end nor a shutdown leaves anything behind. -/
theorem parts_in_step (session : Session) (answers : List Answer) (pace : Pace) (now : Instant)
    (lives : σ) (cues : List Cue) (hactive : session.isActive = true) :
    InStep ledger (reached ledger (.opened session answers pace now, lives) cues) := by
  have hopened : (Sitting.opened session answers pace now).Coupled :=
    Sitting.coupled_opened answers pace now hactive
  exact inStep_of_coupled ledger (coupled_reached ledger (s := (_, lives)) hopened cues)

/-- The candidate is away, and the service is shut down before the time is up. -/
theorem parts_in_step_away :
    (Session.specimen 3).isActive = true ∧
      (reached (.lasting Shelf.store 3) (Sitting.specimen 3, .empty)
        [.at 0 .tick, .at 500 (.signal (.visibilityChange true))]).1.grace = some ⟨10500, 1⟩ ∧
      InStep (.lasting Shelf.store 3) (reached (.lasting Shelf.store 3)
        (Sitting.specimen 3, .empty) [.at 0 .tick, .at 500 (.signal (.visibilityChange true))]) :=
  ⟨rfl, by decide +kernel,
    parts_in_step (.lasting Shelf.store 3) (.specimen 3) [] .specimen 0 .empty _ rfl⟩

end Turn

end Invigilator
