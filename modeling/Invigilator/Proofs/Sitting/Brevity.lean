import Invigilator.Proofs.Service.Stream
import Invigilator.Proofs.Sitting.Parting

/-!
# A sitting is brief

At one stimulus a sitting tells a few events at most, and behind its end it tells none but those of
the moment in which it ended. So whoever has 256 places for what it has not read yet cannot miss the
end: too little comes behind it.

`Turn.Brief` bounds what a turn tells, and the bounds of turns add up. The detector answers an event
with three effects at most, and each of them tells six events at most.
-/

namespace Invigilator

open Sitting (isActive_of_isRunning)

/-! ## The detector -/

namespace Detector

variable (d : Detector) (ctx : DetectorContext)

theorem length_openGrace_le (kind : ViolationType) : (d.openGrace kind ctx).2.length ≤ 2 := by
  unfold openGrace
  split <;> simp

theorem length_tryRecover_le : d.tryRecover.2.length ≤ 2 := by
  unfold tryRecover
  split <;> simp

theorem length_clipboard_le (kind : ViolationType) (message : String) :
    (clipboard kind message ctx).length ≤ 3 := by
  unfold clipboard
  split <;> simp

theorem length_penalty_le (kind : ViolationType) : (penalty kind ctx).length ≤ 2 := by
  unfold penalty
  split
  · simp
  · split <;> simp

theorem length_onSignal_le (s : Signal) : (d.onSignal s ctx).2.length ≤ 3 := by
  have hopen : ∀ (d : Detector) kind, (d.openGrace kind ctx).2.length ≤ 3 :=
    fun d kind => Nat.le_succ_of_le (length_openGrace_le d ctx kind)
  have hrecover : ∀ d : Detector, d.tryRecover.2.length ≤ 3 :=
    fun d => Nat.le_succ_of_le (length_tryRecover_le d)
  cases s with
  | fullscreenChange active | visibilityChange hidden =>
    simp only [onSignal]
    split
    · exact hrecover _
    · split
      · exact hopen _ _
      · exact Nat.zero_le 3
  | fullscreenDenied =>
    simp only [onSignal]
    split
    · exact Nat.succ_le_succ (length_openGrace_le _ ctx _)
    · exact Nat.le_add_left 1 2
  | windowBlur =>
    simp only [onSignal]
    split
    · exact hopen _ _
    · exact Nat.zero_le 3
  | windowFocus => exact hrecover _
  | copy | paste => exact length_clipboard_le ctx _ _
  | contextMenu | popState | beforeUnload => simp [onSignal]
  | keyDown key ctrl command =>
    simp only [onSignal]
    split <;> simp

/-- The detector answers an event with three effects at most. -/
theorem length_step_le (event : DetectorEvent) : (d.step event ctx).2.length ≤ 3 := by
  cases event with
  | arm env =>
    simp only [step, arm]
    split
    · exact Nat.zero_le 3
    · split
      · exact Nat.succ_le_succ (length_openGrace_le _ ctx _)
      · exact Nat.le_add_left 1 2
  | disarm =>
    simp only [step, disarm]
    split
    · split <;> simp
    · exact Nat.zero_le 3
  | signal s =>
    simp only [step]
    split
    · exact length_onSignal_le d ctx s
    · exact Nat.zero_le 3
  | graceElapsed generation =>
    simp only [step, onGraceElapsed]
    split
    · split
      · exact Nat.zero_le 3
      · split
        · exact Nat.succ_le_succ (length_penalty_le ctx _)
        · exact Nat.zero_le 3
    · exact Nat.zero_le 3

end Detector

/-! ## Turns -/

namespace Turn

variable {σ α β : Type} {s : Sitting × σ}

/-- From a state, a turn tells so many events at most. -/
def Brief (n : Nat) (t : Turn σ α) (s : Sitting × σ) : Prop := (t.tells s).length ≤ n

theorem Brief.mono {m n : Nat} {t : Turn σ α} (h : Brief m t s) (hmn : m ≤ n) : Brief n t s :=
  Nat.le_trans h hmn

theorem brief_of_silent {t : Turn σ α} (h : t.tells s = []) (n : Nat) : Brief n t s := by
  rw [Brief, h]
  exact Nat.zero_le n

/-- What two turns tell adds up. -/
theorem brief_bind {m n : Nat} {t : Turn σ α} {f : α → Turn σ β} (ht : Brief m t s)
    (hf : Brief n (f (t.value s)) (t.after s)) : Brief (m + n) (t >>= f) s := by
  rw [Brief, tells_bind, List.length_append]
  exact Nat.add_le_add ht hf

/-- What comes behind a silent turn is all that is told. -/
theorem brief_behind {n : Nat} {t : Turn σ α} {f : α → Turn σ β} (ht : t.tells s = [])
    (hf : Brief n (f (t.value s)) (t.after s)) : Brief n (t >>= f) s := by
  rw [Brief, tells_bind, ht]
  exact hf

/-- What comes before a silent turn is all that is told. -/
theorem brief_before {n : Nat} {t : Turn σ α} {f : α → Turn σ β} (ht : Brief n t s)
    (hf : (f (t.value s)).tells (t.after s) = []) : Brief n (t >>= f) s := by
  rw [Brief, tells_bind, hf, List.append_nil]
  exact ht

theorem brief_publish (e : Event) : Brief 1 (publish e : Turn σ Unit) s := Nat.le_refl 1

theorem brief_publishDirective (d : Directive) :
    Brief 1 (publishDirective d : Turn σ Unit) s := Nat.le_refl 1

/-! ## The end -/

theorem brief_disarmEffect (e : Effect) :
    Brief 1 (disarmEffect e : Turn σ (List Directive)) s := by
  cases e with
  | directive d => exact brief_before (brief_publishDirective d) rfl
  | cancelGrace reason => exact brief_of_silent rfl 1
  | startGrace deadline generation => exact brief_of_silent rfl 1
  | loseLife kind => exact brief_of_silent rfl 1
  | autoSubmit => exact brief_of_silent rfl 1

theorem brief_disarmEffects (es : List Effect) :
    Brief es.length (disarmEffects es : Turn σ (List Directive)) s := by
  induction es generalizing s with
  | nil => exact brief_of_silent rfl 0
  | cons e es ih =>
    rw [List.length_cons, Nat.add_comm]
    exact brief_bind (brief_disarmEffect e) (brief_before ih rfl)

/-- What the detector answers an event. -/
theorem length_feed_le (scene : Scene) (event : DetectorEvent) :
    ((feed scene event : Turn σ (List Effect)).value s).length ≤ 3 := by
  rw [value_feed]
  exact Detector.length_step_le ..

theorem brief_teardown (scene : Scene) :
    Brief 3 (teardown scene : Turn σ (List Directive)) s :=
  brief_behind rfl (brief_behind rfl (brief_behind rfl
    ((brief_disarmEffects _).mono (length_feed_le scene .disarm))))

theorem brief_finish (scene : Scene) (reason : Reason) :
    Brief 5 (finish scene reason : Turn σ (List Directive)) s := by
  cases hactive : s.1.session.isActive with
  | false => exact brief_of_silent (tells_finish_over s scene reason hactive) 5
  | true =>
    have hteardown := brief_teardown (s := s) scene
    simp only [Brief, finish, tells_bind, tells_sitting, value_sitting, after_sitting, hactive,
      ↓reduceIte, tells_publishDirective, Session.voice, List.map_singleton, tells_change,
      tells_write, ↓tells_ite, tells_pure, ite_self, tells_note, tells_publish, List.nil_append,
      List.append_nil, List.length_append, List.length_singleton] at hteardown ⊢
    omega

/-! ## Effects -/

variable (ledger : LivesLedger σ) (scene : Scene)

theorem brief_applyViolation (kind : ViolationType) :
    Brief 6 (applyViolation ledger scene kind) s := by
  refine brief_behind rfl ?_
  split
  · -- the penalty is one event, and the end of the session five more
    refine brief_behind (tells_takeLife _ ledger scene _) (brief_behind rfl (brief_behind rfl
      (brief_behind rfl (brief_behind rfl (brief_bind (m := 1) (n := 5) (brief_publish _)
        (brief_behind rfl ?_))))))
    split
    · exact brief_finish scene .livesExhausted
    · exact brief_of_silent rfl 5
  · exact brief_of_silent rfl 6

theorem brief_applyEffect (e : Effect) : Brief 6 (applyEffect ledger scene e) s := by
  cases e with
  | startGrace deadline generation => exact brief_of_silent rfl 6
  | cancelGrace reason => exact brief_of_silent rfl 6
  | loseLife kind =>
    rw [Brief, tells_applyEffect_loseLife]
    exact brief_applyViolation ledger scene kind
  | autoSubmit => exact (brief_finish scene .livesExhausted).mono (by decide)
  | directive d => exact (brief_before (brief_publishDirective d) rfl).mono (by decide)

theorem brief_applyEffects (es : List Effect) :
    Brief (6 * es.length) (applyEffects ledger scene es) s := by
  induction es generalizing s with
  | nil => exact brief_of_silent rfl 0
  | cons e es ih =>
    rw [List.length_cons, Nat.mul_succ, Nat.add_comm]
    exact brief_bind (brief_applyEffect ledger scene e) (brief_before ih rfl)

/-- Whatever the detector answers an event, it is carried out in a few words. -/
theorem brief_answer (event : DetectorEvent) (t : Sitting × σ) :
    Brief 18 (applyEffects ledger scene
      ((feed scene event : Turn σ (List Effect)).value s)) t :=
  (brief_applyEffects ledger scene _).mono (Nat.mul_le_mul_left 6 (length_feed_le scene event))

/-! ## Stimuli -/

theorem brief_onSignal (signal : Signal) : Brief 18 (onSignal ledger scene signal) s := by
  refine brief_behind rfl ?_
  split
  · exact brief_behind rfl (brief_behind rfl (brief_before (brief_answer ledger scene _ _) rfl))
  · exact brief_behind rfl (brief_before (brief_answer ledger scene _ _) rfl)

theorem brief_onGraceElapsed : Brief 18 (onGraceElapsed ledger scene) s := by
  refine brief_behind rfl ?_
  split
  · exact brief_of_silent rfl 18
  · exact brief_behind rfl (brief_behind rfl (brief_before (brief_answer ledger scene _ _) rfl))

theorem brief_onTick : Brief 7 (onTick scene : Turn σ Unit) s := by
  refine brief_behind rfl ?_
  split
  split
  · exact brief_of_silent rfl 7
  · refine brief_behind rfl (brief_bind (m := 1) (n := 6) (brief_publish _) ?_)
    split
    · exact brief_behind rfl (brief_bind (m := 1) (n := 5) (brief_publish _)
        (brief_before (brief_finish scene .timeExpired) rfl))
    · exact brief_of_silent rfl 6

theorem brief_submit (reason : Reason) :
    Brief 5 (submit scene reason : Turn σ (Except Fault Snapshot)) s := by
  refine brief_behind rfl ?_
  split
  · split
    · exact brief_of_silent rfl 5
    · exact brief_before (brief_finish scene reason) rfl
  · exact brief_of_silent rfl 5

theorem brief_onShutdown : Brief 3 (onShutdown scene : Turn σ Unit) s :=
  brief_before (brief_teardown scene) rfl

theorem brief_handle (x : Stimulus) : Brief 18 (handle ledger scene x) s := by
  cases x with
  | signal signal => exact brief_before (brief_onSignal ledger scene signal) rfl
  | update index code => exact brief_of_silent (by simp [handle, tells_updateAnswer]) 18
  | recordRun index result => exact brief_of_silent (by simp [handle, tells_recordRun]) 18
  | submit reason => exact (brief_before (brief_submit scene reason) rfl).mono (by decide)
  | look => exact brief_of_silent rfl 18
  | tick => exact (brief_before (brief_onTick scene) rfl).mono (by decide)
  | graceElapsed => exact brief_before (brief_onGraceElapsed ledger scene) rfl
  | shutdown => exact (brief_before (brief_onShutdown scene) rfl).mono (by decide)

theorem brief_step (x : Stimulus) : Brief 18 (step ledger scene x) s := by
  refine brief_behind rfl ?_
  split
  · refine brief_before (brief_handle ledger scene x) ?_
    rw [tells_bind, tells_sitting, List.nil_append]
    split <;> rfl
  · exact brief_of_silent rfl 18

/-- **At one moment a sitting tells eighteen events at most.** -/
theorem length_published_moment_le (s : Sitting × σ) (c : Cue) :
    (published (moment ledger s c).actions).length ≤ 18 :=
  brief_step ledger c.scene c.stimulus

/-! ## Behind the end -/

/-- In every run fewer events come behind the end than a subscriber has places for. -/
theorem endsWithin_broadcast {s : Sitting × σ} (hc : s.1.Coupled)
    (hactive : s.1.session.isActive = true) (cues : List Cue) :
    Event.EndsWithin Relay.capacity (broadcast ledger s cues) := by
  induction cues using List.reverseRecOn with
  | nil =>
    rw [broadcast_nil]
    exact fun before e after hsplit => absurd hsplit (by simp)
  | append_singleton cues c ih =>
    rw [broadcast_concat]
    cases hrun : (reached ledger s cues).1.isRunning with
    | false =>
      -- nothing is told any more
      rw [actions_moment_over ledger c hrun]
      exact (List.append_nil _).symm ▸ ih
    | true =>
      have hparting := parting_history ledger hc hactive cues
      exact Event.endsWithin_append (hparting.underway (isActive_of_isRunning hrun)).2
        (Nat.le_trans (length_published_moment_le ledger _ c) (by decide))

/-- **The stream of a session is faithful, and ends with the outcome.** A subscriber may come at any
point of any run, and read at any pace. It hears what is published from then on in order, and misses
only what was pushed out when 256 events waited. Nothing follows an end that it hears; and if the
session ends and the subscriber reads on, then the end is the last that it hears, whatever it has
missed. -/
theorem stream_faithful (session : Session) (answers : List Answer) (pace : Pace) (now : Instant)
    (lives : σ) (cues : List Cue) (before during after : List Event) (eager : Bool)
    (course : List Relay.Occurrence) (hactive : session.isActive = true)
    (hrun : broadcast ledger (Sitting.opened session answers pace now, lives) cues =
      before ++ during ++ after)
    (htold : Relay.told course = during) (horderly : Relay.Orderly course) :
    Relay.Streamed session.id eager course := by
  have hcoupled : (Sitting.opened session answers pace now).Coupled :=
    Sitting.coupled_opened answers pace now hactive
  have hends := endsWithin_broadcast ledger
    (s := (Sitting.opened session answers pace now, lives)) hcoupled hactive cues
  rw [hrun, ← htold] at hends
  exact Relay.streamed_of_endsWithin horderly hends.of_append

/-- The clock runs for five minutes, until the time is over. -/
def fiveMinutes : List Event :=
  broadcast (.lasting Shelf.store 3)
    (Sitting.opened (.specimen 3) [] ⟨300, 30, 10, 10000, 1000⟩ 0, .empty)
    (List.replicate 300 (.at 0 .tick))

/-- A subscriber that reads nothing before the sitting is gone, and then everything. -/
def lateReader : List Relay.Occurrence :=
  fiveMinutes.map .published ++ .gone :: List.replicate Relay.capacity .polled

/-- There were 303 events, so some were missed, and yet it hears the end. -/
theorem stream_faithful_lateReader :
    (Session.specimen 3).isActive = true ∧ fiveMinutes = [] ++ fiveMinutes ++ [] ∧
      Relay.told lateReader = fiveMinutes ∧ Relay.Orderly lateReader ∧
      fiveMinutes.length = 303 ∧ Relay.Streamed "s-1" false lateReader ∧
      (Relay.listening "s-1" false lateReader).HeardEnd := by
  have hquiet : Relay.told (.gone :: List.replicate Relay.capacity .polled) = [] := by
    decide +kernel
  have htold : Relay.told lateReader = fiveMinutes := by
    rw [lateReader, Relay.told_append, Relay.told_map_published, hquiet, List.append_nil]
  have horderly : Relay.Orderly lateReader := Relay.orderly_append (by simp) hquiet
  have hstream : Relay.Streamed "s-1" false lateReader :=
    stream_faithful (.lasting Shelf.store 3) (.specimen 3) [] ⟨300, 30, 10, 10000, 1000⟩ 0 .empty
      (List.replicate 300 (.at 0 .tick)) [] fiveMinutes [] false lateReader rfl
      (List.append_nil _).symm htold horderly
  have hend : (Relay.told (fiveMinutes.map .published)).any Event.isLast = true := by
    rw [Relay.told_map_published]
    decide +kernel
  exact ⟨rfl, (List.append_nil _).symm, htold, horderly, by decide +kernel, hstream,
    hstream.finishes _ _ rfl hend (by decide +kernel)⟩

end Turn

end Invigilator
