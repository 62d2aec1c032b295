import Invigilator.Proofs.Sitting.Stretch

/-!
# A session ends once

`Settles` says what any stretch of a run owes to finality. Out of an active session come the
closing actions of the state it leads to: none while the session goes on, and exactly
`Session.closing` when it has ended. Out of a session that is over comes nothing: it stays as it
is, with its answers and its penalties, and closes nothing.

The relation composes and holds of the three steps of a stretch, so it holds of every run. It is
proved of single steps, not of the lists of effects in which the detector happens to send them;
what stands behind the effect that ends a session has no part in the argument.
-/

namespace Invigilator

/-- The event that tells of the end. -/
def Action.isFarewell : Action → Bool
  | .publish e => e.isLast
  | .write _ => false
  | .note _ => false

/-- The write that completes the record of the session. -/
def Action.isCompletion : Action → Bool
  | .write (.updateSession _ patch) => patch.completedAt.isSome
  | .write (.createSession _) => false
  | .write (.createAnswer ..) => false
  | .write (.updateAnswer ..) => false
  | .write (.recordViolation _) => false
  | .write (.blockUser ..) => false
  | .publish _ => false
  | .note _ => false

/-- The write that blocks the user. -/
def Action.isBlock : Action → Bool
  | .write (.blockUser ..) => true
  | .write (.createSession _) => false
  | .write (.createAnswer ..) => false
  | .write (.updateSession ..) => false
  | .write (.updateAnswer ..) => false
  | .write (.recordViolation _) => false
  | .publish _ => false
  | .note _ => false

/-- What a session does only when it ends. -/
def Action.isClosing (a : Action) : Bool := a.isFarewell || a.isCompletion || a.isBlock

/-- The closing actions of a session, in order: none while it is active. -/
def Session.closing (s : Session) : List Action :=
  if s.isActive then []
  else
    [.write (.updateSession s.id s.patch)] ++
      (if s.status = .disqualified then [.write (.blockUser s.userId s.id)] else []) ++
      [.publish (.sessionFinished s.id s.status s.autoSubmitted (s.timeSpentSeconds.getD 0)
        (s.completedAt.getD s.startedAt))]

/-- The session is over when the moment has passed, and was not before. -/
def Moment.ends {σ : Type} (m : Moment σ) : Bool :=
  m.before.1.session.isActive && !m.after.1.session.isActive

/-- What a stretch of a run owes to finality. -/
structure Settles (s t : Sitting) (as : List Action) : Prop where
  /-- An active session closes when it ends, and not before. -/
  closes : s.session.isActive = true → as.filter Action.isClosing = t.session.closing
  /-- A session that is over stays as it is. -/
  lasts : s.session.isActive = false →
    t.session = s.session ∧ t.answers = s.answers ∧ t.violations = s.violations
  /-- A session that is over does not close again. -/
  silent : s.session.isActive = false → as.filter Action.isClosing = []

theorem Session.closing_active {s : Session} (h : s.isActive = true) : s.closing = [] := by
  rw [closing, if_pos h]

/-- A stretch that leaves the records of a sitting alone and closes nothing. -/
theorem Settles.of_unchanged {s t : Sitting} {as : List Action} (hsession : t.session = s.session)
    (hanswers : t.answers = s.answers) (hviolations : t.violations = s.violations)
    (has : as.filter Action.isClosing = []) : Settles s t as where
  closes h := by rw [has, hsession, Session.closing_active h]
  lasts _ := ⟨hsession, hanswers, hviolations⟩
  silent _ := has

/-- A stretch of an active session that goes on. -/
theorem Settles.of_active {s t : Sitting} {as : List Action} (hs : s.session.isActive = true)
    (ht : t.session.isActive = true) (has : as.filter Action.isClosing = []) : Settles s t as where
  closes _ := by rw [has, Session.closing_active ht]
  lasts h := by rw [hs] at h; cases h
  silent _ := has

/-- Two stretches make one. -/
theorem Settles.trans {s t u : Sitting} {as bs : List Action} (h₁ : Settles s t as)
    (h₂ : Settles t u bs) : Settles s u (as ++ bs) := by
  cases hs : s.session.isActive with
  | false =>
    -- over before the first stretch, so neither of them does anything
    obtain ⟨h, hanswers, hviolations⟩ := h₁.lasts hs
    have ht : t.session.isActive = false := by rw [h, hs]
    obtain ⟨h', hanswers', hviolations'⟩ := h₂.lasts ht
    refine Settles.of_unchanged (h'.trans h) (hanswers'.trans hanswers)
      (hviolations'.trans hviolations) ?_
    rw [List.filter_append, h₁.silent hs, h₂.silent ht, List.append_nil]
  | true =>
    -- the end is in the first stretch or left to the second, and never in both
    have hfirst := h₁.closes hs
    have hcloses : (as ++ bs).filter Action.isClosing = u.session.closing := by
      rw [List.filter_append, hfirst]
      cases ht : t.session.isActive with
      | true => rw [Session.closing_active ht, List.nil_append, h₂.closes ht]
      | false => rw [h₂.silent ht, List.append_nil, (h₂.lasts ht).1]
    constructor
    case closes => exact fun _ => hcloses
    case lasts =>
      intro h
      rw [hs] at h
      cases h
    case silent =>
      intro h
      rw [hs] at h
      cases h

/-- What is idle closes nothing. -/
theorem Action.isClosing_of_isIdle {a : Action} (h : a.isIdle = true) : a.isClosing = false := by
  cases a with
  | publish e =>
    have hlast : e.isLast = false := by simpa [isIdle] using h
    simp [isClosing, isFarewell, isCompletion, isBlock, hlast]
  | write w => cases h
  | note n => rfl

theorem filter_closing_idle {as : List Action} (h : ∀ a ∈ as, a.isIdle = true) :
    as.filter Action.isClosing = [] := by
  rw [List.filter_eq_nil_iff]
  intro a ha
  rw [Action.isClosing_of_isIdle (h a ha)]
  exact Bool.false_ne_true

/-- A session takes its leave with its closing actions. -/
theorem filter_closing_leave {s : Session} (reason : Reason) (spent : Nat) (time : Stamp)
    (h : s.isActive = true) :
    ((s.finish reason spent time).leave reason spent time).filter Action.isClosing =
      (s.finish reason spent time).closing := by
  rw [Session.finish_active h]
  cases reason <;> rfl

/-- **Every stretch pays what it owes to finality.** -/
theorem Stretch.settles {s t : Sitting} {as : List Action} (h : Stretch s t as) :
    Settles s t as := by
  induction h with
  | idle session answers violations still =>
    exact .of_unchanged session answers violations (filter_closing_idle still)
  | charge scene kind left active => exact .of_active active active rfl
  | revise active place revision => exact .of_active active active rfl
  | @close s reason spent time active =>
    constructor
    case closes => exact fun _ => filter_closing_leave reason spent time active
    case lasts =>
      intro h
      rw [active] at h
      cases h
    case silent =>
      intro h
      rw [active] at h
      cases h
  | andThen _ _ first second => exact first.trans second

namespace Turn

variable {σ α β : Type} {s : Sitting × σ}

/-- A turn pays what it owes to finality, from a state. -/
def Settling (t : Turn σ α) (s : Sitting × σ) : Prop := Settles s.1 (t.after s).1 (t.actions s)

variable (ledger : LivesLedger σ)

/-- Every stimulus that is handled pays what it owes, also one that comes when the session is
over. -/
theorem settling_handle (scene : Scene) (x : Stimulus) : (handle ledger scene x).Settling s :=
  (stretches_handle ledger scene x).settles

theorem settling_step (scene : Scene) (x : Stimulus) : (step ledger scene x).Settling s :=
  (stretches_step ledger scene x).settles

/-! ## Runs -/

/-- The records are created before anything can happen, and none of them is complete. -/
theorem filter_closing_begin :
    ((begin : Turn σ Unit).actions s).filter Action.isClosing = [] := by
  rw [actions_begin, List.filter_eq_nil_iff]
  intro a ha
  simp only [List.mem_append, List.mem_map, List.mem_cons, List.not_mem_nil, or_false] at ha
  rcases ha with (rfl | ⟨answer, -, rfl⟩) | rfl | rfl <;> exact Bool.false_ne_true

/-- **A whole run pays what it owes to finality.** -/
theorem settles_history (s : Sitting × σ) (cues : List Cue) :
    Settles s.1 (reached ledger s cues).1 ((history ledger s cues).flatMap Moment.actions) :=
  (stretch_history ledger s cues).settles

/-- The closing actions of a whole run, from an active session on. -/
theorem closing_deeds {s : Sitting × σ} (cues : List Cue) (h : s.1.session.isActive = true) :
    (deeds ledger s cues).filter Action.isClosing = (reached ledger s cues).1.session.closing := by
  rw [deeds, List.filter_append, filter_closing_begin, List.nil_append]
  exact (settles_history ledger s cues).closes h

/-- No session ends that is over. -/
theorem countP_ends_over {s : Sitting × σ} (cues : List Cue) (h : s.1.session.isActive = false) :
    (history ledger s cues).countP Moment.ends = 0 := by
  induction cues generalizing s with
  | nil => rfl
  | cons c cues ih =>
    have hsame : (moment ledger s c).after.1.session = s.1.session :=
      ((settling_step ledger c.scene c.stimulus).lasts h).1
    have hafter : (moment ledger s c).after.1.session.isActive = false := by rw [hsame, h]
    have hends : (moment ledger s c).ends = false := by
      rw [Moment.ends, moment_before, h, Bool.false_and]
    rw [history, List.countP_cons, ih hafter, hends]
    rfl

theorem countP_ends_le (s : Sitting × σ) (cues : List Cue) :
    (history ledger s cues).countP Moment.ends ≤ 1 := by
  induction cues generalizing s with
  | nil => exact Nat.zero_le 1
  | cons c cues ih =>
    rw [history, List.countP_cons]
    by_cases hends : (moment ledger s c).ends = true
    · have hafter : (moment ledger s c).after.1.session.isActive = false := by
        rw [Moment.ends, Bool.and_eq_true, Bool.not_eq_true'] at hends
        exact hends.2
      have hrest := countP_ends_over ledger cues hafter
      rw [if_pos hends]
      omega
    · rw [if_neg hends, Nat.add_zero]
      exact ih _

/-- What holds of a run whose session ends at most once, and for good. -/
structure EndsOnce (s : Sitting × σ) (cues : List Cue) : Prop where
  /-- At most one moment takes the session out of its progress. -/
  leaves : (history ledger s cues).countP Moment.ends ≤ 1
  /-- Once the session is over, its record, its answers and its penalties never change again. -/
  stays : ∀ first rest : List Cue, cues = first ++ rest →
    (reached ledger s first).1.session.isActive = false →
    (reached ledger s cues).1.session = (reached ledger s first).1.session ∧
      (reached ledger s cues).1.answers = (reached ledger s first).1.answers ∧
      (reached ledger s cues).1.violations = (reached ledger s first).1.violations
  /-- A stimulus would change none of them even if it still reached the sitting. -/
  inert : (reached ledger s cues).1.session.isActive = false → ∀ (scene : Scene) (x : Stimulus),
    ((handle ledger scene x).after (reached ledger s cues)).1.session =
        (reached ledger s cues).1.session ∧
      ((handle ledger scene x).after (reached ledger s cues)).1.answers =
        (reached ledger s cues).1.answers ∧
      ((handle ledger scene x).after (reached ledger s cues)).1.violations =
        (reached ledger s cues).1.violations
  /-- The end is told once, and only if it has come. -/
  farewells : (deeds ledger s cues).countP Action.isFarewell =
    if (reached ledger s cues).1.session.isActive then 0 else 1
  /-- The record is completed once, and only if the end has come. -/
  completions : (deeds ledger s cues).countP Action.isCompletion =
    if (reached ledger s cues).1.session.isActive then 0 else 1
  /-- The user is blocked once if the lives were exhausted, and never otherwise. -/
  blocks : (deeds ledger s cues).countP Action.isBlock =
    if (reached ledger s cues).1.session.status = .disqualified then 1 else 0

/-- Counting closing actions of one kind in the closing actions alone. -/
theorem countP_deeds {s : Sitting × σ} (cues : List Cue) (h : s.1.session.isActive = true)
    {p : Action → Bool} (hp : ∀ a, p a = true → a.isClosing = true) :
    (deeds ledger s cues).countP p = (reached ledger s cues).1.session.closing.countP p := by
  rw [← closing_deeds ledger cues h, List.countP_filter]
  refine List.countP_congr fun a _ => ?_
  rw [Bool.and_eq_true]
  exact ⟨fun ha => ⟨ha, hp a ha⟩, fun ha => ha.1⟩

/-- The record of a session that is over tells when it ended. -/
theorem completedAt_of_over {s : Sitting × σ} {cues : List Cue} (h : s.1.session.isActive = true)
    (hover : (reached ledger s cues).1.session.isActive = false) :
    (reached ledger s cues).1.session.completedAt.isSome = true := by
  let final := (reached ledger s cues).1.session
  -- the completing write stands among the closing actions, so it is one of them
  have hmem : Action.write (.updateSession final.id final.patch) ∈
      (deeds ledger s cues).filter Action.isClosing := by
    rw [closing_deeds ledger cues h, Session.closing, hover]
    exact List.mem_cons_self
  exact (Bool.or_false _).symm.trans (List.mem_filter.mp hmem).2

theorem countP_closing_over {final : Session} (h : final.isActive = false) :
    final.closing.countP Action.isFarewell = 1 ∧
      final.closing.countP Action.isCompletion = (if final.completedAt.isSome then 1 else 0) ∧
      final.closing.countP Action.isBlock = if final.status = .disqualified then 1 else 0 := by
  rw [Session.closing, h]
  by_cases hstatus : final.status = .disqualified
  · simp [hstatus, List.countP_cons, Action.isFarewell, Action.isCompletion, Action.isBlock,
      Event.isLast, Session.patch]
    rfl
  · simp [hstatus, List.countP_cons, Action.isFarewell, Action.isCompletion, Action.isBlock,
      Event.isLast, Session.patch]
    rfl

/-- **A session ends once.** Whatever comes in whatever order, with any ledger: the status leaves
`inProgress` at most once and nothing of the record changes afterwards; one farewell, one
completion and, after the last life, one block are all that the end ever sends. -/
theorem session_ends_once (s : Sitting × σ) (cues : List Cue) (h : s.1.session.isActive = true) :
    EndsOnce ledger s cues := by
  have hfarewell := countP_deeds ledger cues h (p := Action.isFarewell)
    (by intro a ha; simp [Action.isClosing, ha])
  have hcompletion := countP_deeds ledger cues h (p := Action.isCompletion)
    (by intro a ha; simp [Action.isClosing, ha])
  have hblock := countP_deeds ledger cues h (p := Action.isBlock)
    (by intro a ha; simp [Action.isClosing, ha])
  constructor
  case leaves => exact countP_ends_le ledger s cues
  case stays =>
    intro first rest hcues hover
    rw [hcues, reached_append]
    exact (settles_history ledger (reached ledger s first) rest).lasts hover
  case inert => exact fun hover scene x => (settling_handle ledger scene x).lasts hover
  case farewells =>
    rw [hfarewell]
    cases hfinal : (reached ledger s cues).1.session.isActive with
    | true => rw [Session.closing_active hfinal]; rfl
    | false => exact (countP_closing_over hfinal).1
  case completions =>
    rw [hcompletion]
    cases hfinal : (reached ledger s cues).1.session.isActive with
    | true => rw [Session.closing_active hfinal]; rfl
    | false =>
      rw [(countP_closing_over hfinal).2.1, if_pos (completedAt_of_over ledger h hfinal)]
      rfl
  case blocks =>
    rw [hblock]
    cases hfinal : (reached ledger s cues).1.session.isActive with
    | true =>
      have hstatus : (reached ledger s cues).1.session.status = .inProgress := by
        simpa [Session.isActive] using hfinal
      rw [Session.closing_active hfinal, hstatus]
      rfl
    | false => exact (countP_closing_over hfinal).2.2

/-- The last life is lost while the list of effects still holds the order to submit, a use of the
clipboard and a submission come too late, and the clock ticks on. -/
theorem session_ends_once_lastLife :
    (Sitting.specimen 1).session.isActive = true ∧
      (reached (.lasting Shelf.store 1) (Sitting.specimen 1, .empty)
        [.at 0 (.signal (.fullscreenChange false)), .at 10000 .graceElapsed, .at 10000 (.signal .copy),
          .at 10001 (.submit .user), .at 11000 .tick]).1.session.status = .disqualified ∧
      EndsOnce (.lasting Shelf.store 1) (Sitting.specimen 1, .empty)
        [.at 0 (.signal (.fullscreenChange false)), .at 10000 .graceElapsed, .at 10000 (.signal .copy),
          .at 10001 (.submit .user), .at 11000 .tick] :=
  ⟨rfl, rfl, session_ends_once _ _ _ rfl⟩

end Turn

end Invigilator
