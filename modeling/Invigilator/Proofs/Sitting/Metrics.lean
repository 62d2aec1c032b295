import Invigilator.Proofs.Lives.Window
import Invigilator.Proofs.Sitting.Lives
import Invigilator.Proofs.Sitting.Rest
import Invigilator.Proofs.Sitting.Stretch

/-!
# The metrics of a sitting

The counters of a sitting are raised in many places. A grace period is counted when it starts, and
again when it is over, in the effects of the detector or where the sitting is torn down; a
penalty is counted twice, by the sitting and by the ledger; and an end can come in the middle of
a penalty, with a grace period pending. `Balances` says what the counters must add up to.

It is proved by double entry. Between two sittings there is something to count, and `Posts` says
that some actions count just that; what is posted one after the other is posted. So it is enough
to see it of the four steps that count (`posts_started`, `posts_over`, `posts_charged`,
`posts_closed`), and to find these in the text of every turn. A penalty needs one thing of the run
so far: the ledger counts no loss unless it has a life left. That it has one as long as the
session does is part of `Solvent`, the invariant of a run.
-/

namespace Invigilator

open Sitting (isActive_of_isRunning)

/-! ## Steps of metrics -/

namespace Action

/-- Whether an action is a step of a metric. -/
def isStep : Action → Bool
  | .note (.count _) => true
  | .note (.move ..) => true
  | .note (.line ..) => false
  | .publish _ => false
  | .write _ => false

/-- Whether an action counts a violation, of whatever type. -/
def countsViolation : Action → Bool
  | .note (.count (.violations _)) => true
  | _ => false

/-- By how much an action moves a gauge. -/
def moves (g : Gauge) : Action → Int
  | .note (.move other n) => if other = g then n else 0
  | _ => 0

end Action

/-- How often some actions raise a counter. -/
def raised (c : Counter) (as : List Action) : Nat := as.count (.note (.count c))

/-- By how much some actions move a gauge, all in all. -/
def moved (g : Gauge) : List Action → Int
  | [] => 0
  | a :: as => a.moves g + moved g as

theorem raised_append (c : Counter) (as bs : List Action) :
    raised c (as ++ bs) = raised c as + raised c bs := List.count_append

theorem moved_append (g : Gauge) (as bs : List Action) :
    moved g (as ++ bs) = moved g as + moved g bs := by
  induction as with
  | nil => exact (Int.zero_add _).symm
  | cons a as ih => rw [List.cons_append, moved, ih, moved, Int.add_assoc]

theorem raised_count (c other : Counter) :
    raised c [.note (.count other)] = if other = c then 1 else 0 := by
  rw [raised, List.count_singleton]
  simp only [beq_iff_eq, Action.note.injEq, Note.count.injEq]

/-- Only the steps count. -/
theorem raised_steps (c : Counter) (as : List Action) :
    raised c (as.filter Action.isStep) = raised c as := List.count_filter rfl

theorem moved_steps (g : Gauge) (as : List Action) :
    moved g (as.filter Action.isStep) = moved g as := by
  induction as with
  | nil => rfl
  | cons a as ih =>
    cases ha : a.isStep with
    | true => rw [List.filter_cons_of_pos ha, moved, moved, ih]
    | false =>
      have hidle : a.moves g = 0 := by
        unfold Action.moves
        split
        · cases ha
        · rfl
      rw [List.filter_cons_of_neg (ne_true_of_eq_false ha), moved, hidle, ih, Int.zero_add]

theorem countsViolation_steps (as : List Action) :
    (as.filter Action.isStep).countP Action.countsViolation =
      as.countP Action.countsViolation := by
  rw [List.countP_filter]
  refine List.countP_congr fun a _ => ?_
  rw [Bool.and_eq_true, and_iff_left_iff_imp]
  intro hcounts
  unfold Action.countsViolation at hcounts
  split at hcounts
  · rfl
  · cases hcounts

theorem ViolationType.name_injective {v w : ViolationType} (h : v.name = w.name) : v = w := by
  revert h
  cases v <;> cases w <;> decide

/-! ## What is posted -/

namespace Sitting

/-- The grace periods that are pending, at most one. -/
def waiting (s : Sitting) : Nat := if s.detector.pending.isSome then 1 else 0

/-- The sessions that are over with a status, at most one. -/
def overAs (s : Sitting) (label : String) : Nat :=
  if s.session.status.isTerminal = true ∧ s.session.status.name = label then 1 else 0

/-- The part of a sitting in the gauge of the active sessions. -/
def presence (s : Sitting) : Int := if s.isRunning then 1 else 0

/-- The recorded violations of a type. -/
def recorded (s : Sitting) (kind : ViolationType) : Nat :=
  s.violations.countP fun v => v.violationType = kind

/-- Between two sittings some actions raise the counters by what has changed, and move the gauge of
the active sessions so far. -/
structure Posts (s t : Sitting) (up : Int) (as : List Action) : Prop where
  graces : s.waiting + raised (.gracePeriods "started") as =
    t.waiting + raised (.gracePeriods "recovered") as + raised (.gracePeriods "penalized") as +
      raised (.gracePeriods "disarmed") as
  kinds : ∀ kind, t.recorded kind = s.recorded kind + raised (.violations kind.name) as
  penalties : t.violations.length = s.violations.length + as.countP Action.countsViolation
  lost : t.violations.length = s.violations.length + raised (.livesLost "exam") as
  sessions : ∀ label, t.overAs label = s.overAs label + raised (.sessions label) as
  gauge : moved .sessionsActive as = up

variable {s t u : Sitting} {m n : Int} {as bs : List Action}

/-- What is posted one after the other is posted. -/
theorem Posts.andThen (first : s.Posts t m as) (second : t.Posts u n bs) :
    s.Posts u (m + n) (as ++ bs) := by
  constructor
  case graces =>
    have hfirst := first.graces
    have hsecond := second.graces
    simp only [raised_append]
    omega
  case kinds =>
    intro kind
    rw [raised_append, second.kinds kind, first.kinds kind, Nat.add_assoc]
  case penalties => rw [List.countP_append, second.penalties, first.penalties, Nat.add_assoc]
  case lost => rw [raised_append, second.lost, first.lost, Nat.add_assoc]
  case sessions =>
    intro label
    rw [raised_append, second.sessions label, first.sessions label, Nat.add_assoc]
  case gauge => rw [moved_append, first.gauge, second.gauge]

/-- It is enough to look at the steps of metrics. -/
theorem posts_of_steps (h : s.Posts t m bs)
    (hsteps : as.filter Action.isStep = bs.filter Action.isStep) : s.Posts t m as := by
  have hraised : ∀ c, raised c as = raised c bs := fun c => by
    rw [← raised_steps, hsteps, raised_steps]
  constructor
  case graces =>
    simp only [hraised]
    exact h.graces
  case kinds =>
    intro kind
    rw [h.kinds kind, hraised]
  case penalties => rw [h.penalties, ← countsViolation_steps, ← hsteps, countsViolation_steps]
  case lost => rw [h.lost, hraised]
  case sessions =>
    intro label
    rw [h.sessions label, hraised]
  case gauge => rw [← moved_steps, hsteps, moved_steps, h.gauge]

/-- What comes without a penalty has only grace periods and ends to account for. -/
theorem posts_free (hviolations : t.violations = s.violations)
    (hkinds : ∀ kind : ViolationType, raised (.violations kind.name) as = 0)
    (hpenalties : as.countP Action.countsViolation = 0) (hlost : raised (.livesLost "exam") as = 0)
    (hgraces : s.waiting + raised (.gracePeriods "started") as =
      t.waiting + raised (.gracePeriods "recovered") as + raised (.gracePeriods "penalized") as +
        raised (.gracePeriods "disarmed") as)
    (hsessions : ∀ label, t.overAs label = s.overAs label + raised (.sessions label) as)
    (hgauge : moved .sessionsActive as = m) : s.Posts t m as := by
  constructor
  case graces => exact hgraces
  case kinds =>
    intro kind
    rw [hkinds kind, recorded, hviolations]
    rfl
  case penalties => rw [hpenalties, hviolations, Nat.add_zero]
  case lost => rw [hlost, hviolations, Nat.add_zero]
  case sessions => exact hsessions
  case gauge => exact hgauge

/-- What touches neither the metrics nor what they count. -/
theorem posts_idle (hstatus : t.session.status = s.session.status)
    (hviolations : t.violations = s.violations)
    (hpending : t.detector.pending.isSome = s.detector.pending.isSome)
    (has : as.filter Action.isStep = []) : s.Posts t 0 as := by
  have hnothing : s.Posts t 0 [] := by
    refine posts_free hviolations (fun _ => rfl) rfl rfl ?_ (fun label => ?_) rfl
    · rw [waiting, waiting, hpending]
      rfl
    · rw [overAs, hstatus]
      rfl
  exact posts_of_steps hnothing has

theorem posts_still (has : as.filter Action.isStep = []) : s.Posts s 0 as :=
  posts_idle rfl rfl rfl has

theorem posts_started (hsession : t.session = s.session) (hviolations : t.violations = s.violations)
    (hsafe : s.detector.pending.isSome = false) (hpending : t.detector.pending.isSome = true) :
    s.Posts t 0 [.note (.count (.gracePeriods "started"))] := by
  refine posts_free hviolations (fun _ => rfl) rfl rfl ?_ (fun label => ?_) rfl
  · rw [waiting, hsafe, waiting, hpending]
    rfl
  · rw [overAs, hsession]
    rfl

/-- How a grace period can be over. -/
def outcomes : List String := ["recovered", "penalized", "disarmed"]

theorem posts_over {outcome : String} (houtcome : outcome ∈ outcomes)
    (hsession : t.session = s.session) (hviolations : t.violations = s.violations)
    (hpending : s.detector.pending.isSome = true) (hsafe : t.detector.pending.isSome = false) :
    s.Posts t 0 [.note (.count (.gracePeriods outcome))] := by
  refine posts_free hviolations (fun _ => rfl) rfl rfl ?_ (fun label => ?_) rfl
  · rw [waiting, hpending, waiting, hsafe]
    rcases List.mem_cons.mp houtcome with rfl | houtcome
    · rfl
    rcases List.mem_cons.mp houtcome with rfl | houtcome
    · rfl
    rw [List.mem_singleton.mp houtcome]
    rfl
  · rw [overAs, hsession]
    rfl

/-- A penalty is counted by the ledger and by the sitting. -/
theorem posts_charged (v : Violation) :
    s.Posts (s.charged v) 0 [.note (.count (.livesLost "exam")),
      .note (.count (.violations v.violationType.name))] := by
  constructor
  case graces => rfl
  case kinds =>
    intro kind
    have hcount : raised (.violations kind.name)
        [.note (.count (.livesLost "exam")),
          .note (.count (.violations v.violationType.name))] =
        if v.violationType = kind then 1 else 0 := by
      by_cases hkind : v.violationType = kind
      · simp [raised, hkind]
      · have hname : v.violationType.name ≠ kind.name :=
          fun h => hkind (ViolationType.name_injective h)
        simp [raised, hkind, hname]
    rw [hcount]
    simp [recorded, charged, List.countP_append, List.countP_singleton]
  case penalties =>
    rw [charged, List.length_append]
    rfl
  case lost =>
    rw [charged, List.length_append]
    rfl
  case sessions => exact fun label => rfl
  case gauge => rfl

/-- An end is counted under the status that the session takes. -/
theorem posts_closed (hactive : s.session.isActive = true)
    (hterminal : t.session.status.isTerminal = true) (hviolations : t.violations = s.violations)
    (hpending : t.detector.pending.isSome = s.detector.pending.isSome) :
    s.Posts t 0 [.note (.count (.sessions t.session.status.name))] := by
  refine posts_free hviolations (fun _ => rfl) rfl rfl ?_ (fun label => ?_) rfl
  · rw [waiting, waiting, hpending]
    rfl
  · have hstatus : s.session.status = .inProgress := by simpa [Session.isActive] using hactive
    rw [overAs, overAs, hstatus, hterminal, raised_count]
    simp [Status.isTerminal]

end Sitting

/-! ## The loss that the ledger counts -/

namespace Ledger

variable {m : Nat} {b : Bucket} {lives : Shelf}

theorem current_lasting (now : Stamp) (hup : lives.available = true) :
    ∃ state, (current Shelf.store ⟨m, none⟩ now b).run lives = ((.ok state, lives), []) ∧
      state.lives = remaining Shelf.find? m b lives := by
  rw [current, Attempt.run_bind, Shelf.get_run b.key hup, remaining]
  cases lives.find? b.key with
  | none => exact ⟨_, rfl, rfl⟩
  | some state => exact ⟨_, rfl, rfl⟩

/-- A ledger with a life left counts the life that it takes, and nothing else. -/
theorem loseLife_counts (looked lost : Stamp) (hup : lives.available = true)
    (hleft : 0 < remaining Shelf.find? m b lives) :
    ∃ state line t, (loseLife Shelf.store ⟨m, none⟩ looked lost b).run lives =
      ((.ok state, t), [.count (.livesLost b.scope), .info line]) ∧ t.available = true := by
  obtain ⟨state, hcurrent, hlives⟩ := current_lasting (m := m) (b := b) looked hup
  have hlose : state.lose? lost = some ⟨state.lives - 1, state.lostAt ++ [lost]⟩ :=
    if_neg (by omega)
  rw [loseLife, Attempt.run_bind, hcurrent]
  simp only [hlose, Attempt.run_bind, save, Shelf.put_run _ _ _ hup]
  exact ⟨_, _, _, rfl, hup⟩

end Ledger

/-! ## What is pending -/

namespace Sitting

variable {σ : Type} {ledger : LivesLedger σ} {scene : Scene} {s t : Sitting} {lives lives' : σ}
  {x : Stimulus}

/-- What is pending is penalized only after a grace period. -/
def Slow (s : Sitting) : Prop :=
  ∀ g, s.detector.pending = some g → g.violation.isInstantaneous = false

theorem slow_ended {reason : Reason} {time : Stamp} (h : s.Slow) : (s.ended reason time).Slow := by
  intro g hg
  refine h g ?_
  have hdisarm : s.detector.disarm.1.pending = some g := hg
  unfold Detector.disarm at hdisarm
  split at hdisarm
  · cases hdisarm
  · exact hdisarm

theorem slow_endedIf {p : Prop} [Decidable p] {reason : Reason} {time : Stamp} (h : s.Slow) :
    (s.endedIf p reason time).Slow := by
  unfold endedIf
  split
  · exact slow_ended h
  · exact h

theorem Change.slow (h : Change ledger scene s lives x t lives') (hs : s.Slow) : t.Slow := by
  have hlapsed : s.lapsed.Slow := nofun
  cases h with
  | quiet => exact hs
  | opened signal kind g departure safe alive opens =>
    rintro _ ⟨⟩
    rw [opens.violation]
    exact Signal.isInstantaneous_of_departure? departure
  | recovered => exact nofun
  | clipped => exact slow_endedIf (s := s.charged _) hs
  | penalized g => exact slow_endedIf (s := s.lapsed.charged _) hlapsed
  | excused => exact hlapsed
  | expired => exact slow_ended (s := { s with timer := s.timer.tick.1 }) hs
  | submitted => exact slow_ended hs
  | shut =>
    -- to the detector a shutdown is the same as an end
    have hended : (s.ended .user scene.time).Slow := slow_ended hs
    exact hended

end Sitting

/-! ## What a turn posts -/

namespace Turn

variable {σ α β : Type} {s : Sitting × σ}

/-- A turn posts what it changes. -/
def Posts (t : Turn σ α) (s : Sitting × σ) : Prop := s.1.Posts (t.after s).1 0 (t.actions s)

theorem posts_bind {t : Turn σ α} {f : α → Turn σ β} (ht : t.Posts s)
    (hf : (f (t.value s)).Posts (t.after s)) : (t >>= f).Posts s :=
  Sitting.Posts.andThen ht hf

theorem posts_pure (x : α) : (pure x : Turn σ α).Posts s := Sitting.posts_still rfl

theorem posts_sitting : (sitting : Turn σ Sitting).Posts s := Sitting.posts_still rfl

theorem posts_act {a : Action} (h : a.isStep = false) : (act a : Turn σ Unit).Posts s :=
  Sitting.posts_still (List.filter_eq_nil_iff.mpr (by simp [h]))

theorem posts_publishDirective (d : Directive) :
    (publishDirective d >>= fun _ => pure [d] : Turn σ (List Directive)).Posts s :=
  posts_bind (posts_bind posts_sitting (posts_act rfl)) (posts_pure _)

theorem posts_change {f : Sitting → Sitting}
    (hstatus : (f s.1).session.status = s.1.session.status)
    (hviolations : (f s.1).violations = s.1.violations)
    (hpending : (f s.1).detector.pending.isSome = s.1.detector.pending.isSome) :
    (change f : Turn σ Unit).Posts s :=
  Sitting.posts_idle hstatus hviolations hpending rfl

/-! ### Ending -/

/-- A teardown counts the pending grace period, if the sitting is still watched. -/
theorem posts_teardown (scene : Scene) : (teardown scene : Turn σ (List Directive)).Posts s := by
  have hactions : (teardown scene : Turn σ (List Directive)).actions s =
      (disarmEffects s.1.detector.disarm.2 : Turn σ (List Directive)).actions
        (s.1.disarmed, s.2) := rfl
  rw [Posts, hactions, after_teardown]
  cases harmed : s.1.detector.armed with
  | false =>
    -- a detector that is off has nothing pending, and says nothing
    have hdisarm : s.1.detector.disarm = (s.1.detector, []) := Detector.disarm_disarmed harmed
    refine Sitting.posts_idle rfl rfl ?_ ?_
    · rw [Sitting.disarmed, hdisarm]
    · rw [hdisarm]
      rfl
  | true =>
    have hafter := Detector.disarm_armed harmed
    cases hpending : s.1.detector.pending.isSome with
    | false =>
      refine Sitting.posts_idle rfl rfl ?_ ?_
      · rw [Sitting.disarmed, hafter, hpending]
        rfl
      · rw [Detector.disarm_effects harmed, hpending]
        rfl
    | true =>
      have hsafe : s.1.disarmed.detector.pending.isSome = false := by
        rw [Sitting.disarmed, hafter]
        rfl
      have houtcome : "disarmed" ∈ Sitting.outcomes := by decide
      have hover := Sitting.posts_over (s := s.1) (t := s.1.disarmed) houtcome rfl rfl hpending
        hsafe
      rw [Detector.disarm_effects harmed, hpending]
      exact Sitting.posts_of_steps hover rfl

/-- Whoever calls it, and however often, `finish` counts the end of an active session and no
other. -/
theorem posts_finish (scene : Scene) (reason : Reason) :
    (finish scene reason : Turn σ (List Directive)).Posts s := by
  by_cases hactive : s.1.session.isActive = true
  · have hteardown : s.1.Posts s.1.disarmed 0 ((teardown scene : Turn σ _).actions s) := by
      have h := posts_teardown (s := s) scene
      rwa [Posts, after_teardown] at h
    have hstatus : (s.1.ended reason scene.time).session.status.isTerminal = true := by
      rw [(Sitting.ended_accounts reason scene.time hactive).2.2.2]
      cases reason <;> rfl
    have hclosed := Sitting.posts_closed (s := s.1.disarmed) (t := s.1.ended reason scene.time)
      hactive hstatus rfl rfl
    rw [Posts, after_finish, Sitting.endedIf, if_pos hactive, actions_finish s scene reason hactive]
    -- blocking the user is a write, so the reason makes no difference here
    refine hteardown.andThen (Sitting.posts_of_steps hclosed ?_)
    split <;> rfl
  · have hactions : (finish scene reason : Turn σ (List Directive)).actions s = [] := by
      simp [finish, hactive]
    rw [Posts, after_finish, Sitting.endedIf, if_neg hactive, hactions]
    exact Sitting.posts_still rfl

/-! ### Penalties -/

/-- The ledger is there, and has a life left for the session. -/
structure Backed (m : Nat) (s : Sitting × Shelf) : Prop where
  up : s.2.available = true
  known : 0 < known Shelf.find? m s

variable {m : Nat} {s : Sitting × Shelf}

theorem actions_call (a : Attempt σ α) (s : Sitting × σ) :
    (call a).actions s = (a.run s.2).2.map .note := rfl

theorem actions_takeLife (scene : Scene) (hb : Backed m s) :
    ∃ line, (takeLife (.lasting Shelf.store m) scene s.1.session).actions s =
      [.note (.count (.livesLost "exam")), .note (.info line)] := by
  obtain ⟨state, line, t, hrun, -⟩ :=
    Ledger.loseLife_counts (m := m) scene.looked scene.lost hb.up hb.known
  have hnotes : ((Ledger.loseLife (LivesLedger.lasting Shelf.store m).store
      (LivesLedger.lasting Shelf.store m).rules scene.looked scene.lost
      (.session s.1.session.id)).run s.2) =
      ((.ok state, t), [.count (.livesLost "exam"), .info line]) := hrun
  refine ⟨line, ?_⟩
  rw [takeLife, actions_bind, value_call, actions_call, hnotes]
  rfl

/-- A penalty is posted, and the end that it may bring. -/
theorem posts_applyViolation (scene : Scene) (kind : ViolationType) (hb : Backed m s)
    (hactive : s.1.session.isActive = true) (halive : 0 < s.1.session.livesRemaining) :
    (applyViolation (.lasting Shelf.store m) scene kind).Posts s := by
  let left := livesLeft (.lasting Shelf.store m) scene s
  let u : Sitting × Shelf :=
    (s.1.charged (s.1.violation scene kind left), (asked (.lasting Shelf.store m) scene s).2)
  obtain ⟨line, htaken⟩ := actions_takeLife scene hb
  have hlast : (if left = 0 then finish scene .livesExhausted else pure [] :
      Turn Shelf (List Directive)).Posts u := by
    split
    · exact posts_finish scene .livesExhausted
    · exact posts_pure []
  refine posts_bind posts_sitting ?_
  rw [value_sitting, after_sitting, if_pos ⟨hactive, halive⟩]
  -- the ledger counts before the penalty is on record: only together do the two counts balance
  have hcharged : s.1.Posts u.1 0
      ((takeLife (.lasting Shelf.store m) scene s.1.session).actions s ++
        s.1.penalty (s.1.violation scene kind left)) := by
    rw [htaken]
    exact Sitting.posts_of_steps (Sitting.posts_charged _) rfl
  have hall := hcharged.andThen hlast
  rw [List.append_assoc] at hall
  rw [Posts, after_bind, actions_bind, value_takeLife, after_takeLife]
  exact hall

/-! ### Effects of the detector -/

theorem actions_applyEffects_cons (ledger : LivesLedger σ) (scene : Scene) (e : Effect)
    (es : List Effect) (s : Sitting × σ) :
    (applyEffects ledger scene (e :: es)).actions s =
      (applyEffect ledger scene e).actions s ++
        (applyEffects ledger scene es).actions ((applyEffect ledger scene e).after s) := by
  simp [applyEffects]

theorem actions_applyEffects_append (ledger : LivesLedger σ) (scene : Scene) (es fs : List Effect)
    (s : Sitting × σ) :
    (applyEffects ledger scene (es ++ fs)).actions s =
      (applyEffects ledger scene es).actions s ++
        (applyEffects ledger scene fs).actions ((applyEffects ledger scene es).after s) := by
  induction es generalizing s with
  | nil => rfl
  | cons e es ih =>
    rw [List.cons_append, actions_applyEffects_cons, actions_applyEffects_cons, ih,
      after_applyEffects_cons, List.append_assoc]

theorem posts_applyEffects_cons {ledger : LivesLedger σ} {scene : Scene} {e : Effect}
    {es : List Effect} {s : Sitting × σ} (he : (applyEffect ledger scene e).Posts s)
    (hes : (applyEffects ledger scene es).Posts ((applyEffect ledger scene e).after s)) :
    (applyEffects ledger scene (e :: es)).Posts s := by
  rw [Posts, after_applyEffects_cons, actions_applyEffects_cons]
  exact he.andThen hes

/-- What is only said to the candidate is no step of a metric. -/
theorem steps_applyEffects_spoken (ledger : LivesLedger σ) (scene : Scene) (ds : List Directive)
    (s : Sitting × σ) :
    ((applyEffects ledger scene (Detector.spoken ds)).actions s).filter Action.isStep = [] := by
  induction ds with
  | nil => rfl
  | cons d ds ih =>
    rw [Detector.spoken, List.map_cons, actions_applyEffects_cons, List.filter_append]
    exact ih

theorem posts_applyEffects_spoken (ledger : LivesLedger σ) (scene : Scene) (ds : List Directive)
    (s : Sitting × σ) : (applyEffects ledger scene (Detector.spoken ds)).Posts s := by
  rw [Posts, after_applyEffects_spoken]
  exact Sitting.posts_still (steps_applyEffects_spoken ledger scene ds s)

/-- The clipboard is penalized without a grace period, and none is counted. -/
theorem posts_loseLife_atOnce (scene : Scene) {kind : ViolationType}
    (hkind : kind.isInstantaneous = true) (hb : Backed m s)
    (hactive : s.1.session.isActive = true) (halive : 0 < s.1.session.livesRemaining) :
    (applyEffect (.lasting Shelf.store m) scene (.loseLife kind)).Posts s := by
  rw [applyEffect, hkind, if_neg Bool.noConfusion]
  exact posts_applyViolation scene kind hb hactive halive

/-- The steps at a report are those of its effects; a denied request adds a line to the log. -/
theorem steps_onSignal (ledger : LivesLedger σ) (scene : Scene) (signal : Signal)
    (s : Sitting × σ) :
    ((onSignal ledger scene signal).actions s).filter Action.isStep =
      ((applyEffects ledger scene (told scene (.signal signal) s.1).2).actions
        ({ s.1 with detector := (told scene (.signal signal) s.1).1 }, s.2)).filter
          Action.isStep := by
  have hfeed : (feed scene (.signal signal) : Turn σ (List Effect)).actions s = [] := rfl
  by_cases hdenied : signal = .fullscreenDenied
  · subst hdenied
    simp only [onSignal, actions_bind, actions_sitting, value_sitting, after_sitting, ↓reduceIte,
      actions_note, after_note, hfeed, value_feed, after_feed, actions_pure, List.nil_append,
      List.append_nil, List.filter_append]
    rfl
  · simp only [onSignal, actions_bind, actions_sitting, value_sitting, after_sitting, hdenied,
      ↓reduceIte, hfeed, value_feed, after_feed, actions_pure, List.nil_append, List.append_nil]

/-- What a report of the browser does is posted. -/
theorem posts_onSignal (scene : Scene) (signal : Signal) (hb : Backed m s)
    (hrun : s.1.isRunning = true) (hc : s.1.Coupled) :
    (onSignal (.lasting Shelf.store m) scene signal).Posts s := by
  have hactive := isActive_of_isRunning hrun
  have harmed : s.1.detector.armed = true := by rw [hc.armed, hrun]
  obtain ⟨d, es, htold, hreact⟩ := told_signal scene signal harmed
  rw [Posts, after_onSignal]
  refine Sitting.posts_of_steps ?_ (steps_onSignal _ scene signal s)
  rw [htold]
  cases hreact with
  | quiet ds =>
    rw [after_applyEffects_spoken]
    exact Sitting.posts_idle rfl rfl rfl (steps_applyEffects_spoken _ _ _ _)
  | opened kind g before after departure safe =>
    -- the period is pending before it is counted, so the effects balance only from `s` on
    rw [after_applyEffects_append, after_applyEffects_spoken, after_applyEffects_cons,
      after_applyEffect_startGrace, after_applyEffects_spoken, actions_applyEffects_append,
      after_applyEffects_spoken, actions_applyEffects_cons, after_applyEffect_startGrace]
    refine Sitting.posts_of_steps (Sitting.posts_started rfl rfl ?_ rfl) ?_
    · rw [safe]
      rfl
    · simp only [List.filter_append, steps_applyEffects_spoken]
      rfl
  | recovered back pending whole =>
    rw [after_applyEffects_cons, after_applyEffect_cancelGrace, after_applyEffects_spoken,
      actions_applyEffects_cons, after_applyEffect_cancelGrace]
    have houtcome : "recovered" ∈ Sitting.outcomes := by decide
    refine Sitting.posts_of_steps (Sitting.posts_over houtcome rfl rfl pending rfl) ?_
    simp only [List.filter_append, steps_applyEffects_spoken]
    rfl
  | charged kind message use alive =>
    have henv := Environment.observe_of_clipboard? s.1.detector.env use
    rw [henv]
    have hkind := Signal.isInstantaneous_of_clipboard? use
    have hloss := posts_loseLife_atOnce scene hkind hb hactive alive
    exact posts_applyEffects_cons (posts_publishDirective .preventDefault)
      (posts_applyEffects_cons hloss (posts_applyEffects_spoken _ scene [.notify message] _))

/-- The penalty at the end of a grace period counts it as penalized. -/
theorem posts_loseLife_lapsed (scene : Scene) {g : Grace} (hpending : s.1.detector.pending = some g)
    (hslow : g.violation.isInstantaneous = false) (hb : Backed m s)
    (hactive : s.1.session.isActive = true) (halive : 0 < s.1.session.livesRemaining) :
    s.1.Posts
      ((applyEffect (.lasting Shelf.store m) scene (.loseLife g.violation)).after
        (s.1.lapsed, s.2)).1 0
      ((applyEffect (.lasting Shelf.store m) scene (.loseLife g.violation)).actions
        (s.1.lapsed, s.2)) := by
  -- the timer has taken the period out of the detector, and the count comes behind
  have houtcome : "penalized" ∈ Sitting.outcomes := by decide
  have hisSome : s.1.detector.pending.isSome = true := by
    rw [hpending]
    rfl
  have hover := Sitting.posts_over (s := s.1) (t := s.1.lapsed) houtcome rfl rfl hisSome rfl
  have hbacked : Backed m (s.1.lapsed, s.2) := ⟨hb.up, hb.known⟩
  have hloss := posts_applyViolation scene g.violation hbacked hactive halive
  rw [applyEffect, if_pos hslow]
  exact hover.andThen hloss

theorem posts_onGraceElapsed (scene : Scene) (hslow : s.1.Slow) (hb : Backed m s)
    (hrun : s.1.isRunning = true) (hc : s.1.Coupled) (halive : 0 < s.1.session.livesRemaining) :
    (onGraceElapsed (.lasting Shelf.store m) scene).Posts s := by
  cases hp : s.1.detector.pending with
  | none =>
    rw [Posts, after, actions, onGraceElapsed_safe _ scene hc hp]
    exact Sitting.posts_still rfl
  | some g =>
    have hloss := posts_loseLife_lapsed scene hp (hslow g hp) hb (isActive_of_isRunning hrun) halive
    let charged := (applyEffect (.lasting Shelf.store m) scene (.loseLife g.violation)).after
      (s.1.lapsed, s.2)
    have hwarned : s.1.Posts s.1 0 [.publish (.directive s.1.session.id .clearWarning)] :=
      Sitting.posts_still rfl
    have heffects : ∀ more, (applyEffects (.lasting Shelf.store m) scene more).Posts charged →
        s.1.Posts ((applyEffects (.lasting Shelf.store m) scene
            (.directive .clearWarning :: .loseLife g.violation :: more)).after
            (s.1.lapsed, s.2)).1 0
          ((applyEffects (.lasting Shelf.store m) scene
            (.directive .clearWarning :: .loseLife g.violation :: more)).actions
            (s.1.lapsed, s.2) ++ []) := by
      intro more hmore
      rw [List.append_nil, after_applyEffects_cons, after_applyEffects_cons,
        actions_applyEffects_cons, actions_applyEffects_cons]
      exact hwarned.andThen (hloss.andThen hmore)
    rw [Posts, after, actions, onGraceElapsed_fires _ scene hrun hc hp, Detector.penalty,
      if_neg (Nat.pos_iff_ne_zero.mp halive)]
    -- what follows the loss is a word to the candidate, or the end
    by_cases hmore : 1 < s.1.session.livesRemaining
    · rw [if_pos hmore]
      exact heffects _ (posts_applyEffects_spoken _ scene [.requestFullscreen] _)
    · have hend : (applyEffect (.lasting Shelf.store m) scene .autoSubmit).Posts charged :=
        posts_finish scene .livesExhausted
      have hnone : (applyEffects (.lasting Shelf.store m) scene []).Posts
          ((applyEffect (.lasting Shelf.store m) scene .autoSubmit).after charged) :=
        posts_pure []
      rw [if_neg hmore]
      exact heffects _ (posts_applyEffects_cons hend hnone)

/-! ### The other stimuli -/

theorem posts_storeAnswer {s : Sitting × σ} (index : Nat) (answer : Answer) :
    (storeAnswer index answer : Turn σ (Except Fault Answer)).Posts s :=
  posts_bind (posts_change rfl rfl rfl) (posts_bind posts_sitting (posts_bind (posts_act rfl)
    (posts_pure _)))

theorem posts_updateAnswer {s : Sitting × σ} (index : Nat) (code : String) :
    (updateAnswer index code : Turn σ (Except Fault Answer)).Posts s := by
  refine posts_bind posts_sitting ?_
  split
  · split
    · exact posts_pure _
    · exact posts_storeAnswer index _
  · exact posts_pure _

theorem posts_recordRun {s : Sitting × σ} (scene : Scene) (index : Nat) (result : RunResult) :
    (recordRun scene index result : Turn σ (Except Fault Answer)).Posts s := by
  refine posts_bind posts_sitting ?_
  split
  · split
    · split
      · exact posts_pure _
      · split
        · exact posts_bind (posts_act rfl) (posts_storeAnswer index _)
        · exact posts_bind (posts_act rfl) (posts_bind (posts_act rfl) (posts_storeAnswer index _))
    · exact posts_pure _
  · exact posts_pure _

theorem posts_submit {s : Sitting × σ} (scene : Scene) (reason : Reason) :
    (submit scene reason : Turn σ (Except Fault Snapshot)).Posts s := by
  refine posts_bind posts_sitting ?_
  split
  · split
    · exact posts_pure _
    · exact posts_bind (posts_finish scene reason) (posts_bind posts_sitting (posts_pure _))
  · exact posts_bind (posts_act rfl) (posts_pure _)

theorem posts_onTick {s : Sitting × σ} (scene : Scene) : (onTick scene : Turn σ Unit).Posts s := by
  refine posts_bind posts_sitting ?_
  rw [value_sitting, after_sitting]
  split
  split
  · exact posts_pure _
  · refine posts_bind (posts_change rfl rfl rfl) (posts_bind (posts_act rfl) ?_)
    split
    · exact posts_bind (posts_act rfl) (posts_bind (posts_act rfl)
        (posts_bind (posts_finish scene _) (posts_pure _)))
    · exact posts_pure _

theorem posts_onShutdown {s : Sitting × σ} (scene : Scene) :
    (onShutdown scene : Turn σ Unit).Posts s :=
  posts_bind (posts_teardown scene) (posts_bind (posts_change rfl rfl rfl)
    (posts_bind posts_sitting (posts_act rfl)))

/-! ## The course of a run -/

/-- What a run relies on: the parts agree, the ledger is there, and as long as the session is
active it has a life, in its own count and in that of the ledger. -/
structure Solvent (m : Nat) (s : Sitting × Shelf) : Prop where
  coupled : s.1.Coupled
  slow : s.1.Slow
  up : s.2.available = true
  alive : s.1.session.isActive = true → 0 < s.1.session.livesRemaining
  known : s.1.session.isActive = true → 0 < known Shelf.find? m s

theorem Solvent.backed (h : Solvent m s) (hactive : s.1.session.isActive = true) : Backed m s :=
  ⟨h.up, h.known hactive⟩

/-- A run stays solvent. -/
theorem Solvent.moment (h : Solvent m s) (c : Cue) :
    Solvent m (moment (.lasting Shelf.store m) s c).after := by
  cases hrun : s.1.isRunning with
  | false =>
    rw [moment_over _ c hrun]
    exact h
  | true =>
    have hactive := isActive_of_isRunning hrun
    have hchange := moment_change (.lasting Shelf.store m) c hrun h.coupled
    have halive := hchange.alive hrun (h.alive hactive)
    have hcoupled := hchange.coupled hrun h.coupled
    rcases hchange.accounts hrun with hfree | ⟨v, hpaid⟩
    · constructor
      case coupled => exact hcoupled
      case slow => exact hchange.slow h.slow
      case up =>
        rw [hfree.store]
        exact h.up
      case alive => exact halive
      case known =>
        intro _
        rw [Turn.known, hfree.id, hfree.store]
        exact h.known hactive
    · obtain ⟨state, t, hasked, hup⟩ := Ledger.loseLife_up (m := m) Shelf.store_reliable
        c.scene.looked c.scene.lost (.session s.1.session.id) h.up
      have hanswer : asked (.lasting Shelf.store m) c.scene s = (.ok state, t) := hasked
      constructor
      case coupled => exact hcoupled
      case slow => exact hchange.slow h.slow
      case up =>
        rw [hpaid.store, hanswer]
        exact hup
      case alive => exact halive
      case known =>
        intro hstill
        -- the ledger took the life, so both counts are the same now
        have hleft := halive hstill
        rw [hpaid.left] at hleft
        rcases paid_cases Shelf.store_honest hpaid with ⟨-, hsame, hknown⟩ | ⟨hfailed, -⟩
        · omega
        · rw [hanswer] at hfailed
          cases hfailed

/-! ### Runs -/

theorem posts_handle (scene : Scene) (x : Stimulus) (h : Solvent m s)
    (hrun : s.1.isRunning = true) : (handle (.lasting Shelf.store m) scene x).Posts s := by
  have hactive := isActive_of_isRunning hrun
  cases x with
  | signal signal =>
    exact posts_bind (posts_onSignal scene signal (h.backed hactive) hrun h.coupled) (posts_pure _)
  | update index code => exact posts_bind (posts_updateAnswer index code) (posts_pure _)
  | recordRun index result => exact posts_bind (posts_recordRun scene index result) (posts_pure _)
  | submit reason => exact posts_bind (posts_submit scene reason) (posts_pure _)
  | look => exact posts_bind posts_sitting (posts_pure _)
  | tick => exact posts_bind (posts_onTick scene) (posts_pure _)
  | graceElapsed =>
    exact posts_bind (posts_onGraceElapsed scene h.slow (h.backed hactive) hrun h.coupled
      (h.alive hactive)) (posts_pure _)
  | shutdown => exact posts_bind (posts_onShutdown scene) (posts_pure _)

theorem posts_moved (s : Sitting) (n : Int) : s.Posts s n [.note (.move .sessionsActive n)] :=
  ⟨rfl, fun _ => rfl, rfl, rfl, fun _ => rfl, by simp [moved, Action.moves]⟩

/-- One moment posts what it changes, and the gauge falls if the sitting stops. -/
theorem posts_moment (h : Solvent m s) (c : Cue) :
    s.1.Posts (moment (.lasting Shelf.store m) s c).after.1
      ((moment (.lasting Shelf.store m) s c).after.1.presence - s.1.presence)
      (moment (.lasting Shelf.store m) s c).actions := by
  cases hrun : s.1.isRunning with
  | false =>
    rw [moment_over _ c hrun, actions_moment_over _ c hrun, Int.sub_self]
    exact Sitting.posts_still rfl
  | true =>
    have hhandled := posts_handle c.scene c.stimulus h hrun
    have hafter : (moment (.lasting Shelf.store m) s c).after =
        (handle (.lasting Shelf.store m) c.scene c.stimulus).after s :=
      after_step_running _ c.scene c.stimulus hrun
    rw [hafter]
    have hactions : (moment (.lasting Shelf.store m) s c).actions = _ :=
      actions_step_running _ c.scene c.stimulus hrun
    rw [hactions]
    cases hstill : ((handle (.lasting Shelf.store m) c.scene c.stimulus).after s).1.isRunning with
    | true =>
      have hnothing : Sitting.Posts
          ((handle (.lasting Shelf.store m) c.scene c.stimulus).after s).1 _ 0 [] :=
        Sitting.posts_still rfl
      have hall := Sitting.Posts.andThen hhandled hnothing
      simpa [Sitting.presence, hrun, hstill] using hall
    | false =>
      -- this is where the sitting stops, so the gauge falls here and nowhere else
      have hall := Sitting.Posts.andThen hhandled (posts_moved _ (-1))
      simpa [Sitting.presence, hrun, hstill] using hall

/-- A whole run posts what it changes. -/
theorem posts_history (h : Solvent m s) (cues : List Cue) :
    s.1.Posts (reached (.lasting Shelf.store m) s cues).1
      ((reached (.lasting Shelf.store m) s cues).1.presence - s.1.presence)
      ((history (.lasting Shelf.store m) s cues).flatMap Moment.actions) := by
  induction cues generalizing s with
  | nil =>
    rw [reached_nil, Int.sub_self]
    exact Sitting.posts_still rfl
  | cons c cues ih =>
    have hall := (posts_moment h c).andThen (ih (h.moment c))
    have hsum : ∀ a b c : Int, b - a + (c - b) = c - a := by omega
    rw [hsum] at hall
    exact hall

/-- The first turn only puts the gauge up. -/
theorem posts_begin (s : Sitting × σ) : s.1.Posts s.1 1 ((begin : Turn σ Unit).actions s) := by
  refine Sitting.posts_of_steps (posts_moved s.1 1) ?_
  have hanswers : (s.1.answers.map fun a =>
      Action.write (.createAnswer s.1.session.id a)).filter Action.isStep = [] := by
    refine List.filter_eq_nil_iff.mpr fun a ha => ?_
    obtain ⟨answer, -, rfl⟩ := List.mem_map.mp ha
    exact Bool.false_ne_true
  rw [actions_begin, List.filter_append, List.filter_append, hanswers]
  rfl

end Turn

/-! ## The balance -/

/-- The metrics that were stepped in a run add up to the sitting that it led to. -/
structure Sitting.Balances (s : Sitting) (as : List Action) : Prop where
  /-- Every grace period that was started has had one outcome, or is pending. -/
  graces : raised (.gracePeriods "started") as =
    raised (.gracePeriods "recovered") as + raised (.gracePeriods "penalized") as +
      raised (.gracePeriods "disarmed") as + s.waiting
  /-- Every recorded violation was counted once, under its type, -/
  kinds : ∀ kind, raised (.violations kind.name) as = s.recorded kind
  /-- and nothing else was counted as one. -/
  penalties : as.countP Action.countsViolation = s.violations.length
  /-- The ledger counted the loss of a life for each. -/
  lost : raised (.livesLost "exam") as = s.violations.length
  /-- A session that is over was counted once, under its status, and no other was counted. -/
  sessions : ∀ label, raised (.sessions label) as = s.overAs label
  /-- The gauge is up by one as long as the sitting runs, and back afterwards. -/
  gauge : moved .sessionsActive as = s.presence

/-- What is posted from a sitting with nothing behind it is the balance. -/
theorem Sitting.Posts.balances {s t : Sitting} {as : List Action} (h : s.Posts t t.presence as)
    (hviolations : s.violations = []) (hsafe : s.detector.pending = none)
    (hactive : s.session.isActive = true) : t.Balances as := by
  have hstatus : s.session.status = .inProgress := by simpa [Session.isActive] using hactive
  constructor
  case graces =>
    have hgraces := h.graces
    rw [waiting, hsafe] at hgraces
    simp only [Option.isSome_none, Bool.false_eq_true, ↓reduceIte] at hgraces
    omega
  case kinds =>
    intro kind
    rw [h.kinds kind, recorded, hviolations]
    exact (Nat.zero_add _).symm
  case penalties =>
    rw [h.penalties, hviolations]
    exact (Nat.zero_add _).symm
  case lost =>
    rw [h.lost, hviolations]
    exact (Nat.zero_add _).symm
  case sessions =>
    intro label
    rw [h.sessions label, overAs, hstatus]
    exact (Nat.zero_add _).symm
  case gauge => exact h.gauge

namespace Turn

/-- **The metrics of a run balance.** Whatever comes and in whatever order, they do at every point
of a run over a ledger that has lives for the session. -/
theorem metrics_balance (m : Nat) (session : Session) (answers : List Answer) (pace : Pace)
    (now : Instant) (lives : Shelf) (hactive : session.isActive = true)
    (halive : 0 < session.livesRemaining) (hup : lives.available = true)
    (hleft : 0 < Ledger.remaining Shelf.find? m (.session session.id) lives) (cues : List Cue) :
    (reached (.lasting Shelf.store m) (.opened session answers pace now, lives) cues).1.Balances
      (deeds (.lasting Shelf.store m) (.opened session answers pace now, lives) cues) := by
  have hcoupled := Sitting.coupled_opened answers pace now hactive
  have hsolvent : Solvent m (.opened session answers pace now, lives) :=
    ⟨hcoupled, nofun, hup, fun _ => halive, fun _ => hleft⟩
  have hpresence : (Sitting.opened session answers pace now).presence = 1 :=
    if_pos (hcoupled.armed.symm.trans rfl)
  -- the first turn puts the gauge up, and the run takes it down if it ends
  have hposts := (posts_begin (.opened session answers pace now, lives)).andThen
    (posts_history hsolvent cues)
  have hsum : ∀ n : Int, 1 + (n - 1) = n := by omega
  rw [hpresence, hsum] at hposts
  exact hposts.balances rfl rfl hactive

/-- A candidate is back in time once, once not, and uses the clipboard while away a third time. -/
theorem metrics_balance_threeAways :
    let cues := [Cue.at 0 (.signal (.fullscreenChange false)),
      .at 1000 (.signal (.fullscreenChange true)),
      .at 2000 (.signal (.visibilityChange true)), .at 12000 .graceElapsed,
      .at 13000 (.signal (.fullscreenChange false)), .at 14000 (.signal .copy)]
    let as := deeds (.lasting Shelf.store 2) (.specimen 2, .empty) cues
    (Session.specimen 2).isActive = true ∧ 0 < (Session.specimen 2).livesRemaining ∧
      Shelf.empty.available = true ∧
      0 < Ledger.remaining Shelf.find? 2 (.session (Session.specimen 2).id) .empty ∧
      raised (.gracePeriods "started") as = 3 ∧ raised (.gracePeriods "recovered") as = 1 ∧
      raised (.gracePeriods "penalized") as = 1 ∧ raised (.gracePeriods "disarmed") as = 1 ∧
      raised (.sessions "disqualified") as = 1 ∧
      (reached (.lasting Shelf.store 2) (.specimen 2, .empty) cues).1.Balances as := by
  intro cues as
  have hactive : (Session.specimen 2).isActive = true := by decide
  have halive : 0 < (Session.specimen 2).livesRemaining := by decide
  have hleft : 0 < Ledger.remaining Shelf.find? 2 (.session (Session.specimen 2).id) .empty := by
    decide
  refine ⟨hactive, halive, rfl, hleft, by decide +kernel, by decide +kernel, by decide +kernel,
    by decide +kernel, by decide +kernel, ?_⟩
  exact metrics_balance 2 (.specimen 2) [] .specimen 0 .empty hactive halive rfl hleft cues

end Turn

end Invigilator
