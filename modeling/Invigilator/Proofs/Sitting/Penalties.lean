import Invigilator.Proofs.Sitting.Change
import Mathlib.Data.List.Forall2
import Mathlib.Data.List.Induction

/-!
# Penalties and their causes

A penalty has one of two causes: a use of the clipboard, which costs a life on the spot, or a
grace period that ran out. The second cause lies in the past of the penalty, so what is proved
here is about histories. A period is the stretch from the moment that filled the empty slot of
the timer to the moment at which that very timer went off, and the slot has held it ever since;
`RanOut` says so without a word about penalties or about the detector.

What makes the induction go through is `OpenSince`: at every point of a run, the pending grace
period can be traced back to the report that opened it, and the candidate has not come back
since. When its timer goes off, this is what the penalty needs; and no other period can claim
that timer, because two periods never hold the slot at once.
-/

namespace Invigilator

open Sitting (Change Coupled)

/-! ## Causes -/

namespace Sitting

/-- What a stimulus is charged for. -/
inductive Cause (s : Sitting) : Stimulus → ViolationType → Prop where
  | clipboard (signal : Signal) (kind : ViolationType) (use : signal.clipboard? = some kind) :
      Cause s (.signal signal) kind
  | lapse (g : Grace) (pending : s.detector.pending = some g) : Cause s .graceElapsed g.violation

variable {σ : Type} {ledger : LivesLedger σ} {scene : Scene} {s t : Sitting} {lives lives' : σ}
  {x : Stimulus}

theorem violations_endedIf (s : Sitting) (p : Prop) [Decidable p] (reason : Reason)
    (time : Stamp) : (s.endedIf p reason time).violations = s.violations := by
  unfold endedIf
  split <;> rfl

/-- **There is a penalty if there is a cause, and there is only one.** -/
theorem Change.charges (h : Change ledger scene s lives x t lives')
    (halive : 0 < s.session.livesRemaining) :
    (t.violations = s.violations ∧ ∀ kind, ¬Cause s x kind) ∨
      ∃ v, Cause s x v.violationType ∧ t.violations = s.violations ++ [v] := by
  cases h with
  | quiet x answers timer ticking notBack notCharged notLapsed =>
    -- a detector that stays quiet has seen no cause, unless no life is left
    refine Or.inl ⟨rfl, fun kind hcause => ?_⟩
    cases hcause with
    | clipboard signal kind use =>
      have hdead := notCharged signal rfl (by rw [use]; rfl)
      omega
    | lapse g pending =>
      rw [notLapsed rfl] at pending
      cases pending
  | opened signal kind g departure =>
    refine Or.inl ⟨rfl, fun kind' hcause => ?_⟩
    cases hcause with
    | clipboard _ _ use =>
      rw [Signal.clipboard?_of_departure? departure] at use
      cases use
  | recovered signal back =>
    refine Or.inl ⟨rfl, fun kind' hcause => ?_⟩
    cases hcause with
    | clipboard _ _ use =>
      rw [Signal.isReturn_of_clipboard? use] at back
      cases back
  | clipped signal kind use =>
    exact Or.inr ⟨_, .clipboard signal kind use, violations_endedIf _ _ _ _⟩
  | penalized g pending =>
    exact Or.inr ⟨_, .lapse g pending, violations_endedIf _ _ _ _⟩
  | excused g pending dead => omega
  | expired tick => exact Or.inl ⟨rfl, fun kind hcause => nomatch hcause⟩
  | submitted reason => exact Or.inl ⟨rfl, fun kind hcause => nomatch hcause⟩
  | shut => exact Or.inl ⟨rfl, fun kind hcause => nomatch hcause⟩

/-- A pending grace period was pending before, with its timer still going and the candidate still
away, or it has just been opened by a report of leaving. -/
theorem Change.pending (h : Change ledger scene s lives x t lives') (hrun : s.isRunning = true)
    (hc : s.Coupled) {g : Grace} (hg : t.detector.pending = some g) :
    (s.detector.pending = some g ∧ x ≠ .graceElapsed ∧
        ∀ signal, x = .signal signal → signal.isReturn = true →
          (s.detector.env.observe signal).isRecovered = false) ∨
      (s.detector.pending = none ∧ ∃ signal, x = .signal signal ∧
        signal.departure? = some g.violation ∧
        g.deadline = scene.now + s.detector.gracePeriod) := by
  have hactive := isActive_of_isRunning hrun
  -- a sitting that is over has nothing pending, so the changes that end it are out
  have hgoes : t.session.isActive = true := by
    refine isActive_of_isRunning (Bool.of_not_eq_false fun hover => ?_)
    rw [(h.coupled hrun hc).safe hover] at hg
    cases hg
  cases h with
  | quiet x answers timer ticking notBack notCharged notLapsed =>
    have hpending : s.detector.pending = some g := hg
    refine Or.inl ⟨hpending, fun hx => ?_, fun signal hx hback => notBack signal hx hback ?_⟩
    · rw [notLapsed hx] at hpending
      cases hpending
    · rw [hpending]
      rfl
  | opened signal kind g' departure safe alive opens =>
    cases hg
    refine Or.inr ⟨safe, signal, rfl, ?_, opens.deadline⟩
    rw [departure, opens.violation]
  | recovered signal => cases hg
  | clipped signal kind use =>
    rw [(endedIf_active (by exact hactive) hgoes).2] at hg
    refine Or.inl ⟨hg, Stimulus.noConfusion, fun signal' hx hback => ?_⟩
    cases hx
    rw [Signal.isReturn_of_clipboard? use] at hback
    cases hback
  | penalized g' =>
    -- the period that ran out is not pending any more
    rw [(endedIf_active (by exact hactive) hgoes).2] at hg
    cases hg
  | excused g' => cases hg
  | expired tick =>
    rw [ended_isActive _ _ (by exact hactive)] at hgoes
    cases hgoes
  | submitted reason =>
    rw [ended_isActive _ _ hactive] at hgoes
    cases hgoes
  | shut =>
    have hover : ({ s.disarmed with suspended := true } : Sitting).isRunning = false := by
      simp [isRunning]
    have hshut : Change ledger scene s lives .shutdown _ lives := .shut
    rw [(hshut.coupled hrun hc).safe hover] at hg
    cases hg

end Sitting

/-- A stimulus reached the sitting while it was running. -/
def Moment.takes {σ : Type} (m : Moment σ) (x : Stimulus) : Bool :=
  m.before.1.isRunning && m.cue.stimulus = x

/-! ## Grace periods in a history -/

namespace Turn

variable {σ : Type} {h : List (Moment σ)} {m : Moment σ} {i j k : Nat} {g : Grace} {grace : Nat}

/-- The environment that the reports of a history describe. -/
def watched (h : List (Moment σ)) : Environment :=
  h.foldl (fun e m => e.sees m.cue.stimulus) .nominal

/-- No timer goes off before its deadline. -/
def Timely (h : List (Moment σ)) : Prop :=
  ∀ m ∈ h, m.cue.stimulus = .graceElapsed →
    ∀ timer ∈ m.before.1.grace, timer.deadline ≤ m.cue.scene.now

instance (h : List (Moment σ)) : Decidable (Timely h) :=
  inferInstanceAs (Decidable (∀ m ∈ h, m.cue.stimulus = .graceElapsed →
    ∀ timer ∈ m.before.1.grace, timer.deadline ≤ m.cue.scene.now))

/-- A timer was started at one moment, and was in the slot from then on until another. -/
structure Spans (h : List (Moment σ)) (timer : GraceTimer) (i j : Nat) : Prop where
  later : i < j
  started : ∃ m, h[i]? = some m ∧ m.before.1.grace = none ∧ m.after.1.grace = some timer
  held : ∀ k m, i < k → k ≤ j → h[k]? = some m → m.before.1.grace = some timer

/-- A grace period that was opened at one moment ran out at another: its timer went off. -/
def RanOut (h : List (Moment σ)) (i j : Nat) : Prop :=
  ∃ timer, Spans h timer i j ∧ ∃ m, h[j]? = some m ∧ m.cue.stimulus = .graceElapsed

/-- A penalty is the right one for a grace period that was opened at one moment and ran out at
another. -/
structure Penalized (grace : Nat) (h : List (Moment σ)) (i j : Nat) (v : Violation) : Prop where
  /-- The period was opened by a report of that kind of violation. -/
  reported : ∃ m signal, h[i]? = some m ∧ m.cue.stimulus = .signal signal ∧
    signal.departure? = some v.violationType
  /-- The penalty is recorded when the period runs out. -/
  recorded : ∃ m, h[j]? = some m ∧ m.after.1.violations = m.before.1.violations ++ [v]
  /-- The candidate had a full period to come back. -/
  patient : ∀ m m', h[i]? = some m → h[j]? = some m' → m.cue.scene.now + grace ≤ m'.cue.scene.now
  /-- The candidate did not come back meanwhile. -/
  away : ∀ k m signal, i < k → k < j → h[k]? = some m → m.cue.stimulus = .signal signal →
    signal.isReturn = true → (watched (h.take (k + 1))).isRecovered = false

/-- A pending grace period, traced back to the moment that opened it. -/
structure OpenSince (grace : Nat) (h : List (Moment σ)) (i : Nat) (g : Grace) : Prop where
  started : ∃ m signal, h[i]? = some m ∧ m.before.1.grace = none ∧
    m.after.1.grace = some g.timer ∧ m.cue.stimulus = .signal signal ∧
    signal.departure? = some g.violation ∧ g.deadline = m.cue.scene.now + grace
  held : ∀ k m, i < k → h[k]? = some m → m.before.1.grace = some g.timer
  going : ∀ k m, i < k → h[k]? = some m → m.cue.stimulus ≠ .graceElapsed
  away : ∀ k m signal, i < k → h[k]? = some m → m.cue.stimulus = .signal signal →
    signal.isReturn = true → (watched (h.take (k + 1))).isRecovered = false

@[simp] theorem watched_concat (h : List (Moment σ)) (m : Moment σ) :
    watched (h ++ [m]) = (watched h).sees m.cue.stimulus := by
  simp [watched]

/-- What stands in a history that grew by one moment. -/
theorem getElem?_concat {m' : Moment σ} :
    (h ++ [m])[k]? = some m' ↔ h[k]? = some m' ∨ k = h.length ∧ m' = m := by
  rcases Nat.lt_trichotomy k h.length with hk | rfl | hk
  · rw [List.getElem?_append_left hk]
    exact ⟨Or.inl, fun h' => h'.resolve_right (fun h' => by omega)⟩
  · rw [List.getElem?_concat_length, List.getElem?_eq_none (Nat.le_refl _), Option.some.injEq]
    exact ⟨fun h' => Or.inr ⟨rfl, h'.symm⟩, fun h' => (h'.resolve_left (by simp)).2.symm⟩
  · rw [List.getElem?_eq_none (by simp; omega), List.getElem?_eq_none (by omega)]
    constructor
    · intro hnone
      cases hnone
    · rintro (hnone | ⟨heq, -⟩)
      · cases hnone
      · omega

theorem lt_length {m : Moment σ} (hk : h[k]? = some m) : k < h.length :=
  (List.getElem?_eq_some_iff.mp hk).1

/-- Below its end, a history that grew is the history before. -/
theorem getElem?_below {m' : Moment σ} (hk : k < h.length) (h' : (h ++ [m])[k]? = some m') :
    h[k]? = some m' := by
  rwa [List.getElem?_append_left hk] at h'

theorem take_below (hk : k < h.length) : (h ++ [m]).take (k + 1) = h.take (k + 1) :=
  List.take_append_of_le_length hk

/-- The timer of one period cannot be in the slot of another. -/
theorem Spans.unique {i' : Nat} {timer timer' : GraceTimer} (hs : Spans h timer i j)
    (hs' : Spans h timer' i' j) : i = i' := by
  obtain ⟨m, hm, hempty, _⟩ := hs.started
  obtain ⟨m', hm', hempty', _⟩ := hs'.started
  rcases Nat.lt_trichotomy i i' with hlt | heq | hlt
  · have hfull := hs.held i' m' hlt (Nat.le_of_lt hs'.later) hm'
    rw [hempty'] at hfull
    cases hfull
  · exact heq
  · have hfull := hs'.held i m hlt (Nat.le_of_lt hs.later) hm
    rw [hempty] at hfull
    cases hfull

/-! ### Histories that grow -/

theorem Spans.concat_iff {timer : GraceTimer} (hj : j < h.length) :
    Spans (h ++ [m]) timer i j ↔ Spans h timer i j := by
  constructor
  · rintro ⟨later, ⟨m', hm', hstart⟩, held⟩
    exact ⟨later, ⟨m', getElem?_below (by omega) hm', hstart⟩,
      fun k m' hik hkj hk => held k m' hik hkj (getElem?_concat.mpr (Or.inl hk))⟩
  · rintro ⟨later, ⟨m', hm', hstart⟩, held⟩
    exact ⟨later, ⟨m', getElem?_concat.mpr (Or.inl hm'), hstart⟩,
      fun k m' hik hkj hk => held k m' hik hkj (getElem?_below (by omega) hk)⟩

theorem RanOut.concat_iff (hj : j < h.length) : RanOut (h ++ [m]) i j ↔ RanOut h i j := by
  unfold RanOut
  rw [List.getElem?_append_left hj]
  simp only [Spans.concat_iff hj]

theorem RanOut.lt_length (hr : RanOut h i j) : j < h.length := by
  obtain ⟨_, _, m, hm, _⟩ := hr
  exact Turn.lt_length hm

theorem Penalized.concat {v : Violation} (hp : Penalized grace h i j v) (hi : i < h.length)
    (hj : j < h.length) : Penalized grace (h ++ [m]) i j v := by
  obtain ⟨m₁, signal, hm₁, hsignal, hkind⟩ := hp.reported
  obtain ⟨m₂, hm₂, hrecord⟩ := hp.recorded
  constructor
  case reported => exact ⟨m₁, signal, getElem?_concat.mpr (Or.inl hm₁), hsignal, hkind⟩
  case recorded => exact ⟨m₂, getElem?_concat.mpr (Or.inl hm₂), hrecord⟩
  case patient =>
    intro a b ha hb
    exact hp.patient a b (getElem?_below hi ha) (getElem?_below hj hb)
  case away =>
    intro k a signal hik hkj ha hsignal hback
    have hk : k < h.length := by omega
    rw [take_below hk]
    exact hp.away k a signal hik hkj (getElem?_below hk ha) hsignal hback

/-- A grace period stays open for one more moment. -/
theorem OpenSince.concat (ho : OpenSince grace h i g) (hslot : m.before.1.grace = some g.timer)
    (hgoing : m.cue.stimulus ≠ .graceElapsed)
    (haway : ∀ signal, m.cue.stimulus = .signal signal → signal.isReturn = true →
      ((watched h).observe signal).isRecovered = false) :
    OpenSince grace (h ++ [m]) i g := by
  obtain ⟨m₁, signal, hm₁, hstart⟩ := ho.started
  -- what holds of the moments in between holds of the new one as well
  constructor
  case started => exact ⟨m₁, signal, getElem?_concat.mpr (Or.inl hm₁), hstart⟩
  case held =>
    intro k a hik ha
    rcases getElem?_concat.mp ha with ha | ⟨rfl, rfl⟩
    · exact ho.held k a hik ha
    · exact hslot
  case going =>
    intro k a hik ha
    rcases getElem?_concat.mp ha with ha | ⟨rfl, rfl⟩
    · exact ho.going k a hik ha
    · exact hgoing
  case away =>
    intro k a signal hik ha hsignal hback
    rcases getElem?_concat.mp ha with ha | ⟨rfl, rfl⟩
    · rw [take_below (Turn.lt_length ha)]
      exact ho.away k a signal hik ha hsignal hback
    · rw [List.take_of_length_le (by simp), watched_concat, hsignal]
      exact haway signal hsignal hback

/-- The timer of an open grace period is in the slot when the next stimulus comes. -/
theorem OpenSince.spans (ho : OpenSince grace h i g) (hslot : m.before.1.grace = some g.timer) :
    Spans (h ++ [m]) g.timer i h.length := by
  obtain ⟨m₁, signal, hm₁, hempty, hfull, _⟩ := ho.started
  constructor
  case later => exact Turn.lt_length hm₁
  case started => exact ⟨m₁, getElem?_concat.mpr (Or.inl hm₁), hempty, hfull⟩
  case held =>
    intro k a hik _ ha
    rcases getElem?_concat.mp ha with ha | ⟨rfl, rfl⟩
    · exact ho.held k a hik ha
    · exact hslot

/-- A period that ran out did so before the open one was opened. -/
theorem OpenSince.after_ranOut {i' : Nat} (ho : OpenSince grace h i g) (hr : RanOut h i' j) :
    j < i := by
  obtain ⟨timer, hspans, m', hm', hfired⟩ := hr
  obtain ⟨m₁, _, hm₁, hempty, _⟩ := ho.started
  rcases Nat.lt_trichotomy j i with hlt | rfl | hlt
  · exact hlt
  · have hfull := hspans.held j m₁ hspans.later (Nat.le_refl j) hm₁
    rw [hempty] at hfull
    cases hfull
  · exact absurd hfired (ho.going j m' hlt hm')

/-! ## What is known at every point of a run -/

/-- The state of a sitting in the light of its history. -/
structure Watch (grace : Nat) (h : List (Moment σ)) (s : Sitting) : Prop where
  coupled : s.Coupled
  /-- Only a session that is over has no life left. -/
  alive : s.session.isActive = true → 0 < s.session.livesRemaining
  /-- The detector has seen every report. -/
  env : s.isRunning = true → s.detector.env = watched h
  pace : s.detector.gracePeriod = grace
  /-- A pending grace period goes back to a report of leaving. -/
  traced : ∀ g, s.detector.pending = some g → ∃ i, OpenSince grace h i g

variable (ledger : LivesLedger σ)

theorem watch_opened (session : Session) (answers : List Answer) (pace : Pace) (now : Instant)
    (hactive : session.isActive = true) (halive : 0 < session.livesRemaining) :
    Watch pace.grace ([] : List (Moment σ)) (.opened session answers pace now) where
  coupled := Sitting.coupled_opened answers pace now hactive
  alive _ := halive
  env _ := rfl
  pace := rfl
  traced g hg := by rw [Sitting.opened_eq] at hg; cases hg

/-- What is known of a running sitting is known after one more moment. -/
theorem Watch.moment {s : Sitting × σ} (hw : Watch grace h s.1) (c : Cue) :
    Watch grace (h ++ [moment ledger s c]) (moment ledger s c).after.1 := by
  cases hrun : s.1.isRunning with
  | false =>
    rw [moment_over ledger c hrun]
    constructor
    case coupled => exact hw.coupled
    case alive => exact hw.alive
    case env =>
      intro h
      rw [hrun] at h
      cases h
    case pace => exact hw.pace
    case traced =>
      intro g hg
      rw [hw.coupled.safe hrun] at hg
      cases hg
  | true =>
    have hchange := moment_change ledger c hrun hw.coupled
    have hcoupled := hchange.coupled hrun hw.coupled
    have halive := hw.alive (Sitting.isActive_of_isRunning hrun)
    constructor
    case coupled => exact hcoupled
    case alive => exact hchange.alive hrun halive
    case env =>
      intro _
      rw [watched_concat, hchange.sees.1, hw.env hrun]
      rfl
    case pace => rw [hchange.sees.2, hw.pace]
    case traced =>
      intro g hg
      rcases hchange.pending hrun hw.coupled hg with ⟨hpending, hgoing, haway⟩ |
        ⟨hsafe, signal, hsignal, hkind, hdeadline⟩
      · -- an old period: the same moment opened it
        obtain ⟨i, ho⟩ := hw.traced g hpending
        have hslot : s.1.grace = some g.timer := by rw [hw.coupled.timed, hpending]; rfl
        rw [hw.env hrun] at haway
        exact ⟨i, ho.concat hslot hgoing haway⟩
      · have hempty : s.1.grace = none := by rw [hw.coupled.timed, hsafe]; rfl
        have hfull : (Turn.moment ledger s c).after.1.grace = some g.timer := by
          rw [hcoupled.timed, hg]; rfl
        rw [hw.pace] at hdeadline
        refine ⟨h.length, ⟨_, signal, List.getElem?_concat_length, hempty, hfull, hsignal, hkind,
          hdeadline⟩, ?_, ?_, ?_⟩
        -- the period is new, and nothing has happened since
        all_goals
          intro k a
          intros
          have hk := Turn.lt_length (by assumption : (h ++ [Turn.moment ledger s c])[k]? = some a)
          rw [List.length_append, List.length_singleton] at hk
          omega

/-- What is known at the beginning is known at every point of a run. -/
theorem watch_history {s : Sitting × σ} (hw : Watch grace ([] : List (Moment σ)) s.1)
    (cues : List Cue) :
    Watch grace (history ledger s cues) (reached ledger s cues).1 := by
  induction cues using List.reverseRecOn with
  | nil => exact hw
  | append_singleton cues c ih =>
    rw [history_concat, reached_concat]
    exact ih.moment ledger c

/-! ## Leaving the exam -/

/-- The penalties for leaving the exam, in order. -/
def departures (violations : List Violation) : List Violation :=
  violations.filter fun v => !v.violationType.isInstantaneous

/-- The penalties for leaving correspond, in order, to the grace periods that ran out. -/
def Matched (grace : Nat) (h : List (Moment σ)) (violations : List Violation) : Prop :=
  ∃ periods : List (Nat × Nat),
    periods.Pairwise (fun p q => p.2 < q.1) ∧
      (∀ p, p ∈ periods ↔ RanOut h p.1 p.2) ∧
      List.Forall₂ (fun p v => Penalized grace h p.1 p.2 v) periods (departures violations)

theorem departures_concat (violations : List Violation) (v : Violation) :
    departures (violations ++ [v]) =
      departures violations ++ if v.violationType.isInstantaneous then [] else [v] := by
  unfold departures
  rw [List.filter_append, List.filter_singleton]
  cases v.violationType.isInstantaneous <;> rfl

theorem forall₂_penalized_concat {periods : List (Nat × Nat)} {vs : List Violation}
    (hp : List.Forall₂ (fun p v => Penalized grace h p.1 p.2 v) periods vs)
    (hran : ∀ p ∈ periods, RanOut h p.1 p.2) :
    List.Forall₂ (fun p v => Penalized grace (h ++ [m]) p.1 p.2 v) periods vs := by
  induction hp with
  | nil => exact .nil
  | @cons p v periods vs hhead _ ih =>
    have hj : p.2 < h.length := (hran p List.mem_cons_self).lt_length
    obtain ⟨_, hspans, _⟩ := hran p List.mem_cons_self
    have hi : p.1 < h.length := Nat.lt_trans hspans.later hj
    exact .cons (hhead.concat hi hj) (ih fun q hq => hran q (List.mem_cons_of_mem p hq))

/-- A moment at which no period runs out leaves the correspondence as it is. -/
theorem Matched.idle {violations : List Violation} (hm : Matched grace h violations)
    (hidle : ∀ i, ¬RanOut (h ++ [m]) i h.length) : Matched grace (h ++ [m]) violations := by
  obtain ⟨periods, hsorted, hran, hpaid⟩ := hm
  refine ⟨periods, hsorted, fun p => ?_, forall₂_penalized_concat hpaid fun p hp => (hran p).mp hp⟩
  rw [hran p]
  constructor
  · intro hr
    exact (RanOut.concat_iff hr.lt_length).mpr hr
  · intro hr
    have hlt := hr.lt_length
    rw [List.length_append, List.length_singleton] at hlt
    rcases Nat.lt_or_eq_of_le (Nat.le_of_lt_succ hlt) with hlt | heq
    · exact (RanOut.concat_iff hlt).mp hr
    · rw [heq] at hr
      exact absurd hr (hidle p.1)

/-- The penalty for the open grace period, which runs out, is added to both sides. -/
theorem Matched.lapse {violations : List Violation} {v : Violation}
    (hm : Matched grace h violations) (ho : OpenSince grace h i g)
    (hran : RanOut (h ++ [m]) i h.length) (hpaid : Penalized grace (h ++ [m]) i h.length v)
    (hkind : v.violationType.isInstantaneous = false) :
    Matched grace (h ++ [m]) (violations ++ [v]) := by
  obtain ⟨periods, hsorted, hiff, hold⟩ := hm
  refine ⟨periods ++ [(i, h.length)], ?_, fun p => ?_, ?_⟩
  · rw [List.pairwise_append]
    refine ⟨hsorted, List.pairwise_singleton _ _, fun p hp q hq => ?_⟩
    rw [List.mem_singleton.mp hq]
    exact ho.after_ranOut ((hiff p).mp hp)
  · rw [List.mem_append, List.mem_singleton, hiff p]
    -- in the last moment no other period can run out than the one that is open
    constructor
    · rintro (hr | rfl)
      · exact (RanOut.concat_iff hr.lt_length).mpr hr
      · exact hran
    · intro hr
      have hlt := hr.lt_length
      rw [List.length_append, List.length_singleton] at hlt
      rcases Nat.lt_or_eq_of_le (Nat.le_of_lt_succ hlt) with hlt | heq
      · exact Or.inl ((RanOut.concat_iff hlt).mp hr)
      · rw [heq] at hr
        obtain ⟨_, hspans, _⟩ := hr
        obtain ⟨_, hspans', _⟩ := hran
        exact Or.inr (Prod.ext (hspans.unique hspans') heq)
  · rw [departures_concat, hkind, if_neg Bool.false_ne_true]
    exact List.rel_append (forall₂_penalized_concat hold fun p hp => (hiff p).mp hp)
      (.cons hpaid .nil)

/-- What is recorded for the open grace period when its timer goes off. -/
theorem OpenSince.penalized {v : Violation} (ho : OpenSince grace h i g)
    (hdue : g.deadline ≤ m.cue.scene.now) (hkind : v.violationType = g.violation)
    (hrecord : m.after.1.violations = m.before.1.violations ++ [v]) :
    Penalized grace (h ++ [m]) i h.length v := by
  obtain ⟨m₁, signal, hm₁, _, _, hsignal, hdeparture, hdeadline⟩ := ho.started
  have hi := Turn.lt_length hm₁
  constructor
  case reported =>
    refine ⟨m₁, signal, getElem?_concat.mpr (Or.inl hm₁), hsignal, ?_⟩
    rw [hdeparture, hkind]
  case recorded => exact ⟨m, List.getElem?_concat_length, hrecord⟩
  case patient =>
    intro a b ha hb
    have ha' := getElem?_below hi ha
    rw [hm₁, Option.some.injEq] at ha'
    rw [List.getElem?_concat_length, Option.some.injEq] at hb
    rw [← ha', ← hb, ← hdeadline]
    exact hdue
  case away =>
    intro k a signal hik hkj ha hsignal hback
    rw [take_below hkj]
    exact ho.away k a signal hik (getElem?_below hkj ha) hsignal hback

/-- A period runs out when the timer of the pending one goes off, and at no other moment. -/
theorem Watch.lapse_of_ranOut {s : Sitting × σ} (hw : Watch grace h s.1) (c : Cue)
    (hr : RanOut (h ++ [Turn.moment ledger s c]) i h.length) :
    c.stimulus = .graceElapsed ∧ ∃ g, s.1.detector.pending = some g := by
  obtain ⟨timer, hspans, m', hm', hfired⟩ := hr
  have hlast := List.getElem?_concat_length (l := h) (a := Turn.moment ledger s c)
  have hslot : s.1.grace = some timer := hspans.held _ _ hspans.later (Nat.le_refl _) hlast
  rw [hlast, Option.some.injEq] at hm'
  subst hm'
  rw [hw.coupled.timed, Option.map_eq_some_iff] at hslot
  obtain ⟨g, hpending, _⟩ := hslot
  exact ⟨hfired, g, hpending⟩

/-- **The correspondence holds on after every moment.** -/
theorem Matched.moment {s : Sitting × σ} (hm : Matched grace h s.1.violations)
    (hw : Watch grace h s.1) (c : Cue)
    (htimely : c.stimulus = .graceElapsed →
      ∀ timer ∈ s.1.grace, timer.deadline ≤ c.scene.now) :
    Matched grace (h ++ [moment ledger s c]) (moment ledger s c).after.1.violations := by
  cases hrun : s.1.isRunning with
  | false =>
    rw [moment_over ledger c hrun]
    refine hm.idle fun i hr => ?_
    obtain ⟨_, g, hpending⟩ := hw.lapse_of_ranOut ledger c hr
    rw [hw.coupled.safe hrun] at hpending
    cases hpending
  | true =>
    have hchange := moment_change ledger c hrun hw.coupled
    have halive := hw.alive (Sitting.isActive_of_isRunning hrun)
    rcases hchange.charges halive with ⟨hsame, hfree⟩ | ⟨v, hcause, hrecord⟩
    · rw [hsame]
      refine hm.idle fun i hr => ?_
      obtain ⟨hfired, g, hpending⟩ := hw.lapse_of_ranOut ledger c hr
      refine hfree g.violation ?_
      rw [hfired]
      exact .lapse g hpending
    · rw [hrecord]
      generalize hx : c.stimulus = x at hcause
      generalize hkind : v.violationType = kind at hcause
      cases hcause with
      | clipboard signal _ use =>
        -- charged on the spot: neither side of the correspondence takes notice
        have hinstant : v.violationType.isInstantaneous = true := by
          rw [hkind]
          exact Signal.isInstantaneous_of_clipboard? use
        have hmatched := hm.idle (m := Turn.moment ledger s c) fun i hr => by
          have hfired := (hw.lapse_of_ranOut ledger c hr).1
          rw [hx] at hfired
          cases hfired
        unfold Matched at hmatched ⊢
        rwa [departures_concat, hinstant, if_pos rfl, List.append_nil]
      | lapse g hpending =>
        -- the penalty and the period that ran out meet here, and go back to one moment
        obtain ⟨i, ho⟩ := hw.traced g hpending
        have hslot : s.1.grace = some g.timer := by rw [hw.coupled.timed, hpending]; rfl
        have hdue : g.deadline ≤ c.scene.now := htimely hx g.timer hslot
        have hran : RanOut (h ++ [Turn.moment ledger s c]) i h.length :=
          ⟨g.timer, ho.spans hslot, _, List.getElem?_concat_length, hx⟩
        refine hm.lapse ho hran (ho.penalized hdue hkind hrecord) ?_
        obtain ⟨_, _, _, _, _, _, hdeparture, _⟩ := ho.started
        rw [hkind]
        exact Signal.isInstantaneous_of_departure? hdeparture

theorem matched_history {s : Sitting × σ} (hw : Watch grace ([] : List (Moment σ)) s.1)
    (hnone : s.1.violations = []) (cues : List Cue) (htimely : Timely (history ledger s cues)) :
    Matched grace (history ledger s cues) (reached ledger s cues).1.violations := by
  induction cues using List.reverseRecOn with
  | nil =>
    refine ⟨[], .nil, fun p => ?_, ?_⟩
    · refine ⟨nofun, fun hr => ?_⟩
      have hlt := hr.lt_length
      cases hlt
    · rw [reached_nil, hnone]
      exact .nil
  | append_singleton cues c ih =>
    rw [history_concat] at htimely ⊢
    rw [reached_concat]
    refine (ih fun m hm => htimely m (List.mem_append_left _ hm)).moment ledger
      (watch_history ledger hw cues) c ?_
    exact htimely _ (List.mem_append_right _ (List.mem_singleton_self _))


/-! ## The clipboard -/

/-- Of all stimuli, the kind of violation that a use of the clipboard is has one cause. -/
theorem Watch.cause_iff {s : Sitting} {x : Stimulus} {signal : Signal} {kind kind' : ViolationType}
    (hw : Watch grace h s) (use : signal.clipboard? = some kind) (hcause : s.Cause x kind') :
    kind' = kind ↔ x = .signal signal := by
  cases hcause with
  | clipboard signal' _ use' =>
    constructor
    · rintro rfl
      rw [Signal.eq_of_clipboard? use' use]
    · intro hsame
      cases hsame
      exact Option.some.inj (use'.symm.trans use)
  | lapse g hpending =>
    refine ⟨fun hsame => ?_, nofun⟩
    obtain ⟨_, ho⟩ := hw.traced g hpending
    obtain ⟨_, _, _, _, _, _, hdeparture, _⟩ := ho.started
    have hslow := Signal.isInstantaneous_of_departure? hdeparture
    rw [hsame, Signal.isInstantaneous_of_clipboard? use] at hslow
    cases hslow

theorem countP_moment {s : Sitting × σ} {signal : Signal} {kind : ViolationType}
    (hw : Watch grace h s.1) (c : Cue) (use : signal.clipboard? = some kind) :
    (moment ledger s c).after.1.violations.countP (·.violationType = kind) =
      s.1.violations.countP (·.violationType = kind) +
        if (moment ledger s c).takes (.signal signal) then 1 else 0 := by
  cases hrun : s.1.isRunning with
  | false =>
    have htakes : (moment ledger s c).takes (.signal signal) = false := by
      rw [Moment.takes, moment_before, hrun, Bool.false_and]
    rw [htakes, moment_over ledger c hrun]
    rfl
  | true =>
    have htakes : (moment ledger s c).takes (.signal signal) =
        decide (c.stimulus = .signal signal) := by
      rw [Moment.takes, moment_before, hrun, Bool.true_and]
      rfl
    have halive := hw.alive (Sitting.isActive_of_isRunning hrun)
    rcases (moment_change ledger c hrun hw.coupled).charges halive with
      ⟨hsame, hfree⟩ | ⟨v, hcause, hrecord⟩
    · have hother : c.stimulus ≠ .signal signal := by
        intro hx
        refine hfree kind ?_
        rw [hx]
        exact .clipboard signal kind use
      rw [htakes, hsame, decide_eq_false hother]
      rfl
    · rw [htakes, hrecord, List.countP_append, List.countP_singleton]
      simp only [hw.cause_iff use hcause]

theorem countP_history {s : Sitting × σ} {signal : Signal} {kind : ViolationType}
    (hw : Watch grace ([] : List (Moment σ)) s.1) (hnone : s.1.violations = []) (cues : List Cue)
    (use : signal.clipboard? = some kind) :
    (reached ledger s cues).1.violations.countP (·.violationType = kind) =
      (history ledger s cues).countP (·.takes (.signal signal)) := by
  induction cues using List.reverseRecOn with
  | nil => rw [reached_nil, hnone]; rfl
  | append_singleton cues c ih =>
    rw [reached_concat, history_concat, List.countP_append, List.countP_singleton,
      countP_moment ledger (watch_history ledger hw cues) c use, ih]

/-! ## Every penalty and its cause -/

/-- The penalties that a history has led to are those that it deserves. -/
structure Deserved (grace : Nat) (h : List (Moment σ)) (violations : List Violation) : Prop where
  /-- Every use of the clipboard while the exam ran was penalized once. -/
  clipboard : ∀ signal kind, signal.clipboard? = some kind →
    violations.countP (·.violationType = kind) = h.countP (·.takes (.signal signal))
  /-- Every grace period that ran out was penalized once, in order, and nothing else was taken for
  leaving the exam. -/
  leaving : Matched grace h violations
  /-- No moment adds a penalty without a cause, and none adds more than one. -/
  nothingElse : ∀ m ∈ h, m.after.1.violations = m.before.1.violations ∨
    m.before.1.isRunning = true ∧ ∃ v, m.before.1.Cause m.cue.stimulus v.violationType ∧
      m.after.1.violations = m.before.1.violations ++ [v]

theorem violations_of_mem {s : Sitting × σ} (hw : Watch grace ([] : List (Moment σ)) s.1)
    {cues : List Cue} (hm : m ∈ history ledger s cues) :
    m.after.1.violations = m.before.1.violations ∨
      m.before.1.isRunning = true ∧ ∃ v, m.before.1.Cause m.cue.stimulus v.violationType ∧
        m.after.1.violations = m.before.1.violations ++ [v] := by
  obtain ⟨first, c, rest, _, rfl⟩ := exists_of_mem_history ledger hm
  have hw' := watch_history ledger hw first
  cases hrun : (reached ledger s first).1.isRunning with
  | false =>
    rw [moment_over ledger c hrun]
    exact Or.inl rfl
  | true =>
    have halive := hw'.alive (Sitting.isActive_of_isRunning hrun)
    rcases (moment_change ledger c hrun hw'.coupled).charges halive with
      ⟨hsame, _⟩ | ⟨v, hcause, hrecord⟩
    · exact Or.inl hsame
    · exact Or.inr ⟨hrun, v, hcause, hrecord⟩

/-- **Penalties correspond to their causes.** With timers that do not go off early, and whatever
comes in whatever order and at whatever times: a use of the clipboard is penalized on the spot,
every grace period that runs out is penalized once, in order, for what opened it, and nothing else
is ever penalized. This takes no account of what the ledger says. -/
theorem penalties_deserved (session : Session) (answers : List Answer) (pace : Pace)
    (now : Instant) (lives : σ) (cues : List Cue) (hactive : session.isActive = true)
    (halive : 0 < session.livesRemaining)
    (htimely : Timely (history ledger (.opened session answers pace now, lives) cues)) :
    Deserved pace.grace (history ledger (.opened session answers pace now, lives) cues)
      (reached ledger (.opened session answers pace now, lives) cues).1.violations := by
  have hw : Watch pace.grace ([] : List (Moment σ)) (.opened session answers pace now) :=
    watch_opened session answers pace now hactive halive
  exact ⟨fun signal kind use => countP_history ledger hw rfl cues use,
    matched_history ledger hw rfl cues htimely, fun m hm => violations_of_mem ledger hw hm⟩

/-- A candidate leaves the screen and does not come back in time, copies, leaves again and is back
before the time is up. -/
def excursions : List Cue :=
  [.at 0 (.signal (.fullscreenChange false)), .at 10000 .graceElapsed, .at 10500 (.signal .copy),
    .at 10600 (.signal (.fullscreenChange true)), .at 11000 (.signal (.visibilityChange true)),
    .at 12000 (.signal (.visibilityChange false)), .at 13000 .graceElapsed]

theorem penalties_deserved_excursions :
    (reached (.lasting Shelf.store 3) (Sitting.specimen 3, .empty) excursions).1.violations.map
        (·.violationType) = [.fullscreenExit, .copy] ∧
      Deserved 10000 (history (.lasting Shelf.store 3) (Sitting.specimen 3, .empty) excursions)
        (reached (.lasting Shelf.store 3) (Sitting.specimen 3, .empty) excursions).1.violations :=
  ⟨by decide +kernel, penalties_deserved (.lasting Shelf.store 3) (.specimen 3) [] .specimen 0
    .empty excursions rfl (by decide) (by decide +kernel)⟩

end Turn

end Invigilator
