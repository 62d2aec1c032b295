import Invigilator.Proofs.Sitting.Lives
import Invigilator.Proofs.Sitting.Penalties

/-!
# Why a session ended

A session that is over has a status, a mark whether it was handed in for the candidate, and the
seconds that were spent on it. None of them is looked up in what happened: they are written once,
from the clock and from the reason that whoever ended the session gave. Here they are compared
with the history. `Clocked` says that the clock is a count of the ticks that were handled, and
that a session which is over carries a `Verdict`: the reason that it gives is the reason there was.

The clock of a session that is over still shows when it ended, because nothing moves it any more;
so the verdict can be stated of the clock as it stands, at any later point of the run.
-/

namespace Invigilator

open Sitting (Change Coupled isActive_of_isRunning)

/-! ## The clock -/

/-- A clock goes by the times of a pace, and has counted so many seconds. -/
structure Countdown.Counts (pace : Pace) (n : Nat) (c : Countdown) : Prop where
  total : c.total = pace.totalSeconds
  unlock : c.unlock = pace.submitUnlockSeconds
  elapsed : c.elapsed = n
  bounded : n ≤ pace.totalSeconds
  /-- A clock that goes has a second left. -/
  early : c.isRunning = true → n < pace.totalSeconds

namespace Countdown

variable {pace : Pace} {n : Nat} {c : Countdown}

/-- To stop a clock changes its phase alone. -/
theorem stop_eq (c : Countdown) : c.stop = { c with phase := c.stop.phase } := by
  unfold stop
  split <;> rfl

theorem counts_start (h : 0 < pace.totalSeconds) :
    ((new pace.submitUnlockSeconds pace.timeCriticalSeconds).start pace.totalSeconds).1.Counts
      pace 0 :=
  ⟨rfl, rfl, rfl, Nat.zero_le _, fun _ => h⟩

theorem Counts.stop (h : c.Counts pace n) : c.stop.Counts pace n := by
  have hstopped := Sitting.stop_isRunning c
  constructor
  case total => rw [stop_eq]; exact h.total
  case unlock => rw [stop_eq]; exact h.unlock
  case elapsed => rw [stop_eq]; exact h.elapsed
  case bounded => exact h.bounded
  case early =>
    intro hgoes
    rw [hstopped] at hgoes
    cases hgoes

/-- One second of a clock that goes, with its report. -/
theorem Counts.tick_eq (h : c.Counts pace n) (hgoes : c.isRunning = true) :
    c.tick = ({ c with
        elapsed := n + 1, phase := if c.total - (n + 1) == 0 then .expired else .running },
      some { remaining := c.total - (n + 1), elapsed := n + 1, total := c.total,
             canSubmit := c.unlock ≤ n + 1, expired := c.total - (n + 1) == 0 }) := by
  have hleft := h.early hgoes
  have hphase : c.phase = .running := by simpa [isRunning] using hgoes
  have hmin : min (c.elapsed + 1) c.total = n + 1 := by
    rw [h.total, h.elapsed]
    omega
  unfold Countdown.tick
  rw [if_pos hphase, hmin]

/-- The clock counts on. The last second is the one with nothing remaining. -/
theorem Counts.tick (h : c.Counts pace n) (hgoes : c.isRunning = true) :
    c.tick.1.Counts pace (n + 1) ∧
      ∃ tick, c.tick.2 = some tick ∧
        (tick.expired = true → n + 1 = pace.totalSeconds ∧ tick.remaining = 0) := by
  have hleft := h.early hgoes
  rw [h.tick_eq hgoes]
  refine ⟨⟨h.total, h.unlock, rfl, hleft, fun hgoes => ?_⟩, _, rfl, fun hlast => ?_⟩
  · -- the clock would not go on behind the last second
    by_cases hend : n + 1 = pace.totalSeconds
    · simp [isRunning, h.total, hend] at hgoes
    · omega
  · have hzero : c.total - (n + 1) = 0 := by simpa using hlast
    refine ⟨?_, hzero⟩
    rw [h.total] at hzero
    omega

end Countdown

/-! ## Ticks in a history -/

namespace Turn

variable {σ : Type}

/-- The ticks that the clock reported, in order. -/
def ticked (h : List (Moment σ)) : List Tick :=
  h.filterMap fun m => if m.takes .tick then m.before.1.timer.tick.2 else none

/-- How many ticks were handled. -/
def tickCount (h : List (Moment σ)) : Nat := h.countP (·.takes .tick)

variable {ledger : LivesLedger σ} {s : Sitting × σ} {c : Cue}

theorem takes_running (x : Stimulus) (hrun : s.1.isRunning = true) :
    (moment ledger s c).takes x = decide (c.stimulus = x) := by
  rw [Moment.takes, moment_before, hrun, Bool.true_and]
  rfl

theorem takes_over (x : Stimulus) (hover : s.1.isRunning = false) :
    (moment ledger s c).takes x = false := by
  rw [Moment.takes, moment_before, hover, Bool.false_and]

/-- A moment that takes no tick adds none. -/
theorem tickCount_other {m : Moment σ} (h : List (Moment σ)) (hm : m.takes .tick = false) :
    tickCount (h ++ [m]) = tickCount h := by
  simp [tickCount, hm]

theorem ticked_other {m : Moment σ} (h : List (Moment σ)) (hm : m.takes .tick = false) :
    ticked (h ++ [m]) = ticked h := by
  simp [ticked, hm]

theorem tickCount_tick {m : Moment σ} (h : List (Moment σ)) (hm : m.takes .tick = true) :
    tickCount (h ++ [m]) = tickCount h + 1 := by
  simp [tickCount, hm]

theorem ticked_tick {m : Moment σ} {tick : Tick} (h : List (Moment σ))
    (hm : m.takes .tick = true) (htick : m.before.1.timer.tick.2 = some tick) :
    ticked (h ++ [m]) = ticked h ++ [tick] := by
  simp [ticked, hm, htick]

end Turn

/-! ## The verdict -/

/-- What a session that is over says of its end, compared with its clock and the ticks so far. -/
structure Verdict (s : Sitting) (ticks : List Tick) : Prop where
  spent : s.session.timeSpentSeconds = some s.timer.elapsed
  dated : s.session.completedAt.isSome = true
  /-- There was a reason: the candidate was allowed to hand it in, the time was up, or the lives
  were exhausted. -/
  founded : ∃ reason : Reason, s.session.status = reason.outcome ∧
    s.session.autoSubmitted = reason.isAutomatic ∧
    (reason = .user → s.timer.unlock ≤ s.timer.elapsed) ∧
    (reason = .timeExpired → s.timer.elapsed = s.timer.total ∧
      ticks.getLast?.map Tick.remaining = some 0)

/-- The end of a session for a reason, as its verdict. -/
theorem Verdict.of_ended {s : Sitting} {ticks : List Tick} {reason : Reason} {time : Stamp}
    (hactive : s.session.isActive = true)
    (huser : reason = .user → s.timer.unlock ≤ s.timer.elapsed)
    (hexpired : reason = .timeExpired → s.timer.elapsed = s.timer.total ∧
      ticks.getLast?.map Tick.remaining = some 0) :
    Verdict (s.ended reason time) ticks := by
  have htimer : (s.ended reason time).timer = s.timer.stop := rfl
  have hsession : (s.ended reason time).session =
      s.session.finish reason s.timer.elapsed time := rfl
  rw [Session.finish_active hactive] at hsession
  rw [Countdown.stop_eq] at htimer
  constructor
  case spent => rw [hsession, htimer]
  case dated => rw [hsession]; rfl
  case founded =>
    refine ⟨reason, by rw [hsession], by rw [hsession], ?_, ?_⟩
    · rw [htimer]; exact huser
    · rw [htimer]; exact hexpired

/-- A candidate who handed the exam in was allowed to. -/
theorem Verdict.handedIn {s : Sitting} {ticks : List Tick} (hv : Verdict s ticks)
    (hstatus : s.session.status = .completed) (hauto : s.session.autoSubmitted = false) :
    s.timer.unlock ≤ s.timer.elapsed := by
  obtain ⟨reason, houtcome, hmark, huser, -⟩ := hv.founded
  rw [hstatus] at houtcome
  rw [hauto] at hmark
  cases reason with
  | user => exact huser rfl
  | timeExpired => cases hmark
  | livesExhausted => cases houtcome

/-- An exam that was handed in for the candidate was out of time. -/
theorem Verdict.timedOut {s : Sitting} {ticks : List Tick} (hv : Verdict s ticks)
    (hstatus : s.session.status = .completed) (hauto : s.session.autoSubmitted = true) :
    s.timer.elapsed = s.timer.total ∧ ticks.getLast?.map Tick.remaining = some 0 := by
  obtain ⟨reason, houtcome, hmark, -, hexpired⟩ := hv.founded
  rw [hstatus] at houtcome
  rw [hauto] at hmark
  cases reason with
  | user => cases hmark
  | timeExpired => exact hexpired rfl
  | livesExhausted => cases houtcome

/-- A candidate does not disqualify themselves. -/
theorem Verdict.disqualified {s : Sitting} {ticks : List Tick} (hv : Verdict s ticks)
    (hstatus : s.session.status = .disqualified) : s.session.autoSubmitted = true := by
  obtain ⟨reason, houtcome, hmark, -⟩ := hv.founded
  rw [hstatus] at houtcome
  cases reason with
  | user => cases houtcome
  | timeExpired => cases houtcome
  | livesExhausted => exact hmark

/-- Lives that are exhausted are a reason in themselves. -/
theorem Verdict.of_exhausted {s : Sitting} {p : Prop} [Decidable p] {time : Stamp}
    (ticks : List Tick) (hactive : s.session.isActive = true)
    (hover : (s.endedIf p .livesExhausted time).session.isActive = false) :
    Verdict (s.endedIf p .livesExhausted time) ticks := by
  by_cases hp : p
  · rw [Sitting.endedIf, if_pos hp]
    exact .of_ended hactive Reason.noConfusion Reason.noConfusion
  · rw [Sitting.endedIf, if_neg hp, hactive] at hover
    cases hover

/-- The clock counts the ticks, and a session that is over has its verdict. -/
structure Clocked {σ : Type} (pace : Pace) (h : List (Moment σ)) (s : Sitting) : Prop where
  counts : s.timer.Counts pace (Turn.tickCount h)
  verdict : s.session.isActive = false → Verdict s (Turn.ticked h)

theorem counts_endedIf {s : Sitting} {p : Prop} [Decidable p] {reason : Reason} {time : Stamp}
    {pace : Pace} {n : Nat} (h : s.timer.Counts pace n) :
    (s.endedIf p reason time).timer.Counts pace n := by
  unfold Sitting.endedIf
  split
  · exact h.stop
  · exact h

namespace Sitting.Change

variable {σ : Type} {ledger : LivesLedger σ} {scene : Scene} {s t : Sitting} {lives left : σ}
  {x : Stimulus} {pace : Pace} {n : Nat}

/-- A tick moves the count, and nothing else does. -/
theorem counts (hx : Change ledger scene s lives x t left) (h : s.timer.Counts pace n)
    (hgoes : s.timer.isRunning = true) :
    t.timer.Counts pace (if x = .tick then n + 1 else n) := by
  cases hx with
  | quiet _ answers timer ticking notBack notCharged notLapsed passed =>
    rcases passed with ⟨rfl, rfl⟩ | ⟨hother, rfl⟩
    · exact (h.tick hgoes).1
    · rw [if_neg hother]
      exact h
  | opened => exact h
  | recovered => exact h
  | clipped => exact counts_endedIf h
  | penalized => exact counts_endedIf h
  | excused => exact h
  | expired => exact (h.tick hgoes).1.stop
  | submitted => exact h.stop
  | shut => exact h.stop

/-- An end has its verdict, whatever ended the session. Only an order to end it for a reason that is
not there is left out. -/
theorem verdict (hx : Change ledger scene s lives x t left) (h : s.timer.Counts pace n)
    (hgoes : s.timer.isRunning = true) (hactive : s.session.isActive = true)
    (hcue : ∀ reason, x = .submit reason → reason = .user) {ticks : List Tick}
    (hticks : ∀ tick, x = .tick → s.timer.tick.2 = some tick → ticks.getLast? = some tick)
    (hover : t.session.isActive = false) : Verdict t ticks := by
  -- whatever does not end the session leaves it active
  have hgoesOn : ¬s.session.isActive = false := by
    rw [hactive]
    exact Bool.noConfusion
  cases hx with
  | quiet => exact absurd hover hgoesOn
  | opened => exact absurd hover hgoesOn
  | recovered => exact absurd hover hgoesOn
  | clipped => exact .of_exhausted _ (by exact hactive) hover
  | penalized => exact .of_exhausted _ (by exact hactive) hover
  | excused => exact absurd hover hgoesOn
  | expired tick ticked last =>
    obtain ⟨hcounts, tick', htick', hlast⟩ := h.tick hgoes
    have hsame : tick' = tick := Option.some.inj (htick'.symm.trans ticked)
    subst hsame
    obtain ⟨hend, hzero⟩ := hlast last
    refine .of_ended (by exact hactive) Reason.noConfusion (fun _ => ⟨?_, ?_⟩)
    · exact hcounts.elapsed.trans (hend.trans hcounts.total.symm)
    · rw [hticks tick' rfl ticked, Option.map_some, hzero]
  | submitted reason unlocked =>
    have huser : reason = .user := hcue reason rfl
    subst huser
    refine .of_ended hactive (fun _ => ?_) Reason.noConfusion
    simpa [Countdown.canSubmit] using unlocked rfl
  | shut => exact absurd hover hgoesOn

end Sitting.Change

namespace Turn

variable {σ : Type} (ledger : LivesLedger σ) {pace : Pace} {h : List (Moment σ)} {s : Sitting × σ}
  {c : Cue}

/-- **The clock counts on, and an end has its verdict.** -/
theorem clocked_moment (hk : Clocked pace h s.1) (hc : s.1.Coupled)
    (hcue : ∀ reason, c.stimulus = .submit reason → reason = .user) :
    Clocked pace (h ++ [moment ledger s c]) (moment ledger s c).after.1 := by
  cases hrun : s.1.isRunning with
  | false =>
    have htakes : (Turn.moment ledger s c).takes .tick = false := takes_over .tick hrun
    refine ⟨?_, ?_⟩
    · rw [tickCount_other h htakes, moment_over ledger c hrun]
      exact hk.counts
    · rw [ticked_other h htakes, moment_over ledger c hrun]
      exact hk.verdict
  | true =>
    have hactive := isActive_of_isRunning hrun
    have hgoes : s.1.timer.isRunning = true := by rw [hc.ticking, hrun]
    have hchange := moment_change ledger c hrun hc
    have htakes : (Turn.moment ledger s c).takes .tick = decide (c.stimulus = .tick) :=
      takes_running .tick hrun
    -- the clock's own record of the step is the count and the last tick of the history
    refine ⟨?_, hchange.verdict hk.counts hgoes hactive hcue fun tick hx htick => ?_⟩
    · have hcount : tickCount (h ++ [Turn.moment ledger s c]) =
          if c.stimulus = .tick then tickCount h + 1 else tickCount h := by
        by_cases hx : c.stimulus = .tick
        · rw [decide_eq_true hx] at htakes
          rw [if_pos hx, tickCount_tick h htakes]
        · rw [decide_eq_false hx] at htakes
          rw [if_neg hx, tickCount_other h htakes]
      rw [hcount]
      exact hchange.counts hk.counts hgoes
    · rw [decide_eq_true hx] at htakes
      rw [ticked_tick h htakes htick, List.getLast?_concat]

theorem clocked_opened (session : Session) (answers : List Answer) (pace : Pace) (now : Instant)
    (h : 1 ≤ pace.totalSeconds) (hactive : session.isActive = true) :
    Clocked (σ := σ) pace [] (.opened session answers pace now) := by
  rw [Sitting.opened_eq]
  refine ⟨Countdown.counts_start h, fun hover => ?_⟩
  exact absurd (hactive.symm.trans hover) Bool.noConfusion

/-- The clock counts the ticks of every run. -/
theorem clocked_history (hk : Clocked (σ := σ) pace [] s.1) (hc : s.1.Coupled) (cues : List Cue)
    (hcues : ∀ c ∈ cues, ∀ reason, c.stimulus = .submit reason → reason = .user) :
    Clocked pace (history ledger s cues) (reached ledger s cues).1 := by
  induction cues using List.reverseRecOn with
  | nil => exact hk
  | append_singleton cues c ih =>
    have hbefore := ih fun d hd => hcues d (List.mem_append_left _ hd)
    have hcoupled := coupled_reached ledger hc cues
    rw [history_concat, reached_concat]
    have hlast := hcues c (List.mem_append_right _ (List.mem_singleton_self c))
    exact clocked_moment ledger hbefore hcoupled hlast

/-! ## Every end is justified -/

/-- A candidate who hands the exam in too early is told how long to wait, and nothing happens. -/
theorem submit_locked {n : Nat} (hcounts : s.1.timer.Counts pace n) (hrun : s.1.isRunning = true)
    (hearly : n < pace.submitUnlockSeconds) (scene : Scene) :
    (step ledger scene (.submit .user)).run s =
      ((.snapshot (.error (.submitLocked (pace.submitUnlockSeconds - n))), s), []) := by
  have hactive := isActive_of_isRunning hrun
  have hlocked : s.1.timer.canSubmit = false := by
    have hnot : ¬s.1.timer.unlock ≤ s.1.timer.elapsed := by
      rw [hcounts.unlock, hcounts.elapsed]
      omega
    simpa [Countdown.canSubmit] using hnot
  have hwait : s.1.timer.untilSubmit = pace.submitUnlockSeconds - n := by
    rw [Countdown.untilSubmit, hcounts.unlock, hcounts.elapsed]
  simp [step, handle, submit, run_bind, hrun, hactive, hlocked, hwait]

/-- What is true of a session that began with `m` lives, whenever one looks at it. -/
structure Justified (pace : Pace) (m : Nat) (h : List (Moment σ)) (s : Sitting × σ) : Prop where
  /-- It was handed in by the candidate: that was allowed by then. -/
  handedIn : s.1.session.status = .completed → s.1.session.autoSubmitted = false →
    ∃ spent, s.1.session.timeSpentSeconds = some spent ∧ pace.submitUnlockSeconds ≤ spent
  /-- It was handed in for the candidate: the time was up, and the clock had shown it. -/
  timedOut : s.1.session.status = .completed → s.1.session.autoSubmitted = true →
    s.1.session.timeSpentSeconds = some pace.totalSeconds ∧
      (ticked h).getLast?.map Tick.remaining = some 0
  /-- It was disqualified: a penalty was paid for every life. -/
  disqualified : s.1.session.status = .disqualified → s.1.session.autoSubmitted = true ∧
    s.1.session.livesRemaining = 0 ∧ s.1.violations.length = m
  /-- The time that was spent is the number of ticks. -/
  spent : s.1.session.status.isTerminal = true →
    s.1.session.timeSpentSeconds = some (tickCount h)
  bounded : tickCount h ≤ pace.totalSeconds
  dated : s.1.session.status.isTerminal = true → s.1.session.completedAt.isSome = true
  /-- It is not handed in before that is allowed. -/
  locked : ∀ scene, s.1.isRunning = true → tickCount h < pace.submitUnlockSeconds →
    (step ledger scene (.submit .user)).run s =
      ((.snapshot (.error (.submitLocked (pace.submitUnlockSeconds - tickCount h))), s), [])

/-- A clock that counts and accounts that are in order justify the end. -/
theorem justified_of_clocked {m : Nat} (hk : Clocked pace h s.1) (hin : InOrder ledger m s) :
    Justified ledger pace m h s := by
  have helapsed := hk.counts.elapsed
  have hverdict : s.1.session.status.isTerminal = true → Verdict s.1 (ticked h) := by
    intro hover
    refine hk.verdict ?_
    unfold Session.isActive
    cases hstatus : s.1.session.status <;> simp [hstatus, Status.isTerminal] at hover ⊢
  have hspent : s.1.session.status.isTerminal = true →
      s.1.session.timeSpentSeconds = some (tickCount h) := by
    intro hover
    rw [(hverdict hover).spent, helapsed]
  have hends : s.1.session.status = .completed → s.1.session.status.isTerminal = true := by
    intro hstatus
    rw [hstatus]
    rfl
  constructor
  case handedIn =>
    intro hstatus hauto
    have hunlocked := (hverdict (hends hstatus)).handedIn hstatus hauto
    rw [hk.counts.unlock, helapsed] at hunlocked
    exact ⟨tickCount h, hspent (hends hstatus), hunlocked⟩
  case timedOut =>
    intro hstatus hauto
    obtain ⟨hup, hlast⟩ := (hverdict (hends hstatus)).timedOut hstatus hauto
    rw [helapsed, hk.counts.total] at hup
    rw [← hup]
    exact ⟨hspent (hends hstatus), hlast⟩
  case disqualified =>
    intro hstatus
    have hterminal : s.1.session.status.isTerminal = true := by
      rw [hstatus]
      rfl
    have hzero := hin.ends.mpr hstatus
    -- no life is left, so there were as many penalties as lives
    have hbalance := hin.balance
    rw [hzero, ← hin.total] at hbalance
    exact ⟨(hverdict hterminal).disqualified hstatus, hzero, by omega⟩
  case spent => exact hspent
  case bounded => exact hk.counts.bounded
  case dated => exact fun hover => (hverdict hover).dated
  case locked =>
    intro scene hrun hearly
    exact submit_locked ledger hk.counts hrun hearly scene

/-- **Every end of a session is justified by what happened in it.** The candidate hands nothing in
for a reason but their own, and everything else comes in any order. -/
theorem ends_justified (id userId : String) (language : Language) (questions : Trio String)
    (m : Nat) (started : Stamp) (answers : List Answer) (pace : Pace) (now : Instant)
    (cues : List Cue) (htotal : 1 ≤ pace.totalSeconds) (hm : 1 ≤ m)
    (hcues : ∀ c ∈ cues, ∀ reason, c.stimulus = .submit reason → reason = .user) :
    Justified (.lasting Shelf.store m) pace m
      (history (.lasting Shelf.store m)
        (.opened (.begin id userId language questions m started) answers pace now, .empty) cues)
      (reached (.lasting Shelf.store m)
        (.opened (.begin id userId language questions m started) answers pace now, .empty) cues) := by
  have hcoupled : (Sitting.opened (.begin id userId language questions m started) answers pace
      now).Coupled := Sitting.coupled_opened answers pace now rfl
  have hclocked := clocked_opened (σ := Shelf) (.begin id userId language questions m started)
    answers pace now htotal rfl
  have hheld := held_opened (.begin id userId language questions m started) answers pace now rfl rfl
  have htally : Tally (.lasting Shelf.store m) Shelf.find? m [] _ :=
    tally_opened Shelf.store (.begin id userId language questions m started) answers pace now .empty
      rfl rfl rfl rfl
  have hnone : ∀ c ∈ cues, c.stimulus ≠ .submit .livesExhausted := by
    intro c hc hsubmit
    cases hcues c hc _ hsubmit
  refine justified_of_clocked _
    (clocked_history _ (s := (_, .empty)) hclocked hcoupled cues hcues)
    (inOrder_reached Shelf.store_honest Shelf.store_reliable hheld htally ?_ rfl cues hnone)
  exact iff_of_false nofun (Nat.pos_iff_ne_zero.mp hm)

/-- Two seconds are given, and none of them may be cut short: the candidate tries it after one. -/
theorem ends_justified_timeUp :
    (reached (.lasting Shelf.store 3)
        (.opened (.specimen 3) [] ⟨2, 2, 1, 10000, 1000⟩ 0, .empty)
        [.at 0 .tick, .at 500 (.submit .user), .at 1000 .tick]).1.session.timeSpentSeconds = some 2 ∧
      Justified (.lasting Shelf.store 3) ⟨2, 2, 1, 10000, 1000⟩ 3
        (history (.lasting Shelf.store 3)
          (.opened (.specimen 3) [] ⟨2, 2, 1, 10000, 1000⟩ 0, .empty)
          [.at 0 .tick, .at 500 (.submit .user), .at 1000 .tick])
        (reached (.lasting Shelf.store 3)
          (.opened (.specimen 3) [] ⟨2, 2, 1, 10000, 1000⟩ 0, .empty)
          [.at 0 .tick, .at 500 (.submit .user), .at 1000 .tick]) :=
  ⟨by decide +kernel,
    ends_justified "s-1" "u-1" .python ⟨"a", "b", "c"⟩ 3 default [] ⟨2, 2, 1, 10000, 1000⟩ 0 _
      (by decide) (by decide) (by simp [Cue.at])⟩

end Turn

end Invigilator
