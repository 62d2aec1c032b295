import Invigilator.Exam.Countdown
import Mathlib.Data.List.Induction

/-!
# The life of a countdown

A countdown is asked three things, in any order and as often as one likes: to start, to tick and to
stop. It keeps no record of what it was asked. Still it starts once at most, and in every history it
is the same tick that reports the end: counted from the start, the one that has the number of the
total, unless a stop came before it.

`Stage` reads the countdown off its history, one constructor for each stage of its life, and
`stage_afterAll` says that every history is at one of them. What is known of a countdown is then
known of five explicit values, and no proof has to follow the calls again.
-/

namespace Invigilator

namespace Countdown

/-- What a countdown can be asked. -/
inductive Order where
  | start (total : Nat)
  | tick
  | stop
deriving DecidableEq, Repr

/-- The countdown after an order. -/
def obey (c : Countdown) : Order → Countdown
  | .start total => (c.start total).1
  | .tick => c.tick.1
  | .stop => c.stop

/-- The countdown after some orders, one by one. -/
def afterAll (c : Countdown) (orders : List Order) : Countdown := orders.foldl obey c

/-- Neither a start nor a stop is among the orders. -/
def Untouched (orders : List Order) : Prop := ∀ o ∈ orders, o = .tick

/-- A tick among the orders reported the end. -/
def Rang (unlock critical : Nat) (orders : List Order) : Prop :=
  ∃ first rest report, orders = first ++ .tick :: rest ∧
    ((new unlock critical).afterAll first).tick.2 = some report ∧ report.expired = true

theorem afterAll_concat (c : Countdown) (orders : List Order) (o : Order) :
    c.afterAll (orders ++ [o]) = (c.afterAll orders).obey o :=
  List.foldl_append

theorem afterAll_append (c : Countdown) (first rest : List Order) :
    c.afterAll (first ++ rest) = (c.afterAll first).afterAll rest :=
  List.foldl_append

/-! ## Stages -/

/-- Where a countdown is in its life, and what was asked of it until then. -/
inductive Stage (unlock critical : Nat) : List Order → Countdown → Prop where
  /-- It was neither started nor stopped. -/
  | idle {orders : List Order} (untouched : Untouched orders) :
      Stage unlock critical orders (new unlock critical)
  /-- It was started, and has counted the ticks since. -/
  | running {before since : List Order} {total : Nat} (untouched : Untouched before)
      (unstopped : .stop ∉ since) (early : since.count .tick < max total 1) :
      Stage unlock critical (before ++ .start total :: since)
        ⟨.running, total, since.count .tick, unlock, critical⟩
  /-- It was started, and has ticked to its end. -/
  | expired {before since after : List Order} {total : Nat} (untouched : Untouched before)
      (unstopped : .stop ∉ since) (last : since.count .tick + 1 = max total 1) :
      Stage unlock critical (before ++ .start total :: (since ++ .tick :: after))
        ⟨.expired, total, total, unlock, critical⟩
  /-- It was started, and stopped in time. -/
  | stopped {before since after : List Order} {total : Nat} (untouched : Untouched before)
      (unstopped : .stop ∉ since) (early : since.count .tick < max total 1) :
      Stage unlock critical (before ++ .start total :: (since ++ .stop :: after))
        ⟨.stopped, total, since.count .tick, unlock, critical⟩
  /-- It was stopped before it was started. -/
  | spoiled {before after : List Order} (untouched : Untouched before) :
      Stage unlock critical (before ++ .stop :: after) ⟨.stopped, 0, 0, unlock, critical⟩

variable {unlock critical : Nat} {orders : List Order} {c : Countdown}

/-- A running countdown that has ticks left ticks on, or reports the end. -/
theorem tick_running_of_lt {total n : Nat} (h : n < max total 1) :
    (⟨.running, total, n, unlock, critical⟩ : Countdown).tick =
      if n + 1 = max total 1 then
        (⟨.expired, total, total, unlock, critical⟩,
          some ⟨0, total, total, unlock ≤ total, true⟩)
      else
        (⟨.running, total, n + 1, unlock, critical⟩,
          some ⟨total - (n + 1), n + 1, total, unlock ≤ n + 1, false⟩) := by
  by_cases hlast : n + 1 = max total 1
  · have helapsed : min (n + 1) total = total := by omega
    rw [if_pos hlast]
    simp [tick, helapsed]
  · have helapsed : min (n + 1) total = n + 1 := by omega
    have hleft : (total - (n + 1) == 0) = false := by
      rw [beq_eq_false_iff_ne]
      omega
    rw [if_neg hlast]
    simp [tick, helapsed, hleft]

/-- A countdown that is over minds no order. -/
theorem obey_of_over (h : c.phase = .expired ∨ c.phase = .stopped) (o : Order) :
    c.obey o = c := by
  obtain ⟨phase, total, elapsed, unlock, critical⟩ := c
  rcases h with rfl | rfl <;> cases o <;> rfl

/-- **One more order leads to the next stage.** -/
theorem Stage.obey (h : Stage unlock critical orders c) (o : Order) :
    Stage unlock critical (orders ++ [o]) (c.obey o) := by
  cases h with
  | idle untouched =>
    cases o with
    | start total =>
      exact .running untouched List.not_mem_nil
        (Nat.lt_of_lt_of_le Nat.zero_lt_one (Nat.le_max_right ..))
    | tick =>
      exact .idle (List.forall_mem_append.mpr ⟨untouched, List.forall_mem_singleton.mpr rfl⟩)
    | stop => exact .spoiled untouched
  | @running before since total untouched unstopped early =>
    rw [List.append_assoc, List.cons_append]
    cases o with
    | start other =>
      have hcount : (since ++ [Order.start other]).count .tick = since.count .tick := by simp
      have hstage : Stage unlock critical (before ++ .start total :: (since ++ [.start other]))
          ⟨.running, total, (since ++ [Order.start other]).count .tick, unlock, critical⟩ :=
        .running untouched (by simp [unstopped]) (by rwa [hcount])
      rwa [hcount] at hstage
    | tick =>
      rw [Countdown.obey, tick_running_of_lt early]
      by_cases hlast : since.count .tick + 1 = max total 1
      · rw [if_pos hlast]
        exact .expired untouched unstopped hlast
      · have hcount : (since ++ [Order.tick]).count .tick = since.count .tick + 1 := by simp
        rw [if_neg hlast]
        have hstage : Stage unlock critical (before ++ .start total :: (since ++ [.tick]))
            ⟨.running, total, (since ++ [Order.tick]).count .tick, unlock, critical⟩ :=
          .running untouched (by simp [unstopped]) (by omega)
        rwa [hcount] at hstage
    | stop => exact .stopped untouched unstopped early
  | expired untouched unstopped last =>
    rw [obey_of_over (.inl rfl), List.append_assoc, List.cons_append, List.append_assoc,
      List.cons_append]
    exact .expired untouched unstopped last
  | stopped untouched unstopped early =>
    rw [obey_of_over (.inr rfl), List.append_assoc, List.cons_append, List.append_assoc,
      List.cons_append]
    exact .stopped untouched unstopped early
  | spoiled untouched =>
    rw [obey_of_over (.inr rfl), List.append_assoc, List.cons_append]
    exact .spoiled untouched

/-- **Every history is at one of the stages.** -/
theorem stage_afterAll (unlock critical : Nat) (orders : List Order) :
    Stage unlock critical orders ((new unlock critical).afterAll orders) := by
  induction orders using List.reverseRecOn with
  | nil => exact .idle (List.forall_mem_nil _)
  | append_singleton orders o ih =>
    rw [afterAll_concat]
    exact ih.obey o

/-! ## What a history settles -/

/-- Neither a start nor a stop is a tick, so the first of them is found in one way only. -/
theorem first_unique {before before' after after' : List Order} {o o' : Order}
    (h : Untouched before) (h' : Untouched before') (ho : o ≠ .tick) (ho' : o' ≠ .tick)
    (heq : before ++ o :: after = before' ++ o' :: after') : o = o' ∧ after = after' := by
  induction before generalizing before' with
  | nil =>
    cases before' with
    | nil => exact List.cons.inj heq
    | cons x before' => exact absurd ((List.cons.inj heq).1.trans (h' x List.mem_cons_self)) ho
  | cons x before ih =>
    cases before' with
    | nil => exact absurd ((List.cons.inj heq).1.symm.trans (h x List.mem_cons_self)) ho'
    | cons y before' =>
      exact ih (fun o ho => h o (List.mem_cons_of_mem _ ho))
        (fun o ho => h' o (List.mem_cons_of_mem _ ho)) (List.cons.inj heq).2

/-- What stands behind ticks is no tick, so the orders are not all ticks. -/
theorem not_untouched {before after : List Order} {o : Order} (ho : o ≠ .tick) :
    ¬Untouched (before ++ o :: after) :=
  fun h => ho (h o (List.mem_append_right _ List.mem_cons_self))

namespace Stage

variable (h : Stage unlock critical orders c)

include h

theorem unlock_eq : c.unlock = unlock := by
  cases h <;> rfl

theorem elapsed_le : c.elapsed ≤ c.total := by
  cases h with
  | idle => exact Nat.le_refl 0
  | @running before since total untouched unstopped early =>
    show since.count .tick ≤ total
    omega
  | expired => exact Nat.le_refl _
  | @stopped before since after total untouched unstopped early =>
    show since.count .tick ≤ total
    omega
  | spoiled => exact Nat.le_refl 0

/-- A countdown that was not touched starts. -/
theorem start_eq (huntouched : Untouched orders) (total : Nat) :
    c.start total = ({ c with phase := .running, total := total }, true) := by
  cases h with
  | idle => rfl
  | running => exact absurd huntouched (not_untouched Order.noConfusion)
  | expired => exact absurd huntouched (not_untouched Order.noConfusion)
  | stopped => exact absurd huntouched (not_untouched Order.noConfusion)
  | spoiled => exact absurd huntouched (not_untouched Order.noConfusion)

/-- Behind a start or a stop no start is heeded. -/
theorem start_refused (htouched : ¬Untouched orders) (total : Nat) :
    c.start total = (c, false) := by
  cases h with
  | idle untouched => exact absurd untouched htouched
  | running => rfl
  | expired => rfl
  | stopped => rfl
  | spoiled => rfl

/-- The first start fixes the total. -/
theorem total_eq {before after : List Order} {total : Nat}
    (horders : orders = before ++ .start total :: after) (hbefore : Untouched before) :
    c.total = total := by
  have hsame : ∀ {first rest : List Order} {o : Order}, Untouched first → o ≠ .tick →
      first ++ o :: rest = before ++ .start total :: after → o = .start total :=
    fun hfirst ho heq => (first_unique hfirst hbefore ho Order.noConfusion heq).1
  cases h with
  | idle untouched =>
    rw [horders] at untouched
    exact absurd untouched (not_untouched Order.noConfusion)
  | running untouched => exact Order.start.inj (hsame untouched Order.noConfusion horders)
  | expired untouched => exact Order.start.inj (hsame untouched Order.noConfusion horders)
  | stopped untouched => exact Order.start.inj (hsame untouched Order.noConfusion horders)
  | spoiled untouched => cases hsame untouched Order.noConfusion horders

/-- What a running countdown adds to is below its total, or a total of none below one. -/
theorem elapsed_lt (hgoes : c.isRunning = true) : c.elapsed < max c.total 1 := by
  cases h with
  | running untouched unstopped early => exact early
  | idle => cases hgoes
  | expired => cases hgoes
  | stopped => cases hgoes
  | spoiled => cases hgoes

/-- The total is none or was asked for. -/
theorem start_mem (hgoes : c.isRunning = true) : .start c.total ∈ orders := by
  cases h with
  | running => exact List.mem_append_right _ List.mem_cons_self
  | idle => cases hgoes
  | expired => cases hgoes
  | stopped => cases hgoes
  | spoiled => cases hgoes

theorem elapsed_tick (hgoes : c.isRunning = true) :
    c.tick.1.elapsed = if c.total = 0 then 0 else c.elapsed + 1 := by
  have hleft := h.elapsed_lt hgoes
  have hphase : c.phase = .running := by simpa [isRunning] using hgoes
  simp only [tick, hphase, ↓reduceIte]
  split <;> omega

/-- The seconds that have passed do not come back. -/
theorem elapsed_le_obey (o : Order) : c.elapsed ≤ (c.obey o).elapsed := by
  cases h with
  | idle => cases o <;> exact Nat.le_refl 0
  | @running before since total untouched unstopped early =>
    cases o with
    | start other => exact Nat.le_refl _
    | stop => exact Nat.le_refl _
    | tick =>
      rw [Countdown.obey, tick_running_of_lt early]
      split
      · show since.count .tick ≤ total
        omega
      · exact Nat.le_succ _
  | expired => exact Nat.le_of_eq (congrArg elapsed (obey_of_over (.inl rfl) o)).symm
  | stopped => exact Nat.le_of_eq (congrArg elapsed (obey_of_over (.inr rfl) o)).symm
  | spoiled => exact Nat.le_of_eq (congrArg elapsed (obey_of_over (.inr rfl) o)).symm

/-- Once a countdown was started or stopped, its total stays. -/
theorem total_obey (htouched : ¬Untouched orders) (o : Order) : (c.obey o).total = c.total := by
  cases h with
  | idle untouched => exact absurd untouched htouched
  | running untouched unstopped early =>
    cases o with
    | start other => rfl
    | stop => rfl
    | tick =>
      rw [Countdown.obey, tick_running_of_lt early]
      split <;> rfl
  | expired => rw [obey_of_over (.inl rfl)]
  | stopped => rw [obey_of_over (.inr rfl)]
  | spoiled => rw [obey_of_over (.inr rfl)]

/-- **The tick that reports the end** is the one with the number of the total, counted from the
start, or the first if the total is none; a stop before it takes its place. -/
theorem tick_reports_iff :
    (∃ report, c.tick.2 = some report ∧ report.expired = true) ↔
      ∃ before total since, orders = before ++ .start total :: since ∧ Untouched before ∧
        .stop ∉ since ∧ since.count .tick + 1 = max total 1 := by
  constructor
  · rintro ⟨report, hreport, hexpired⟩
    cases h with
    | @running before since total untouched unstopped early =>
      refine ⟨before, total, since, rfl, untouched, unstopped, ?_⟩
      by_contra hearly
      rw [tick_running_of_lt early, if_neg hearly] at hreport
      obtain rfl := Option.some.inj hreport
      cases hexpired
    | idle => cases hreport
    | expired => cases hreport
    | stopped => cases hreport
    | spoiled => cases hreport
  · rintro ⟨before, total, since, horders, hbefore, hunstopped, hlast⟩
    -- of the stages only the running one has such a history, and then it is that history
    have hsame : ∀ {first rest : List Order} {o : Order}, Untouched first → o ≠ .tick →
        first ++ o :: rest = before ++ .start total :: since → o = .start total ∧ rest = since :=
      fun hfirst ho heq => first_unique hfirst hbefore ho Order.noConfusion heq
    cases h with
    | idle untouched =>
      rw [horders] at untouched
      exact absurd untouched (not_untouched Order.noConfusion)
    | running untouched unstopped early =>
      obtain ⟨htotal, rfl⟩ := hsame untouched Order.noConfusion horders
      obtain rfl := Order.start.inj htotal
      rw [tick_running_of_lt early, if_pos hlast]
      exact ⟨_, rfl, rfl⟩
    | expired untouched unstopped last =>
      obtain ⟨htotal, rfl⟩ := hsame untouched Order.noConfusion horders
      obtain rfl := Order.start.inj htotal
      rw [List.count_append, List.count_cons_self] at hlast
      omega
    | stopped untouched =>
      obtain ⟨-, rfl⟩ := hsame untouched Order.noConfusion horders
      exact absurd (List.mem_append_right _ List.mem_cons_self) hunstopped
    | spoiled untouched => cases (hsame untouched Order.noConfusion horders).1

/-- Behind a stop a countdown is over. -/
theorem over_of_stop (hstop : .stop ∈ orders) : c.phase = .expired ∨ c.phase = .stopped := by
  cases h with
  | idle untouched => cases untouched _ hstop
  | running untouched unstopped =>
    rcases List.mem_append.mp hstop with hstop | hstop
    · cases untouched _ hstop
    · rcases List.mem_cons.mp hstop with hstop | hstop
      · cases hstop
      · exact absurd hstop unstopped
  | expired => exact .inl rfl
  | stopped => exact .inr rfl
  | spoiled => exact .inr rfl

end Stage

/-! ## Runs -/

/-- A countdown that is over stays as it is. -/
theorem afterAll_of_over (h : c.phase = .expired ∨ c.phase = .stopped) (orders : List Order) :
    c.afterAll orders = c := by
  induction orders with
  | nil => rfl
  | cons o orders ih =>
    show (c.obey o).afterAll orders = c
    rw [obey_of_over h, ih]

theorem elapsed_le_afterAll (unlock critical : Nat) (first rest : List Order) :
    ((new unlock critical).afterAll first).elapsed ≤
      ((new unlock critical).afterAll (first ++ rest)).elapsed := by
  induction rest using List.reverseRecOn with
  | nil => exact Nat.le_of_eq (by rw [List.append_nil])
  | append_singleton rest o ih =>
    rw [← List.append_assoc, afterAll_concat]
    exact Nat.le_trans ih ((stage_afterAll unlock critical _).elapsed_le_obey o)

theorem total_afterAll (unlock critical : Nat) {first : List Order} (hfirst : ¬Untouched first)
    (rest : List Order) :
    ((new unlock critical).afterAll (first ++ rest)).total =
      ((new unlock critical).afterAll first).total := by
  induction rest using List.reverseRecOn with
  | nil => rw [List.append_nil]
  | append_singleton rest o ih =>
    rw [← List.append_assoc, afterAll_concat, ← ih]
    refine (stage_afterAll unlock critical _).total_obey (fun h => hfirst fun x hx => ?_) o
    exact h x (List.mem_append_left _ hx)

/-- A stop that does not find the countdown expired leaves it stopped. -/
theorem phase_stop (h : c.phase ≠ .expired) : c.stop.phase = .stopped := by
  obtain ⟨phase, total, elapsed, unlock, critical⟩ := c
  cases phase with
  | expired => exact absurd rfl h
  | idle => rfl
  | running => rfl
  | stopped => rfl

/-- A countdown has expired if and only if it has reported the end. -/
theorem phase_eq_expired_iff (unlock critical : Nat) (orders : List Order) :
    ((new unlock critical).afterAll orders).phase = .expired ↔ Rang unlock critical orders := by
  constructor
  · intro hphase
    have hstage := stage_afterAll unlock critical orders
    generalize (new unlock critical).afterAll orders = c at hphase hstage
    cases hstage with
    | @expired before since after total untouched unstopped last =>
      obtain ⟨report, hreport, hexpired⟩ := (stage_afterAll unlock critical _).tick_reports_iff.mpr
        ⟨before, total, since, rfl, untouched, unstopped, last⟩
      exact ⟨_, after, report, by rw [List.append_assoc, List.cons_append], hreport, hexpired⟩
    | idle => cases hphase
    | running => cases hphase
    | stopped => cases hphase
    | spoiled => cases hphase
  · rintro ⟨first, rest, report, rfl, hreport, hexpired⟩
    have hover : ((new unlock critical).afterAll first).tick.1.phase = .expired := by
      unfold tick at hreport ⊢
      split at hreport
      · rename_i hphase
        obtain rfl := Option.some.inj hreport
        simpa [hphase] using hexpired
      · cases hreport
    have hsplit : first ++ Order.tick :: rest = (first ++ [.tick]) ++ rest := by simp
    have hobey : (new unlock critical).afterAll (first ++ [.tick]) =
        ((new unlock critical).afterAll first).tick.1 := afterAll_concat ..
    rw [hsplit, afterAll_append, hobey, afterAll_of_over (.inl hover), hover]

/-! ## The laws of a countdown -/

/-- What holds of a new countdown after some orders. -/
structure Lawful (unlock critical : Nat) (orders : List Order) (c : Countdown) : Prop where
  /-- A start takes effect if there was no start and no stop before it, -/
  starts : Untouched orders →
    ∀ total, c.start total = ({ c with phase := .running, total := total }, true)
  /-- any other has none, -/
  refuses : ¬Untouched orders → ∀ total, c.start total = (c, false)
  /-- and the one that takes effect fixes the total. -/
  total_fixed : ∀ before total after, orders = before ++ .start total :: after →
    Untouched before → c.total = total
  balanced : c.elapsed + c.remaining = c.total
  bounded : c.elapsed ≤ c.total
  /-- The only sum that is ever formed, one more second of a running countdown, fits into 64 bits if
  the totals do. -/
  fits : (∀ total, .start total ∈ orders → total < Nat.pow 2 64) → c.isRunning = true →
    c.elapsed + 1 < Nat.pow 2 64
  /-- A tick counts a second, unless there is none to count. -/
  counts : c.isRunning = true → c.tick.1.elapsed = if c.total = 0 then 0 else c.elapsed + 1
  /-- From the start on, what remains never rises. -/
  sinks : ∀ first rest, orders = first ++ rest → ¬Untouched first →
    c.remaining ≤ ((new unlock critical).afterAll first).remaining
  /-- The end is reported by one tick: the one that has the number of the total, or the first if the
  total is none, counted from the start, and no stop in between. -/
  ends_iff : (∃ report, c.tick.2 = some report ∧ report.expired = true) ↔
    ∃ before total since, orders = before ++ .start total :: since ∧ Untouched before ∧
      .stop ∉ since ∧ since.count .tick + 1 = max total 1
  /-- Behind a stop, and behind the end, there are no ticks and no starts. -/
  rests : .stop ∈ orders ∨ Rang unlock critical orders →
    c.tick = (c, none) ∧ ∀ total, c.start total = (c, false)
  /-- A stop that comes before the end prevents it for good. -/
  spares : ∀ before after, orders = before ++ .stop :: after → ¬Rang unlock critical before →
    ¬Rang unlock critical orders ∧ c.isExpired = false
  /-- A permission to submit is not taken back. -/
  stays : ∀ first rest, orders = first ++ rest →
    ((new unlock critical).afterAll first).canSubmit = true → c.canSubmit = true
  unlocked_iff : c.untilSubmit = 0 ↔ c.canSubmit = true

/-- **A countdown runs once, whatever is asked of it and in whatever order.** -/
theorem runs_once (unlock critical : Nat) (orders : List Order) :
    Lawful unlock critical orders ((new unlock critical).afterAll orders) := by
  have hstage := stage_afterAll unlock critical orders
  have hover : .stop ∈ orders ∨ Rang unlock critical orders →
      ((new unlock critical).afterAll orders).phase = .expired ∨
        ((new unlock critical).afterAll orders).phase = .stopped := by
    rintro (hstop | hrang)
    · exact hstage.over_of_stop hstop
    · exact .inl ((phase_eq_expired_iff ..).mpr hrang)
  constructor
  case starts => exact hstage.start_eq
  case refuses => exact hstage.start_refused
  case total_fixed => exact fun before total after => hstage.total_eq
  case balanced => exact Nat.add_sub_cancel' hstage.elapsed_le
  case bounded => exact hstage.elapsed_le
  case fits =>
    intro hfit hgoes
    have hlt := hstage.elapsed_lt hgoes
    have htotal := hfit _ (hstage.start_mem hgoes)
    have hone : 1 < Nat.pow 2 64 := by decide
    exact Nat.lt_of_le_of_lt hlt (Nat.max_lt.mpr ⟨htotal, hone⟩)
  case counts => exact hstage.elapsed_tick
  case sinks =>
    rintro first rest rfl hfirst
    have helapsed := elapsed_le_afterAll unlock critical first rest
    have htotal := total_afterAll unlock critical hfirst rest
    unfold remaining
    omega
  case ends_iff => exact hstage.tick_reports_iff
  case rests =>
    intro h
    rcases hover h with hphase | hphase <;> simp [tick, start, hphase]
  case spares =>
    rintro before after rfl hquiet
    have hleft := (phase_eq_expired_iff unlock critical before).not.mpr hquiet
    have hstopped :
        ((new unlock critical).afterAll (before ++ .stop :: after)).phase = .stopped := by
      have hphase := phase_stop hleft
      rw [afterAll_append]
      show (((new unlock critical).afterAll before).stop.afterAll after).phase = .stopped
      rw [afterAll_of_over (.inr hphase), hphase]
    have hnot : ¬((new unlock critical).afterAll (before ++ .stop :: after)).phase = .expired := by
      rw [hstopped]
      exact Phase.noConfusion
    exact ⟨(phase_eq_expired_iff ..).not.mp hnot, beq_eq_false_iff_ne.mpr hnot⟩
  case stays =>
    rintro first rest rfl hfirst
    have helapsed := elapsed_le_afterAll unlock critical first rest
    have hunlock := (stage_afterAll unlock critical first).unlock_eq
    simp only [canSubmit, decide_eq_true_eq, hunlock, hstage.unlock_eq] at hfirst ⊢
    exact Nat.le_trans hfirst helapsed
  case unlocked_iff => simp [untilSubmit, canSubmit, Nat.sub_eq_zero_iff_le]

/-- Two seconds, counted across a second start; the stop comes too late. -/
example :
    ((new 1 1).afterAll [.tick, .start 2, .tick, .start 9, .tick, .stop]).phase = .expired := by
  decide

end Countdown

end Invigilator
