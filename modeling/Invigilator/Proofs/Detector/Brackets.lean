import Invigilator.Proofs.Detector.Course
import Mathlib.Data.List.Induction

/-!
# Grace periods are well bracketed

A course opens grace periods and resolves them: it cancels them, or their timers go off.
`Bracketed` says that these come in pairs, whatever the events and their contexts are. Periods are
numbered upwards, one is resolved before the next opens, and until then neither its kind nor its
deadline changes. A number is used for one penalty at most, and for none after it was cancelled.

The argument for the last is not about times. A number that was given and is not pending any more
is `Past`, and stays so, because later periods have later numbers. A penalty is always that of
the pending period, so it uses its number up; and `pending_opened` traces it back to the opening
of that period, with nothing in between that resolves it.
-/

namespace Invigilator

/-- The number of the grace period that an effect opens. -/
def Effect.opens? : Effect → Option Nat
  | .startGrace _ generation => some generation
  | .cancelGrace _ => none
  | .loseLife _ => none
  | .autoSubmit => none
  | .directive _ => none

def Effect.isLoss : Effect → Bool
  | .loseLife _ => true
  | .startGrace .. => false
  | .cancelGrace _ => false
  | .autoSubmit => false
  | .directive _ => false

namespace Detector

namespace Transition

/-- A grace period opens, and is pending afterwards. -/
def Opens (t : Transition) (g : Grace) : Prop :=
  .startGrace g.deadline g.generation ∈ t.effects ∧ t.after.pending = some g

/-- The pending grace period is cancelled, or the timer with a number goes off. -/
def Resolves (t : Transition) (generation : Nat) : Prop :=
  (∃ reason, .cancelGrace reason ∈ t.effects) ∨ t.input.event = .graceElapsed generation

/-- A life is lost because the timer with a number goes off. -/
def penalizes (t : Transition) (generation : Nat) : Bool :=
  t.input.event = .graceElapsed generation && t.effects.any Effect.isLoss

/-- The numbers of the grace periods that open. -/
def started (t : Transition) : List Nat := t.effects.filterMap Effect.opens?

/-- What an effect of a transition tells about it. -/
def Tells (t : Transition) : Effect → Prop
  | .startGrace deadline generation =>
    t.before.pending = none ∧
      ∃ violation, t.after.pending = some ⟨violation, deadline, generation⟩
  | .cancelGrace _ => (∃ g, t.before.pending = some g) ∧ t.after.pending = none
  | .loseLife kind =>
    0 < t.input.ctx.livesRemaining ∧
      ((∃ s, t.input.event = .signal s ∧ s.clipboard? = some kind) ∨
        ∃ g, t.before.pending = some g ∧ g.violation = kind ∧
          t.input.event = .graceElapsed g.generation ∧ t.after.pending = none)
  | .autoSubmit =>
    t.input.ctx.livesRemaining = 1 ∧
      ∃ g, t.before.pending = some g ∧ .loseLife g.violation ∈ t.effects
  | .directive _ => True

end Transition

variable {d : Detector} {x : Input} {t : Transition} {generation : Nat}

/-! ## What the effects of a transition tell -/

/-- The acts of a penalty: one life, if there is one, and the end with the last. -/
theorem acts_penalty (kind : ViolationType) (ctx : DetectorContext) :
    acts (penalty kind ctx) =
      if ctx.livesRemaining = 0 then []
      else if ctx.livesRemaining = 1 then [.loseLife kind, .autoSubmit] else [.loseLife kind] := by
  unfold penalty
  by_cases hdead : ctx.livesRemaining = 0
  · rw [if_pos hdead, if_pos hdead]
    rfl
  · by_cases hlast : ctx.livesRemaining = 1
    · rw [if_neg hdead, if_neg hdead, if_pos hlast, if_neg (by omega)]
      rfl
    · rw [if_neg hdead, if_neg hdead, if_neg hlast, if_pos (by omega)]
      rfl

/-- While there is a life to lose, a penalty takes it. -/
theorem loseLife_mem_penalty {kind : ViolationType} {ctx : DetectorContext}
    (halive : 0 < ctx.livesRemaining) : .loseLife kind ∈ penalty kind ctx := by
  have hlives : ctx.livesRemaining ≠ 0 := Nat.pos_iff_ne_zero.mp halive
  unfold penalty
  rw [if_neg hlives]
  split <;> exact List.mem_cons_self

/-- A grace period that runs out costs a life, if there is one, and with the last comes the order
to submit. -/
theorem mem_lapsed {g : Grace} {e : Effect}
    (hcharged : acts t.effects = acts (penalty g.violation t.input.ctx)) (h : e ∈ acts t.effects) :
    0 < t.input.ctx.livesRemaining ∧ .loseLife g.violation ∈ t.effects ∧
      (e = .loseLife g.violation ∨ e = .autoSubmit ∧ t.input.ctx.livesRemaining = 1) := by
  have hloss : .loseLife g.violation ∈ acts t.effects ↔ .loseLife g.violation ∈ t.effects :=
    mem_acts rfl
  rw [← hloss]
  rw [hcharged, acts_penalty] at h ⊢
  by_cases hdead : t.input.ctx.livesRemaining = 0
  · rw [if_pos hdead] at h
    cases h
  · rw [if_neg hdead] at h ⊢
    by_cases hlast : t.input.ctx.livesRemaining = 1
    · rw [if_pos hlast] at h ⊢
      simp only [List.mem_cons, List.not_mem_nil, or_false] at h
      exact ⟨by omega, List.mem_cons_self, h.imp_right fun h => ⟨h, hlast⟩⟩
    · rw [if_neg hlast, List.mem_singleton] at h
      rw [if_neg hlast]
      exact ⟨by omega, List.mem_singleton_self _, Or.inl h⟩

/-- **Every effect tells what the transition did.** -/
theorem GraceMove.tells (h : GraceMove t) {e : Effect} (he : e ∈ t.effects) : t.Tells e := by
  cases hspoken : e.isSpoken with
  | true => cases e <;> first | exact trivial | cases hspoken
  | false =>
    have hact := (mem_acts hspoken).mpr he
    cases h with
    | kept pending number going harmless =>
      rcases harmless with hnone | ⟨halive, s, kind, hsignal, huse, hloss⟩
      · rw [hnone] at hact
        cases hact
      · rw [hloss, List.mem_singleton] at hact
        subst hact
        exact ⟨halive, Or.inl ⟨s, hsignal, huse⟩⟩
    | opened g safe pending number latest slow started =>
      rw [started, List.mem_singleton] at hact
      subst hact
      exact ⟨safe, g.violation, pending⟩
    | cancelled g reason pending ended number cancels =>
      rw [cancels, List.mem_singleton] at hact
      subst hact
      exact ⟨⟨g, pending⟩, ended⟩
    | lapsed g pending ended number fired charged =>
      obtain ⟨halive, hloss, rfl | ⟨rfl, hlast⟩⟩ := mem_lapsed charged hact
      · exact ⟨halive, Or.inr ⟨g, pending, rfl, fired, ended⟩⟩
      · exact ⟨hlast, g, pending, hloss⟩

/-- A transition costs one life at most. -/
theorem GraceMove.countP_isLoss_le (h : GraceMove t) : t.effects.countP Effect.isLoss ≤ 1 := by
  have hacts : t.effects.countP Effect.isLoss = (acts t.effects).countP Effect.isLoss := by
    rw [acts, List.countP_filter]
    refine List.countP_congr fun e _ => ?_
    cases e <;> simp [Effect.isLoss, Effect.isSpoken]
  rw [hacts]
  cases h with
  | kept pending number going harmless =>
    rcases harmless with hnone | ⟨-, s, kind, -, -, hloss⟩
    · rw [hnone]; exact Nat.zero_le 1
    · rw [hloss]; exact Nat.le_refl 1
  | opened g safe pending number latest slow started => rw [started]; exact Nat.zero_le 1
  | cancelled g reason pending ended number cancels => rw [cancels]; exact Nat.zero_le 1
  | lapsed g pending ended number fired charged =>
    rw [charged, acts_penalty]
    split
    · exact Nat.zero_le 1
    · split <;> exact Nat.le_refl 1

/-- The counter moves when a grace period opens, and gives it its number. -/
theorem GraceMove.started (h : GraceMove t) :
    (t.started = [] ∧ t.after.generation = t.before.generation) ∨
      (t.started = [t.after.generation] ∧ t.after.generation = t.before.generation + 1) := by
  have hacts : t.started = (acts t.effects).filterMap Effect.opens? := by
    have hopens : (fun e : Effect => if !e.isSpoken then e.opens? else none) = Effect.opens? := by
      funext e
      cases e <;> rfl
    rw [acts, List.filterMap_filter, hopens]
    rfl
  rw [hacts]
  cases h with
  | kept pending number going harmless =>
    refine Or.inl ⟨?_, number⟩
    rcases harmless with hnone | ⟨-, s, kind, -, -, hloss⟩
    · rw [hnone]; rfl
    · rw [hloss]; rfl
  | opened g safe pending number latest slow started =>
    exact Or.inr ⟨by rw [started, number, ← latest]; rfl, number⟩
  | cancelled g reason pending ended number cancels =>
    exact Or.inl ⟨by rw [cancels]; rfl, number⟩
  | lapsed g pending ended number fired charged =>
    refine Or.inl ⟨?_, number⟩
    rw [charged, acts_penalty]
    split
    · rfl
    · split <;> rfl

/-- The order to submit goes with the loss of the last life, when a grace period has run out. -/
theorem Sound.autoSubmit_iff (hd : d.Sound) (x : Input) :
    .autoSubmit ∈ (d.transition x).effects ↔ x.ctx.livesRemaining = 1 ∧
      ∃ kind, kind.isInstantaneous = false ∧ .loseLife kind ∈ (d.transition x).effects := by
  have hmove := hd.graceMove x
  constructor
  · intro hmem
    obtain ⟨hlast, g, hpending, hloss⟩ := hmove.tells hmem
    exact ⟨hlast, g.violation, (hd g hpending).slow, hloss⟩
  · rintro ⟨hlast, kind, hslow, hmem⟩
    rw [← mem_acts rfl] at hmem ⊢
    cases hmove with
    | kept pending number going harmless =>
      rcases harmless with hnone | ⟨-, s, kind', -, huse, hloss⟩
      · rw [hnone] at hmem
        cases hmem
      · rw [hloss, List.mem_singleton, Effect.loseLife.injEq] at hmem
        rw [hmem, Signal.isInstantaneous_of_clipboard? huse] at hslow
        cases hslow
    | opened g safe pending number latest slow started =>
      rw [started, List.mem_singleton] at hmem
      cases hmem
    | cancelled g reason pending ended number cancels =>
      rw [cancels, List.mem_singleton] at hmem
      cases hmem
    | lapsed g pending ended number fired charged =>
      have hctx : (d.transition x).input.ctx.livesRemaining = 1 := hlast
      rw [charged, acts_penalty, if_neg (by omega), if_pos hctx]
      exact List.mem_cons_of_mem _ List.mem_cons_self

/-! ## One transition -/

/-- A grace period that is not resolved stays as it is, and no other opens. -/
theorem Sound.unresolved (hd : d.Sound) {g : Grace} (hg : d.pending = some g)
    (hopen : ¬(d.transition x).Resolves g.generation) :
    (d.transition x).after.pending = some g ∧ (d.transition x).started = [] := by
  cases hd.graceMove x with
  | kept pending number going harmless =>
    refine ⟨pending.trans hg, ?_⟩
    rcases (hd.graceMove x).started with ⟨hnone, -⟩ | ⟨-, hnext⟩
    · exact hnone
    · omega
  | opened g' safe =>
    have hsafe : d.pending = none := safe
    rw [hg] at hsafe
    cases hsafe
  | cancelled g' reason pending ended number cancels =>
    refine absurd (Or.inl ⟨reason, ?_⟩) hopen
    rw [← mem_acts rfl, cancels]
    exact List.mem_singleton_self _
  | lapsed g' pending ended number fired =>
    have hpending : d.pending = some g' := pending
    rw [hg, Option.some.injEq] at hpending
    rw [hpending] at hopen
    exact absurd (Or.inr fired) hopen

/-- A grace period that is resolved is pending no more. -/
theorem Sound.resolved (hd : d.Sound) {g : Grace} (hg : d.pending = some g)
    (hover : (d.transition x).Resolves g.generation) : (d.transition x).after.pending = none := by
  have hmove := hd.graceMove x
  rcases hover with ⟨reason, hcancel⟩ | hfired
  · exact (hmove.tells hcancel).2
  · cases hmove with
    | kept pending number going => exact absurd hfired (going g hg)
    | opened g' safe =>
      have hsafe : d.pending = none := safe
      rw [hg] at hsafe
      cases hsafe
    | cancelled g' reason pending ended => exact ended
    | lapsed g' pending ended => exact ended

/-- A number that is used up: it was given, and no pending grace period has it. -/
def Past (d : Detector) (generation : Nat) : Prop :=
  generation ≤ d.generation ∧ ∀ g, d.pending = some g → g.generation ≠ generation

/-- The number of a grace period that is over is used up. -/
theorem Sound.past (hd : d.Sound) {g : Grace} (hg : d.pending = some g)
    (hover : (d.transition x).after.pending = none) :
    (d.transition x).after.Past g.generation := by
  refine ⟨?_, fun g' hg' => by rw [hover] at hg'; cases hg'⟩
  have hlatest : g.generation = (d.transition x).before.generation := (hd g hg).latest
  rcases (hd.graceMove x).started with ⟨-, hcount⟩ | ⟨-, hcount⟩ <;> omega

/-- A number that is used up is never used again. -/
theorem Sound.past_transition (hd : d.Sound) (h : d.Past generation) (x : Input) :
    (d.transition x).after.Past generation := by
  have hgiven : generation ≤ (d.transition x).before.generation := h.1
  cases hd.graceMove x with
  | kept pending number => exact ⟨by omega, by rw [pending]; exact h.2⟩
  | opened g safe pending number latest =>
    refine ⟨by omega, fun g' hg' => ?_⟩
    rw [pending, Option.some.injEq] at hg'
    subst hg'
    omega
  | cancelled g reason pending ended number =>
    exact ⟨by omega, fun g' hg' => by rw [ended] at hg'; cases hg'⟩
  | lapsed g pending ended number =>
    exact ⟨by omega, fun g' hg' => by rw [ended] at hg'; cases hg'⟩

/-- A penalty under a number is that of the pending grace period, and uses the number up. -/
theorem Sound.of_penalizes (hd : d.Sound) (h : (d.transition x).penalizes generation = true) :
    (∃ g, d.pending = some g ∧ g.generation = generation) ∧
      (d.transition x).after.Past generation := by
  rw [Transition.penalizes, Bool.and_eq_true, decide_eq_true_eq, List.any_eq_true] at h
  obtain ⟨hfired, e, hmem, hloss⟩ := h
  have htells := (hd.graceMove x).tells hmem
  cases e with
  | startGrace => cases hloss
  | cancelGrace => cases hloss
  | autoSubmit => cases hloss
  | directive => cases hloss
  | loseLife kind =>
    obtain ⟨-, ⟨s, hsignal, -⟩ | ⟨g, hpending, -, hfired', hover⟩⟩ := htells
    · rw [hfired] at hsignal
      cases hsignal
    · rw [hfired, DetectorEvent.graceElapsed.injEq] at hfired'
      rw [hfired']
      exact ⟨⟨g, hpending, rfl⟩, hd.past hpending hover⟩

/-! ## Courses -/

/-- A grace period that is not resolved stays as it is over a whole stretch, and no other opens. -/
theorem Sound.holds (hd : d.Sound) {g : Grace} (hg : d.pending = some g) {inputs : List Input}
    (hopen : ∀ t ∈ d.course inputs, ¬t.Resolves g.generation) :
    (d.reached inputs).pending = some g ∧ (d.course inputs).flatMap Transition.started = [] := by
  induction inputs generalizing d with
  | nil => exact ⟨hg, rfl⟩
  | cons x inputs ih =>
    obtain ⟨hpending, hstarted⟩ := hd.unresolved hg (hopen _ List.mem_cons_self)
    obtain ⟨hlater, hrest⟩ :=
      ih (hd.transition x) hpending fun t ht => hopen t (List.mem_cons_of_mem _ ht)
    exact ⟨hlater, by rw [course, List.flatMap_cons, hstarted, hrest]; rfl⟩

/-- What a course starts is numbered upwards, from the counter on. -/
theorem Sound.rising (hd : d.Sound) (inputs : List Input) :
    (∀ generation ∈ (d.course inputs).flatMap Transition.started, d.generation < generation) ∧
      ((d.course inputs).flatMap Transition.started).Pairwise (· < ·) := by
  induction inputs generalizing d with
  | nil => exact ⟨nofun, .nil⟩
  | cons x inputs ih =>
    obtain ⟨habove, hrising⟩ := ih (hd.transition x)
    have hbefore : (d.transition x).before = d := rfl
    rw [course, List.flatMap_cons]
    -- a number is that of the counter when it is given, and the counter never goes back
    rcases (hd.graceMove x).started with ⟨hnone, hcount⟩ | ⟨hone, hcount⟩
    · rw [hnone, List.nil_append]
      rw [hcount, hbefore] at habove
      exact ⟨habove, hrising⟩
    · rw [hone, List.singleton_append]
      rw [hbefore] at hcount
      refine ⟨fun generation hmem => ?_, List.pairwise_cons.mpr ⟨habove, hrising⟩⟩
      rcases List.mem_cons.mp hmem with rfl | hmem
      · omega
      · have hlater := habove generation hmem
        omega

/-- Nobody is penalized under a number that is used up. -/
theorem Sound.not_penalizes (hd : d.Sound) (h : d.Past generation) (inputs : List Input) :
    ∀ t ∈ d.course inputs, t.penalizes generation = false := by
  induction inputs generalizing d with
  | nil => simp
  | cons x inputs ih =>
    intro t ht
    rw [course, List.mem_cons] at ht
    rcases ht with rfl | ht
    · refine Bool.of_not_eq_true fun hpenalty => ?_
      obtain ⟨⟨g, hpending, hnumber⟩, -⟩ := hd.of_penalizes hpenalty
      exact h.2 g hpending hnumber
    · exact ih (hd.transition x) (hd.past_transition h x) t ht

/-- A number is used for one penalty at most. -/
theorem Sound.countP_penalizes_le (hd : d.Sound) (generation : Nat) (inputs : List Input) :
    (d.course inputs).countP (·.penalizes generation) ≤ 1 := by
  induction inputs generalizing d with
  | nil => exact Nat.zero_le 1
  | cons x inputs ih =>
    rw [course, List.countP_cons]
    by_cases hpenalty : (d.transition x).penalizes generation = true
    · -- the first penalty uses the number up
      have hnone := (hd.transition x).not_penalizes (hd.of_penalizes hpenalty).2 inputs
      have hrest : ((d.transition x).after.course inputs).countP (·.penalizes generation) = 0 :=
        List.countP_eq_zero.mpr fun t ht => by rw [hnone t ht]; exact Bool.false_ne_true
      refine Nat.le_of_eq ?_
      rw [if_pos hpenalty, hrest]
    · rw [if_neg hpenalty, Nat.add_zero]
      exact ih (hd.transition x)

/-- **A pending grace period goes back to the transition that opened it,** and nothing has resolved
it since. -/
theorem Sound.pending_opened (hd : d.Sound) (hsafe : d.pending = none) {inputs : List Input}
    {g : Grace} (hg : (d.reached inputs).pending = some g) :
    ∃ first x rest, inputs = first ++ x :: rest ∧ ((d.reached first).transition x).Opens g ∧
      ∀ t ∈ ((d.reached first).transition x).after.course rest, ¬t.Resolves g.generation := by
  induction inputs using List.reverseRecOn with
  | nil =>
    rw [reached_nil, hsafe] at hg
    cases hg
  | append_singleton inputs y ih =>
    have hd' := hd.reached inputs
    rw [reached_concat] at hg
    by_cases hbefore : (d.reached inputs).pending = some g
    · -- an old period: the same transition opened it, and this one does not resolve it
      obtain ⟨first, x, rest, rfl, hopens, hopen⟩ := ih hbefore
      refine ⟨first, x, rest ++ [y], by simp, hopens, fun t ht => ?_⟩
      rw [course_concat] at ht
      rw [List.mem_append, List.mem_singleton] at ht
      rcases ht with ht | rfl
      · exact hopen t ht
      · rw [reached_append, Detector.reached] at hd' hbefore hg
        intro hover
        rw [hd'.resolved hbefore hover] at hg
        cases hg
    · refine ⟨inputs, y, [], rfl, ?_, by simp⟩
      cases hd'.graceMove y with
      | kept pending => exact absurd (pending.symm.trans hg) hbefore
      | opened g' safe pending number latest slow started =>
        rw [hg, Option.some.injEq] at pending
        subst pending
        refine ⟨?_, hg⟩
        rw [← mem_acts rfl, started]
        exact List.mem_singleton_self _
      | cancelled g' reason pending ended => rw [hg] at ended; cases ended
      | lapsed g' pending ended => rw [hg] at ended; cases ended

/-! ## Everything together -/

/-- What holds of a course whose grace periods are well bracketed. -/
structure Bracketed (d : Detector) (inputs : List Input) : Prop where
  /-- Only an armed detector has a grace period pending, and it is the one with the latest
  number. -/
  pending : ∀ g, (d.reached inputs).pending = some g →
    (d.reached inputs).armed = true ∧ g.generation = (d.reached inputs).generation
  /-- Grace periods are numbered upwards. -/
  rising : ((d.course inputs).flatMap Transition.started).Pairwise (· < ·)
  /-- A grace period opens where none was, and is pending then. -/
  opens : ∀ t ∈ d.course inputs, ∀ deadline generation,
    .startGrace deadline generation ∈ t.effects →
      t.before.pending = none ∧ ∃ violation, t.Opens ⟨violation, deadline, generation⟩
  /-- Until it is resolved, it stays as it was opened, and no other opens. -/
  holds : ∀ first x middle rest g, inputs = first ++ x :: (middle ++ rest) →
    ((d.reached first).transition x).Opens g →
    (∀ t ∈ ((d.reached first).transition x).after.course middle, ¬t.Resolves g.generation) →
      (d.reached (first ++ x :: middle)).pending = some g ∧
        (((d.reached first).transition x).after.course middle).flatMap Transition.started = []
  /-- When it is resolved, it is pending no more. -/
  resolved : ∀ t ∈ d.course inputs, ∀ g, t.before.pending = some g → t.Resolves g.generation →
    t.after.pending = none
  /-- A timer that is not that of the pending grace period does nothing. -/
  stale : ∀ t ∈ d.course inputs, ∀ generation, t.input.event = .graceElapsed generation →
    (∀ g, t.before.pending = some g → g.generation ≠ generation) →
      t.after = t.before ∧ t.effects = []
  /-- A detector that is not armed does nothing until it is. -/
  unarmed : ∀ t ∈ d.course inputs, t.before.armed = false →
    (∀ env, t.input.event ≠ .arm env) → t.after = t.before ∧ t.effects = []
  /-- A transition costs one life at most, and none if none is left. -/
  single : ∀ t ∈ d.course inputs, t.effects.countP Effect.isLoss ≤ 1 ∧
    ∀ kind, .loseLife kind ∈ t.effects → 0 < t.input.ctx.livesRemaining
  /-- A number is used for one penalty at most. -/
  once : ∀ generation, (d.course inputs).countP (·.penalizes generation) ≤ 1
  /-- What is not a use of the clipboard costs a life only when the timer of a grace period goes
  off that was opened for it, and that nothing has resolved since. -/
  traced : ∀ first x rest kind, inputs = first ++ x :: rest →
    .loseLife kind ∈ ((d.reached first).transition x).effects → kind.isInstantaneous = false →
      ∃ earlier y later g, first = earlier ++ y :: later ∧
        ((d.reached earlier).transition y).Opens g ∧ g.violation = kind ∧
        x.event = .graceElapsed g.generation ∧
        ∀ t ∈ ((d.reached earlier).transition y).after.course later, ¬t.Resolves g.generation
  /-- What is cancelled is a pending grace period, and it is never penalized afterwards. -/
  cancelled : ∀ first x rest reason, inputs = first ++ x :: rest →
    .cancelGrace reason ∈ ((d.reached first).transition x).effects →
      ∃ g, (d.reached first).pending = some g ∧
        ∀ t ∈ ((d.reached first).transition x).after.course rest,
          t.penalizes g.generation = false
  /-- The order to submit goes with the loss of the last life to a grace period. -/
  submits : ∀ t ∈ d.course inputs, .autoSubmit ∈ t.effects ↔
    t.input.ctx.livesRemaining = 1 ∧
      ∃ kind, kind.isInstantaneous = false ∧ .loseLife kind ∈ t.effects

/-- **Grace periods are well bracketed,** whatever the events, their order and their contexts
are. -/
theorem grace_bracketed (gracePeriod : Nat) (inputs : List Input) :
    Bracketed (new gracePeriod) inputs := by
  have hd := sound_new gracePeriod
  constructor
  case pending =>
    intro g hg
    exact ⟨(hd.reached inputs g hg).armed, (hd.reached inputs g hg).latest⟩
  case rising => exact (hd.rising inputs).2
  case opens =>
    intro t ht deadline generation hmem
    obtain ⟨d, x, hd, rfl⟩ := hd.exists_of_mem ht
    obtain ⟨hsafe, violation, hpending⟩ := (hd.graceMove x).tells hmem
    exact ⟨hsafe, violation, hmem, hpending⟩
  case holds =>
    rintro first x middle rest g rfl hopens hopen
    rw [reached_append]
    exact Sound.holds ((hd.reached first).transition x) hopens.2 hopen
  case resolved =>
    intro t ht
    obtain ⟨d, x, hd, rfl⟩ := hd.exists_of_mem ht
    exact fun g hg hover => hd.resolved hg hover
  case stale =>
    intro t ht generation hfired hother
    obtain ⟨d, x, -, rfl⟩ := hd.exists_of_mem ht
    exact transition_ignored (ignores_stale hfired hother)
  case unarmed =>
    intro t ht hunarmed hnoarm
    obtain ⟨d, x, -, rfl⟩ := hd.exists_of_mem ht
    exact transition_ignored (ignores_unarmed hunarmed hnoarm)
  case single =>
    intro t ht
    obtain ⟨d, x, hd, rfl⟩ := hd.exists_of_mem ht
    exact ⟨(hd.graceMove x).countP_isLoss_le, fun kind hmem => ((hd.graceMove x).tells hmem).1⟩
  case once => exact fun generation => hd.countP_penalizes_le generation inputs
  case traced =>
    rintro first x rest kind rfl hmem hslow
    obtain ⟨-, ⟨s, -, huse⟩ | ⟨g, hpending, hkind, hfired, -⟩⟩ :=
      ((hd.reached first).graceMove x).tells hmem
    · rw [Signal.isInstantaneous_of_clipboard? huse] at hslow
      cases hslow
    · obtain ⟨earlier, y, later, hfirst, hopens, hopen⟩ := hd.pending_opened rfl hpending
      exact ⟨earlier, y, later, g, hfirst, hopens, hkind, hfired, hopen⟩
  case cancelled =>
    rintro first x rest reason rfl hmem
    have hd' := hd.reached first
    obtain ⟨⟨g, hpending⟩, hover⟩ := (hd'.graceMove x).tells hmem
    exact ⟨g, hpending, Sound.not_penalizes (hd'.transition x) (hd'.past hpending hover) rest⟩
  case submits =>
    intro t ht
    obtain ⟨d, x, hd, rfl⟩ := hd.exists_of_mem ht
    exact hd.autoSubmit_iff x

end Detector

end Invigilator
