import Invigilator.Proofs.Detector.Reaction

/-!
# The course of a detector

A detector is told of one event after the other, each in a context of its own: an `Input`. What
it then does is its `course`, a list of transitions, and what it has become is `reached`. Nothing
is assumed of the events: arming and disarming may come at any time, and timers of any number
may go off.

`Move` lists what an event can do to a detector, and `step_move` says that the list is complete;
for reports of the browser it leans on `Reaction`. Much of what is said about a course is only
about grace periods. For that `GraceMove` is enough: a transition lets the grace period be, opens
one, cancels it, or sees it run out.
-/

namespace Invigilator

/-- What says something to the candidate, and does no more. -/
def Effect.isSpoken : Effect → Bool
  | .directive _ => true
  | .startGrace .. => false
  | .cancelGrace _ => false
  | .loseLife _ => false
  | .autoSubmit => false

namespace Detector

/-- An event and the context in which it reaches a detector. -/
structure Input where
  event : DetectorEvent
  ctx : DetectorContext
deriving DecidableEq, Repr, Inhabited

/-- An input with the detector that took it, the one that it left, and what was sent. -/
structure Transition where
  input : Input
  before : Detector
  after : Detector
  effects : List Effect
deriving DecidableEq, Repr, Inhabited

def transition (d : Detector) (x : Input) : Transition :=
  { input := x, before := d, after := (d.step x.event x.ctx).1,
    effects := (d.step x.event x.ctx).2 }

/-- All that a detector does at some inputs, one after the other. -/
def course (d : Detector) : List Input → List Transition
  | [] => []
  | x :: inputs => d.transition x :: (d.transition x).after.course inputs

/-- Where some inputs lead. -/
def reached (d : Detector) : List Input → Detector
  | [] => d
  | x :: inputs => (d.transition x).after.reached inputs

variable (d : Detector)

@[simp] theorem course_nil : d.course [] = [] := rfl

@[simp] theorem reached_nil : d.reached [] = d := rfl

theorem reached_append (first rest : List Input) :
    d.reached (first ++ rest) = (d.reached first).reached rest := by
  induction first generalizing d with
  | nil => rfl
  | cons x first ih => exact ih (d.transition x).after

theorem course_append (first rest : List Input) :
    d.course (first ++ rest) = d.course first ++ (d.reached first).course rest := by
  induction first generalizing d with
  | nil => rfl
  | cons x first ih => exact congrArg (d.transition x :: ·) (ih (d.transition x).after)

/-- One more input leads one transition on. -/
theorem reached_concat (inputs : List Input) (x : Input) :
    d.reached (inputs ++ [x]) = ((d.reached inputs).transition x).after :=
  reached_append d inputs [x]

/-- One more input adds one transition. -/
theorem course_concat (inputs : List Input) (x : Input) :
    d.course (inputs ++ [x]) = d.course inputs ++ [(d.reached inputs).transition x] :=
  course_append d inputs [x]

variable {d}

/-- Every transition of a course is what some input did to a detector that was reached. -/
theorem exists_of_mem_course {inputs : List Input} {t : Transition} (h : t ∈ d.course inputs) :
    ∃ first x rest, inputs = first ++ x :: rest ∧ t = (d.reached first).transition x := by
  induction inputs generalizing d with
  | nil => cases h
  | cons x inputs ih =>
    rcases List.mem_cons.mp h with rfl | h
    · exact ⟨[], x, inputs, rfl, rfl⟩
    · obtain ⟨first, y, rest, rfl, rfl⟩ := ih h
      exact ⟨x :: first, y, rest, rfl, rfl⟩

/-! ## What an event can do -/

/-- An event that finds nothing to do: it comes at the wrong time, or too late. -/
def Ignores (d : Detector) : DetectorEvent → Prop
  | .arm _ => d.armed = true
  | .disarm => d.armed = false
  | .signal _ => d.armed = false
  | .graceElapsed generation =>
    d.armed = true → ∀ g, d.pending = some g → g.generation ≠ generation

/-- What an event does to a detector. -/
inductive Move (d : Detector) (ctx : DetectorContext) :
    DetectorEvent → Detector → List Effect → Prop where
  | ignored (event : DetectorEvent) (deaf : d.Ignores event) : Move d ctx event d []
  | reacted (s : Signal) (d' : Detector) (es : List Effect) (armed : d.armed = true)
      (reaction : Reaction d s ctx d' es) : Move d ctx (.signal s) d' es
  /-- The pending grace period runs out. -/
  | lapsed (g : Grace) (armed : d.armed = true) (pending : d.pending = some g) :
      Move d ctx (.graceElapsed g.generation) { d with pending := none }
        (.directive .clearWarning :: penalty g.violation ctx)
  /-- Watching ends, and a pending grace period with it. -/
  | disarmed (armed : d.armed = true) :
      Move d ctx .disarm { d with armed := false, pending := none }
        (if d.pending.isSome then .cancelGrace .disarmed :: spoken [.clearWarning] else [])
  /-- Watching begins. -/
  | armed (env : Environment) (unarmed : d.armed = false)
      (home : env.fullscreen = true ∨ ctx.livesRemaining = 0) :
      Move d ctx (.arm env) { d with armed := true, env := env, pending := none }
        (spoken [.pushHistoryState])
  /-- Watching begins while the candidate is away, and a grace period with it. -/
  | armedAway (env : Environment) (g : Grace) (unarmed : d.armed = false)
      (away : env.fullscreen = false) (alive : 0 < ctx.livesRemaining)
      (opens : g.Opens d .fullscreenExit ctx.now) (warning : Directive) :
      Move d ctx (.arm env)
        { d with armed := true, env := env, generation := d.generation + 1, pending := some g }
        (spoken [.pushHistoryState] ++ .startGrace g.deadline g.generation :: spoken [warning])

theorem arm_move (d : Detector) (env : Environment) (ctx : DetectorContext) :
    Move d ctx (.arm env) (d.arm env ctx).1 (d.arm env ctx).2 := by
  unfold arm
  cases harmed : d.armed with
  | true => exact .ignored (.arm env) harmed
  | false =>
    by_cases haway : env.fullscreen = false ∧ 0 < ctx.livesRemaining
    · obtain ⟨haway, halive⟩ := haway
      simp only [haway, halive, Bool.false_eq_true, ↓reduceIte, Bool.not_false, decide_true,
        Bool.and_self, openGrace]
      exact .armedAway env ⟨.fullscreenExit, ctx.now + d.gracePeriod, d.generation + 1⟩ harmed haway
        halive ⟨rfl, rfl, rfl⟩ _
    · have hhome : env.fullscreen = true ∨ ctx.livesRemaining = 0 := by
        rcases Bool.eq_false_or_eq_true env.fullscreen with h | h
        · exact Or.inl h
        · exact Or.inr (Nat.eq_zero_of_not_pos fun hpos => haway ⟨h, hpos⟩)
      have hcond : (!env.fullscreen && decide (0 < ctx.livesRemaining)) = false := by
        rcases hhome with h | h <;> simp [h]
      simp only [Bool.false_eq_true, ↓reduceIte, hcond]
      exact .armed env harmed hhome

theorem disarm_move (d : Detector) (ctx : DetectorContext) :
    Move d ctx .disarm d.disarm.1 d.disarm.2 := by
  unfold disarm
  cases harmed : d.armed with
  | true => exact .disarmed harmed
  | false => exact .ignored .disarm harmed

theorem onGraceElapsed_move (d : Detector) (generation : Nat) (ctx : DetectorContext)
    (harmed : d.armed = true) :
    Move d ctx (.graceElapsed generation) (d.onGraceElapsed generation ctx).1
      (d.onGraceElapsed generation ctx).2 := by
  cases hpending : d.pending with
  | none =>
    simp only [onGraceElapsed, hpending]
    refine .ignored _ fun _ g hg => ?_
    rw [hpending] at hg
    cases hg
  | some g =>
    by_cases hnumber : g.generation = generation
    · subst hnumber
      rw [onGraceElapsed_pending hpending]
      exact .lapsed g harmed hpending
    · simp only [onGraceElapsed, hpending, hnumber, ↓reduceIte]
      refine .ignored _ fun _ g' hg => ?_
      rw [hpending, Option.some.injEq] at hg
      rwa [← hg]

/-- **Every event does one of the listed things.** -/
theorem step_move (d : Detector) (event : DetectorEvent) (ctx : DetectorContext) :
    Move d ctx event (d.step event ctx).1 (d.step event ctx).2 := by
  cases event with
  | arm env => exact arm_move d env ctx
  | disarm => exact disarm_move d ctx
  | signal s =>
    cases harmed : d.armed with
    | false =>
      simp only [step, harmed]
      exact .ignored (.signal s) harmed
    | true =>
      simp only [step, harmed]
      exact .reacted s _ _ harmed (onSignal_reaction d s ctx)
  | graceElapsed generation =>
    cases harmed : d.armed with
    | false =>
      simp only [step, harmed]
      exact .ignored (.graceElapsed generation) fun h => by rw [harmed] at h; cases h
    | true =>
      simp only [step, harmed]
      exact onGraceElapsed_move d generation ctx harmed

theorem transition_move (d : Detector) (x : Input) :
    Move d x.ctx x.event (d.transition x).after (d.transition x).effects :=
  step_move d x.event x.ctx

/-- A timer finds nothing to do if it is not that of the pending grace period. -/
theorem ignores_stale {event : DetectorEvent} {generation : Nat}
    (hfired : event = .graceElapsed generation)
    (hother : ∀ g, d.pending = some g → g.generation ≠ generation) : d.Ignores event := by
  rw [hfired]
  exact fun _ => hother

/-- Nothing but arming finds something to do while a detector is not armed. -/
theorem ignores_unarmed {event : DetectorEvent} (hunarmed : d.armed = false)
    (hnoarm : ∀ env, event ≠ .arm env) : d.Ignores event := by
  cases event with
  | arm env => exact absurd rfl (hnoarm env)
  | disarm => exact hunarmed
  | signal s => exact hunarmed
  | graceElapsed generation =>
    intro harmed
    rw [hunarmed] at harmed
    cases harmed

/-- An event that finds nothing to do does nothing. -/
theorem transition_ignored {x : Input} (h : d.Ignores x.event) :
    (d.transition x).after = d ∧ (d.transition x).effects = [] := by
  obtain ⟨event, ctx⟩ := x
  have hstep : d.step event ctx = (d, []) := by
    cases event with
    | arm env => exact if_pos h
    | disarm => exact disarm_disarmed h
    | signal s =>
      have hunarmed : d.armed = false := h
      simp [step, hunarmed]
    | graceElapsed generation =>
      cases harmed : d.armed with
      | false => simp [step, harmed]
      | true =>
        cases hpending : d.pending with
        | none => simp [step, harmed, onGraceElapsed, hpending]
        | some g => simp [step, harmed, onGraceElapsed, hpending, h harmed g hpending]
  exact ⟨congrArg Prod.fst hstep, congrArg Prod.snd hstep⟩

end Detector

/-- A grace period as an armed detector may have it pending. -/
structure Grace.Fits (g : Grace) (d : Detector) : Prop where
  armed : d.armed = true
  /-- It is the one that was opened last. -/
  latest : g.generation = d.generation
  slow : g.violation.isInstantaneous = false

namespace Detector

/-! ## What a transition does to the grace period -/

/-- The effects that do more than speak. -/
def acts (es : List Effect) : List Effect := es.filter fun e => !e.isSpoken

theorem acts_append (es fs : List Effect) : acts (es ++ fs) = acts es ++ acts fs :=
  List.filter_append es fs

@[simp] theorem acts_spoken (directives : List Directive) : acts (spoken directives) = [] := by
  simp [acts, spoken, Effect.isSpoken]

/-- Whatever does more than speak is among the acts. -/
theorem mem_acts {e : Effect} {es : List Effect} (he : e.isSpoken = false) :
    e ∈ acts es ↔ e ∈ es := by
  simp [acts, he]

/-- A pending grace period, if there is one, is that of an armed detector. -/
def Sound (d : Detector) : Prop := ∀ g, d.pending = some g → g.Fits d

/-- A detector that is not armed has no grace period pending. -/
theorem Sound.pending_unarmed {d : Detector} (hd : d.Sound) (h : d.armed = false) :
    d.pending = none := by
  cases hpending : d.pending with
  | none => rfl
  | some g =>
    rw [(hd g hpending).armed] at h
    cases h

/-- What a transition does to the grace period of a detector. -/
inductive GraceMove (t : Transition) : Prop where
  /-- The grace period, or that there is none, stays. Only the clipboard can cost a life. -/
  | kept (pending : t.after.pending = t.before.pending)
      (generation : t.after.generation = t.before.generation)
      (going : ∀ g, t.before.pending = some g → t.input.event ≠ .graceElapsed g.generation)
      (harmless : acts t.effects = [] ∨ 0 < t.input.ctx.livesRemaining ∧
        ∃ s kind, t.input.event = .signal s ∧ s.clipboard? = some kind ∧
          acts t.effects = [.loseLife kind])
  /-- A grace period opens where none was. -/
  | opened (g : Grace) (safe : t.before.pending = none) (pending : t.after.pending = some g)
      (generation : t.after.generation = t.before.generation + 1)
      (latest : g.generation = t.before.generation + 1)
      (slow : g.violation.isInstantaneous = false)
      (started : acts t.effects = [.startGrace g.deadline g.generation])
  /-- The grace period ends without penalty. -/
  | cancelled (g : Grace) (reason : CancelReason) (pending : t.before.pending = some g)
      (ended : t.after.pending = none) (generation : t.after.generation = t.before.generation)
      (cancels : acts t.effects = [.cancelGrace reason])
  /-- The grace period runs out. -/
  | lapsed (g : Grace) (pending : t.before.pending = some g) (ended : t.after.pending = none)
      (generation : t.after.generation = t.before.generation)
      (fired : t.input.event = .graceElapsed g.generation)
      (charged : acts t.effects = acts (penalty g.violation t.input.ctx))

/-- What a report does to the grace period. -/
theorem Reaction.graceMove {d d' : Detector} {s : Signal} {ctx : DetectorContext}
    {es : List Effect} (h : Reaction d s ctx d' es) : GraceMove ⟨⟨.signal s, ctx⟩, d, d', es⟩ := by
  cases h with
  | quiet directives => exact .kept rfl rfl (by simp) (Or.inl (acts_spoken directives))
  | opened kind g before after departure safe alive blur opens =>
    refine .opened g safe rfl rfl opens.generation ?_ ?_
    · rw [opens.violation]
      exact Signal.isInstantaneous_of_departure? departure
    · rw [acts_append, acts_spoken]
      exact congrArg (Effect.startGrace g.deadline g.generation :: ·) (acts_spoken after)
  | recovered back pending whole =>
    obtain ⟨g, hg⟩ := Option.isSome_iff_exists.mp pending
    exact .cancelled g .recovered hg rfl rfl rfl
  | charged kind message use alive =>
    exact .kept rfl rfl (by simp) (Or.inr ⟨alive, s, kind, rfl, use, rfl⟩)

/-- What a move does to the grace period. -/
theorem Move.graceMove {d d' : Detector} {x : Input} {es : List Effect} (hd : d.Sound)
    (h : Move d x.ctx x.event d' es) : GraceMove ⟨x, d, d', es⟩ := by
  obtain ⟨event, ctx⟩ := x
  cases h with
  | ignored event deaf =>
    refine .kept rfl rfl (fun g hg hfired => ?_) (Or.inl rfl)
    -- the timer of a pending grace period always finds something to do
    have hfired : event = .graceElapsed g.generation := hfired
    subst hfired
    exact deaf (hd g hg).armed g hg rfl
  | reacted s d' es armed reaction => exact reaction.graceMove
  | lapsed g armed pending => exact .lapsed g pending rfl rfl rfl rfl
  | disarmed armed =>
    cases hpending : d.pending with
    | none => exact .kept hpending.symm rfl (by simp) (Or.inl rfl)
    | some g => exact .cancelled g .disarmed hpending rfl rfl rfl
  | armed env unarmed home =>
    exact .kept (hd.pending_unarmed unarmed).symm rfl (by simp) (Or.inl (acts_spoken _))
  | armedAway env g unarmed away alive opens warning =>
    refine .opened g (hd.pending_unarmed unarmed) rfl rfl opens.generation ?_ ?_
    · rw [opens.violation]
      rfl
    · rw [acts_append, acts_spoken]
      rfl

/-- **A transition lets the grace period be, opens one, cancels it, or sees it run out.** -/
theorem Sound.graceMove {d : Detector} (hd : d.Sound) (x : Input) : GraceMove (d.transition x) :=
  (transition_move d x).graceMove hd

theorem sound_new (gracePeriod : Nat) : (new gracePeriod).Sound := nofun

theorem Reaction.armed {d d' : Detector} {s : Signal} {ctx : DetectorContext} {es : List Effect}
    (h : Reaction d s ctx d' es) : d'.armed = d.armed := by
  cases h <;> rfl

/-- Only an armed detector has a grace period pending after an event. -/
theorem Move.armed_after {d d' : Detector} {ctx : DetectorContext} {event : DetectorEvent}
    {es : List Effect} (h : Move d ctx event d' es) (hd : d.Sound) {g : Grace}
    (hg : d'.pending = some g) : d'.armed = true := by
  cases h with
  | ignored => exact (hd g hg).armed
  | reacted s d' es armed reaction => rw [reaction.armed, armed]
  | lapsed g' armed => exact armed
  | disarmed => cases hg
  | armed => rfl
  | armedAway => rfl

/-- **A detector stays sound.** -/
theorem Sound.transition {d : Detector} (hd : d.Sound) (x : Input) :
    (d.transition x).after.Sound := by
  intro g hg
  have harmed := (transition_move d x).armed_after hd hg
  cases hd.graceMove x with
  | kept pending generation =>
    rw [pending] at hg
    exact ⟨harmed, (hd g hg).latest.trans generation.symm, (hd g hg).slow⟩
  | opened g' _ pending generation latest slow =>
    rw [pending, Option.some.injEq] at hg
    subst hg
    exact ⟨harmed, latest.trans generation.symm, slow⟩
  | cancelled _ _ _ ended => rw [ended] at hg; cases hg
  | lapsed _ _ ended => rw [ended] at hg; cases hg

theorem Sound.reached {d : Detector} (hd : d.Sound) (inputs : List Input) :
    (d.reached inputs).Sound := by
  induction inputs generalizing d with
  | nil => exact hd
  | cons x inputs ih => exact ih (hd.transition x)

/-- Every transition of a course is that of a sound detector. -/
theorem Sound.exists_of_mem {d : Detector} (hd : d.Sound) {inputs : List Input} {t : Transition}
    (ht : t ∈ d.course inputs) : ∃ d' x, Sound d' ∧ t = d'.transition x := by
  obtain ⟨first, x, rest, -, rfl⟩ := exists_of_mem_course ht
  exact ⟨d.reached first, x, hd.reached first, rfl⟩

end Detector

end Invigilator
