import Invigilator.Proofs.Detector.Brackets

/-!
# No excursion is free

The environment and the grace period are kept apart: a report may change one without the other,
and a period that runs out leaves the environment as it is. `Vigilant` says how they hang together
when watching begins in the nominal environment and there is a life to lose.

* A candidate who is away has a grace period pending, or has been penalized since they were last
  there.
* A grace period that is pending while the exam is visible and in fullscreen is for the lost focus,
  and the focus is still lost.
* A grace period ends without penalty when watching ends, or by a report of coming back that
  completes the return; and every such report ends it.

Who is away without a period pending must have come into that state by a transition, and
`Move.unattended` says by which: only the end of a period leads there.
-/

namespace Invigilator

/-! ## What reports do to the environment -/

namespace Environment

variable {e : Environment} {s : Signal} {kind : ViolationType}

/-- Only a report of coming back can complete a return. -/
theorem isRecovered_of_observe (hs : s.isReturn = false)
    (h : (e.observe s).isRecovered = true) : e.isRecovered = true := by
  cases s with
  | fullscreenChange active =>
    cases active with
    | true => cases hs
    | false => cases h
  | visibilityChange hidden =>
    cases hidden with
    | true => simp [observe, isRecovered] at h
    | false => cases hs
  | fullscreenDenied => cases h
  | windowFocus => cases hs
  | windowBlur => exact h
  | copy => exact h
  | paste => exact h
  | contextMenu => exact h
  | keyDown => exact h
  | popState => exact h
  | beforeUnload => exact h

/-- Only a report of leaving can end a stay. -/
theorem isRecovered_observe (hs : s.departure? = none) (h : e.isRecovered = true) :
    (e.observe s).isRecovered = true := by
  cases s with
  | fullscreenChange active =>
    cases active with
    | true =>
      rw [isRecovered, Bool.and_eq_true] at h
      exact h.2
    | false => cases hs
  | visibilityChange hidden =>
    cases hidden with
    | true => cases hs
    | false =>
      rw [isRecovered, Bool.and_eq_true] at h
      simp [observe, isRecovered, h.1]
  | fullscreenDenied => cases hs
  | windowBlur => cases hs
  | windowFocus => exact h
  | copy => exact h
  | paste => exact h
  | contextMenu => exact h
  | keyDown => exact h
  | popState => exact h
  | beforeUnload => exact h

/-- Of the reports of leaving, only that of the lost focus leaves the exam visible and in
fullscreen. -/
theorem blur_of_departure? (hs : s.departure? = some kind)
    (h : (e.observe s).isRecovered = true) :
    kind = .windowBlur ∧ (e.observe s).focused = false := by
  cases s with
  | fullscreenChange active =>
    cases active with
    | true => cases hs
    | false => cases h
  | visibilityChange hidden =>
    cases hidden with
    | true => simp [observe, isRecovered] at h
    | false => cases hs
  | fullscreenDenied => cases h
  | windowBlur => exact ⟨(Option.some.inj hs).symm, rfl⟩
  | windowFocus => cases hs
  | copy => cases hs
  | paste => cases hs
  | contextMenu => cases hs
  | keyDown => cases hs
  | popState => cases hs
  | beforeUnload => cases hs

/-- The focus comes back only by a report of coming back. -/
theorem focused_observe (hs : s.isReturn = false) (h : e.focused = false) :
    (e.observe s).focused = false := by
  cases s with
  | windowFocus => cases hs
  | windowBlur => rfl
  | fullscreenChange => exact h
  | fullscreenDenied => exact h
  | visibilityChange => exact h
  | copy => exact h
  | paste => exact h
  | contextMenu => exact h
  | keyDown => exact h
  | popState => exact h
  | beforeUnload => exact h

end Environment

namespace Detector

variable {d d' : Detector} {x : Input} {s : Signal} {ctx : DetectorContext} {es : List Effect}

/-! ## One transition -/

/-- Away from the exam, watched, and without a grace period. -/
structure Unattended (d : Detector) : Prop where
  armed : d.armed = true
  away : d.env.isRecovered = false
  safe : d.pending = none

/-- No report leads out of a grace period and leaves the candidate away. -/
theorem Reaction.unattended (h : Reaction d s ctx d' es) (halive : 0 < ctx.livesRemaining)
    (hd : d'.Unattended) : d.Unattended := by
  have harmed : d.armed = true := h.armed.symm.trans hd.armed
  cases h with
  | quiet directives notBack notCharged notOpened =>
    have hsafe : d.pending = none := hd.safe
    refine ⟨harmed, Bool.of_not_eq_true fun hhome => ?_, hsafe⟩
    -- the candidate was there and is away now, so this was a departure, and it counts
    cases hdeparture : s.departure? with
    | none =>
      have haway : (d.env.observe s).isRecovered = false := hd.away
      rw [Environment.isRecovered_observe hdeparture hhome] at haway
      cases haway
    | some kind =>
      have hblur := (notOpened (by rw [hdeparture]; rfl) hsafe halive).2
      rw [hhome] at hblur
      cases hblur
  | opened kind g => cases hd.safe
  | recovered back pending whole =>
    have haway : (d.env.observe s).isRecovered = false := hd.away
    rw [whole] at haway
    cases haway
  | charged kind message use =>
    have henv := Environment.observe_of_clipboard? d.env use
    have haway : (d.env.observe s).isRecovered = false := hd.away
    rw [henv] at haway
    exact ⟨harmed, haway, hd.safe⟩

/-- A candidate comes to be away without a grace period only by a penalty. -/
theorem Move.unattended (h : Move d x.ctx x.event d' es)
    (hnominal : ∀ env, x.event = .arm env → env = .nominal)
    (halive : 0 < x.ctx.livesRemaining) (hd : d'.Unattended) :
    d.Unattended ∨ ∃ generation, (⟨x, d, d', es⟩ : Transition).penalizes generation = true := by
  obtain ⟨event, ctx⟩ := x
  cases h with
  | ignored => exact Or.inl hd
  | reacted s d' es armed reaction => exact Or.inl (reaction.unattended halive hd)
  | lapsed g armed pending =>
    refine Or.inr ⟨g.generation, ?_⟩
    rw [Transition.penalizes, Bool.and_eq_true, decide_eq_true_eq, List.any_eq_true]
    exact ⟨rfl, _, List.mem_cons_of_mem _ (loseLife_mem_penalty halive), rfl⟩
  | disarmed => cases hd.armed
  | armed env =>
    have haway : env.isRecovered = false := hd.away
    rw [hnominal env rfl] at haway
    cases haway
  | armedAway env g => cases hd.safe

/-- A grace period that is pending although the candidate is there is for the lost focus. -/
def BlurOnly (d : Detector) : Prop :=
  ∀ g, d.pending = some g → d.env.isRecovered = true →
    g.violation = .windowBlur ∧ d.env.focused = false

theorem Reaction.blurOnly (h : Reaction d s ctx d' es) (hd : d.BlurOnly) : d'.BlurOnly := by
  intro g hg hhome
  cases h with
  | quiet directives notBack =>
    have hpending : d.pending = some g := hg
    have hback : s.isReturn = false := by
      refine Bool.of_not_eq_true fun hback => ?_
      have haway := notBack hback (by rw [hpending]; rfl)
      have hhome : (d.env.observe s).isRecovered = true := hhome
      rw [haway] at hhome
      cases hhome
    obtain ⟨hkind, hfocus⟩ := hd g hpending (Environment.isRecovered_of_observe hback hhome)
    exact ⟨hkind, Environment.focused_observe hback hfocus⟩
  | opened kind g' before after departure safe alive blur opens =>
    cases hg
    rw [opens.violation]
    exact Environment.blur_of_departure? departure hhome
  | recovered => cases hg
  | charged kind message use =>
    have henv := Environment.observe_of_clipboard? d.env use
    rw [henv] at hhome ⊢
    exact hd g hg hhome

/-- **Only the lost focus leaves a grace period pending while the candidate is there.** -/
theorem Move.blurOnly {event : DetectorEvent} (h : Move d ctx event d' es) (hd : d.BlurOnly) :
    d'.BlurOnly := by
  cases h with
  | ignored => exact hd
  | reacted s d' es armed reaction => exact reaction.blurOnly hd
  | lapsed => exact nofun
  | disarmed => exact nofun
  | armed => exact nofun
  | armedAway env g unarmed away =>
    intro _ _ hhome
    have hhome : env.isRecovered = true := hhome
    rw [Environment.isRecovered, away] at hhome
    cases hhome

/-- How a grace period ends without a penalty. -/
theorem Move.ends (h : Move d x.ctx x.event d' es) (hd : d.Sound)
    (halive : 0 < x.ctx.livesRemaining) {g : Grace} (hg : d.pending = some g)
    (hover : d'.pending ≠ some g) (hfree : ∀ kind, .loseLife kind ∉ es) :
    x.event = .disarm ∨
      ∃ s, x.event = .signal s ∧ s.isReturn = true ∧ d'.env.isRecovered = true := by
  obtain ⟨event, ctx⟩ := x
  cases h with
  | ignored => exact absurd hg hover
  | reacted s d' es armed reaction =>
    refine Or.inr ⟨s, rfl, ?_⟩
    cases reaction with
    | quiet => exact absurd hg hover
    | opened kind g' before after departure safe => rw [safe] at hg; cases hg
    | recovered back pending whole => exact ⟨back, whole⟩
    | charged => exact absurd hg hover
  | lapsed g' armed pending =>
    exact absurd (List.mem_cons_of_mem _ (loseLife_mem_penalty halive)) (hfree g'.violation)
  | disarmed => exact Or.inl rfl
  | armed env unarmed => rw [hd.pending_unarmed unarmed] at hg; cases hg
  | armedAway env g' unarmed => rw [hd.pending_unarmed unarmed] at hg; cases hg

/-- A report that completes the return ends the pending grace period, and costs nothing. -/
theorem Move.returns (h : Move d x.ctx x.event d' es) (hd : d.Sound) {g : Grace}
    (hg : d.pending = some g) (hs : x.event = .signal s) (hback : s.isReturn = true)
    (hhome : d'.env.isRecovered = true) :
    d'.pending = none ∧ ∀ kind, .loseLife kind ∉ es := by
  obtain ⟨event, ctx⟩ := x
  cases h with
  | ignored event deaf =>
    have hs : event = .signal s := hs
    subst hs
    have hunarmed : d.armed = false := deaf
    rw [(hd g hg).armed] at hunarmed
    cases hunarmed
  | reacted s' d' es armed reaction =>
    cases hs
    cases reaction with
    | quiet directives notBack =>
      have haway := notBack hback (by rw [hg]; rfl)
      have hhome : (d.env.observe s).isRecovered = true := hhome
      rw [haway] at hhome
      cases hhome
    | opened kind g' before after departure safe => rw [safe] at hg; cases hg
    | recovered => exact ⟨rfl, by simp [spoken]⟩
    | charged kind message use =>
      rw [Signal.isReturn_of_clipboard? use] at hback
      cases hback
  | lapsed => cases hs
  | disarmed => cases hs
  | armed => cases hs
  | armedAway => cases hs

/-! ## Courses -/

/-- Who is away without a grace period has been penalized since they were last there. -/
theorem penalized_since (hhome : d.env.isRecovered = true) (rest : List Input)
    (hnominal : ∀ x ∈ rest, ∀ env, x.event = .arm env → env = .nominal)
    (halive : ∀ x ∈ rest, 0 < x.ctx.livesRemaining) (hd : (d.reached rest).Unattended) :
    ∃ t ∈ d.course rest, ∃ generation, t.penalizes generation = true := by
  induction rest using List.reverseRecOn with
  | nil =>
    have haway := hd.away
    rw [reached_nil, hhome] at haway
    cases haway
  | append_singleton rest x ih =>
    rw [reached_concat] at hd
    have hmem : x ∈ rest ++ [x] := List.mem_append_right _ (List.mem_singleton_self x)
    rw [course_concat]
    rcases (transition_move (d.reached rest) x).unattended (hnominal x hmem) (halive x hmem) hd with
      hbefore | hpenalty
    · obtain ⟨t, ht, hpenalty⟩ := ih (fun y hy => hnominal y (List.mem_append_left _ hy))
        (fun y hy => halive y (List.mem_append_left _ hy)) hbefore
      exact ⟨t, List.mem_append_left _ ht, hpenalty⟩
    · exact ⟨_, List.mem_append_right _ (List.mem_singleton_self _), hpenalty⟩

theorem blurOnly_reached (hd : d.BlurOnly) (inputs : List Input) :
    (d.reached inputs).BlurOnly := by
  induction inputs generalizing d with
  | nil => exact hd
  | cons x inputs ih => exact ih ((transition_move d x).blurOnly hd)

/-- What holds of a course under which no excursion is free. -/
structure Vigilant (d : Detector) (inputs : List Input) : Prop where
  /-- A candidate who is away has a grace period pending, or was penalized by one since they were
  last there: after each point at which they were, and so after the last. -/
  away : (d.reached inputs).armed = true → (d.reached inputs).env.isRecovered = false →
    (d.reached inputs).pending.isSome = true ∨
      ∀ first rest, inputs = first ++ rest → (d.reached first).env.isRecovered = true →
        ∃ t ∈ (d.reached first).course rest, ∃ generation, t.penalizes generation = true
  /-- A grace period that is pending while the candidate is there is for the lost focus. -/
  there : (d.reached inputs).armed = true → (d.reached inputs).env.isRecovered = true →
    ∀ g, (d.reached inputs).pending = some g →
      g.violation = .windowBlur ∧ (d.reached inputs).env.focused = false
  /-- A grace period ends without a penalty when watching ends or when the return is complete. -/
  ends : ∀ t ∈ d.course inputs, ∀ g, t.before.pending = some g → t.after.pending ≠ some g →
    (∀ kind, .loseLife kind ∉ t.effects) →
      t.input.event = .disarm ∨ ∃ s, t.input.event = .signal s ∧ s.isReturn = true ∧
        t.after.env.isRecovered = true
  /-- Every report that completes the return ends it. -/
  returns : ∀ t ∈ d.course inputs, ∀ g s, t.before.pending = some g → t.input.event = .signal s →
    s.isReturn = true → t.after.env.isRecovered = true →
      t.after.pending = none ∧ ∀ kind, .loseLife kind ∉ t.effects

/-- **No excursion is free, and a return has to be complete,** whatever is reported in whatever
order, as long as watching begins in the nominal environment and there is a life to lose. -/
theorem no_free_excursion (gracePeriod : Nat) (inputs : List Input)
    (hnominal : ∀ x ∈ inputs, ∀ env, x.event = .arm env → env = .nominal)
    (halive : ∀ x ∈ inputs, 0 < x.ctx.livesRemaining) : Vigilant (new gracePeriod) inputs := by
  have hd := sound_new gracePeriod
  constructor
  case away =>
    intro harmed haway
    cases hpending : ((new gracePeriod).reached inputs).pending with
    | some g => exact Or.inl rfl
    | none =>
      refine Or.inr ?_
      rintro first rest rfl hhome
      refine penalized_since hhome rest (fun x hx => hnominal x (List.mem_append_right _ hx))
        (fun x hx => halive x (List.mem_append_right _ hx)) ?_
      rw [← reached_append]
      exact ⟨harmed, haway, hpending⟩
  case there =>
    intro _ hhome g hg
    have hblur : (new gracePeriod).BlurOnly := nofun
    exact blurOnly_reached hblur inputs g hg hhome
  case ends =>
    intro t ht g hg hover hfree
    obtain ⟨first, x, rest, rfl, rfl⟩ := exists_of_mem_course ht
    exact (transition_move _ x).ends (hd.reached first)
      (halive x (List.mem_append_right _ List.mem_cons_self)) hg hover hfree
  case returns =>
    intro t ht g s hg hs hback hhome
    obtain ⟨d, x, hd, rfl⟩ := hd.exists_of_mem ht
    exact (transition_move d x).returns hd hg hs hback hhome

/-- An event at a time, with three lives left. -/
def Input.at (now : Instant) (event : DetectorEvent) : Input := ⟨event, ⟨now, 3⟩⟩

/-- A candidate leaves the screen and is penalized, stays away, comes back, and loses the focus. -/
def absence : List Input :=
  [.at 0 (.arm .nominal), .at 1000 (.signal (.fullscreenChange false)),
    .at 11000 (.graceElapsed 1), .at 12000 (.signal .windowBlur), .at 13000 (.signal .windowFocus),
    .at 14000 (.signal (.fullscreenChange true)), .at 15000 (.signal .windowBlur)]

theorem no_free_excursion_absence :
    ((new 10000).reached absence).pending = some ⟨.windowBlur, 25000, 2⟩ ∧
      Vigilant (new 10000) absence :=
  ⟨by decide, no_free_excursion 10000 absence (by simp [absence, Input.at]) (by decide)⟩

end Detector

end Invigilator
