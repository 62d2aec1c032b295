import Invigilator.Proofs.Detector.Course

/-!
# Deterrents are inert

A right-click, a key, the back button and a try to leave the page are blocked and no more: they
are *deterrents*. Two lists of inputs that agree on all other inputs may have deterrents
anywhere, before watching begins, in the middle of a grace period or after the end.

A deterrent leaves the detector, and what it sends only speaks (`transition_deterrent`). So the
next input finds the detector as if the deterrent had not been there, and by induction a course
is the course of the other inputs with some transitions put in that do nothing (`reached_others`,
`course_others`). What two such courses share is `Inert`.
-/

namespace Invigilator

/-- Whether a report is of something that is blocked without a penalty. -/
def Signal.isDeterrent : Signal → Bool
  | fullscreenChange _ => false
  | fullscreenDenied => false
  | visibilityChange _ => false
  | windowBlur => false
  | windowFocus => false
  | copy => false
  | paste => false
  | contextMenu => true
  | keyDown .. => true
  | popState => true
  | beforeUnload => true

def DetectorEvent.isDeterrent : DetectorEvent → Bool
  | .arm _ => false
  | .disarm => false
  | .signal s => s.isDeterrent
  | .graceElapsed _ => false

/-- A deterrent is neither a departure nor a return nor a use of the clipboard, and the
environment does not show it. -/
theorem Signal.plain_of_isDeterrent {s : Signal} (hs : s.isDeterrent = true) :
    s.departure? = none ∧ s.isReturn = false ∧ s.clipboard? = none ∧
      ∀ e : Environment, e.observe s = e := by
  cases s <;> first | exact ⟨rfl, rfl, rfl, fun _ => rfl⟩ | cases hs

namespace Detector

/-- A deterrent is taken quietly. -/
theorem Reaction.of_isDeterrent {d d' : Detector} {s : Signal} {ctx : DetectorContext}
    {es : List Effect} (hs : s.isDeterrent = true) (h : Reaction d s ctx d' es) :
    d' = d ∧ ∃ directives, es = spoken directives := by
  obtain ⟨hdeparture, hreturn, hclipboard, hsame⟩ := Signal.plain_of_isDeterrent hs
  cases h with
  | quiet directives =>
    rw [hsame]
    exact ⟨rfl, directives, rfl⟩
  | opened kind g before after departure =>
    rw [hdeparture] at departure
    cases departure
  | recovered back =>
    rw [hreturn] at back
    cases back
  | charged kind message use =>
    rw [hclipboard] at use
    cases use

/-- **A deterrent leaves the detector, and only speaks.** -/
theorem transition_deterrent (d : Detector) {x : Input} (hx : x.event.isDeterrent = true) :
    (d.transition x).after = d ∧ ∃ directives, (d.transition x).effects = spoken directives := by
  obtain ⟨event, ctx⟩ := x
  cases event with
  | arm env => cases hx
  | disarm => cases hx
  | graceElapsed generation => cases hx
  | signal s =>
    cases harmed : d.armed with
    | false =>
      obtain ⟨hafter, heffects⟩ := transition_ignored (x := ⟨.signal s, ctx⟩) harmed
      exact ⟨hafter, [], heffects⟩
    | true =>
      have hstep : d.step (.signal s) ctx = d.onSignal s ctx := if_pos harmed
      have hreact : Reaction d s ctx (d.step (.signal s) ctx).1 (d.step (.signal s) ctx).2 := by
        rw [hstep]
        exact onSignal_reaction d s ctx
      exact hreact.of_isDeterrent hx

/-! ## Courses -/

/-- The inputs that are no deterrents. -/
def others (inputs : List Input) : List Input := inputs.filter fun x => !x.event.isDeterrent

/-- The transitions at inputs that are no deterrents. -/
def courseOfOthers (ts : List Transition) : List Transition :=
  ts.filter fun t => !t.input.event.isDeterrent

theorem others_deterrent {x : Input} (hx : x.event.isDeterrent = true) (inputs : List Input) :
    others (x :: inputs) = others inputs := by
  simp [others, hx]

theorem others_other {x : Input} (hx : x.event.isDeterrent = false) (inputs : List Input) :
    others (x :: inputs) = x :: others inputs := by
  simp [others, hx]

/-- The deterrents among some inputs do not bear on where they lead. -/
theorem reached_others (d : Detector) (inputs : List Input) :
    d.reached (others inputs) = d.reached inputs := by
  induction inputs generalizing d with
  | nil => rfl
  | cons x inputs ih =>
    cases hx : x.event.isDeterrent with
    | true => rw [others_deterrent hx, reached, (transition_deterrent d hx).1, ih]
    | false =>
      rw [others_other hx]
      exact ih (d.transition x).after

/-- The other inputs have the course that they have without deterrents. -/
theorem course_others (d : Detector) (inputs : List Input) :
    d.course (others inputs) = courseOfOthers (d.course inputs) := by
  induction inputs generalizing d with
  | nil => rfl
  | cons x inputs ih =>
    cases hx : x.event.isDeterrent with
    | true =>
      have hskipped : courseOfOthers (d.course (x :: inputs)) =
          courseOfOthers (d.course inputs) := by
        rw [course, (transition_deterrent d hx).1]
        exact List.filter_cons_of_neg (by simp [transition, hx])
      rw [others_deterrent hx, hskipped, ih]
    | false =>
      have hkept : courseOfOthers (d.course (x :: inputs)) =
          d.transition x :: courseOfOthers ((d.transition x).after.course inputs) :=
        List.filter_cons_of_pos (by simp [transition, hx])
      rw [others_other hx, hkept, course, ih]

/-- All that is done in a course, beyond what is said. -/
def allActs (ts : List Transition) : List Effect := ts.flatMap fun t => acts t.effects

/-- The deterrents among some inputs do not bear on what is done. -/
theorem allActs_others (d : Detector) (inputs : List Input) :
    allActs (d.course (others inputs)) = allActs (d.course inputs) := by
  induction inputs generalizing d with
  | nil => rfl
  | cons x inputs ih =>
    cases hx : x.event.isDeterrent with
    | true =>
      obtain ⟨hafter, directives, heffects⟩ := transition_deterrent d hx
      have hacts : allActs (d.course (x :: inputs)) = allActs (d.course inputs) := by
        rw [course, allActs, List.flatMap_cons, heffects, acts_spoken, hafter, List.nil_append]
        rfl
      rw [others_deterrent hx, hacts, ih]
    | false =>
      rw [others_other hx]
      exact congrArg (acts (d.transition x).effects ++ ·) (ih (d.transition x).after)

/-- What two lists of inputs do alike if they differ in deterrents only. -/
structure Inert (d : Detector) (xs ys : List Input) : Prop where
  /-- They lead to the same detector. -/
  reached : d.reached xs = d.reached ys
  /-- Every other input finds the same detector, leaves the same, and has the same effects, those
  that speak included. -/
  others : courseOfOthers (d.course xs) = courseOfOthers (d.course ys)
  /-- The same is done, in the same order. -/
  acts : allActs (d.course xs) = allActs (d.course ys)

/-- **Lists of inputs that differ in deterrents only do the same.** -/
theorem inert_of_others {xs ys : List Input} (d : Detector) (h : others xs = others ys) :
    Inert d xs ys where
  reached := by rw [← reached_others d xs, h, reached_others]
  others := by rw [← course_others, h, course_others]
  acts := by rw [← allActs_others d xs, h, allActs_others]

end Detector

end Invigilator
