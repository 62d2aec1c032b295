import Invigilator.Proofs.Detector.Deterrents
import Invigilator.Proofs.Records.Mirror
import Invigilator.Proofs.Sitting.Echo
import Invigilator.Proofs.Sitting.Metrics

/-!
# Deterrents and the run of an exam

A candidate may press any keys and right-click as often as they like: the exam is the same as if
they had not. At a deterrent the detector stays what it is and its effects only speak, so the
sitting and the store of its lives stay too, and all that the sitting does is to publish
directives (`moment_deterrent`). This needs no invariant. It holds of every sitting, running or
not, whether its parts agree or not, and with every ledger.

What is left of a run without its deterrents is then the same run, moment by moment: `Undisturbed`
says so of two runs whose cues differ in deterrents only.
-/

namespace Invigilator

/-- Whether a stimulus is a report of something that is blocked without a penalty. -/
def Stimulus.isDeterrent : Stimulus → Bool
  | .signal s => s.isDeterrent
  | .update .. => false
  | .recordRun .. => false
  | .submit _ => false
  | .look => false
  | .tick => false
  | .graceElapsed => false
  | .shutdown => false

/-- Whether an action says something to the candidate, and does no more. -/
def Action.isSpoken : Action → Bool
  | .publish e => e.isDirective
  | .write _ => false
  | .note _ => false

/-- The actions that do more than speak. -/
def unspoken (as : List Action) : List Action := as.filter fun a => !a.isSpoken

theorem unspoken_append (as bs : List Action) : unspoken (as ++ bs) = unspoken as ++ unspoken bs :=
  List.filter_append as bs

/-- What only speaks is no write. -/
theorem writes_unspoken (as : List Action) : writes (unspoken as) = writes as := by
  have hwrite : ∀ a : Action, (if !a.isSpoken then a.write? else none) = a.write? := by
    intro a
    cases a with
    | publish e => exact ite_self none
    | write w => rfl
    | note n => rfl
  rw [writes, unspoken, List.filterMap_filter, funext hwrite]
  rfl

namespace Turn

variable {σ : Type} (ledger : LivesLedger σ)

/-! ## One deterrent -/

/-- What is only said to the candidate is published as directives, and nothing else is done. -/
theorem unspoken_applyEffects_spoken (scene : Scene) (directives : List Directive)
    (s : Sitting × σ) :
    unspoken ((applyEffects ledger scene (Detector.spoken directives)).actions s) = [] := by
  induction directives with
  | nil => rfl
  | cons d ds ih =>
    rw [Detector.spoken, List.map_cons, actions_applyEffects_cons, unspoken_append]
    exact ih

/-- What a sitting tells its detector of a deterrent comes back unchanged but for some words. -/
theorem told_deterrent (scene : Scene) {signal : Signal} (h : signal.isDeterrent = true)
    (s : Sitting) :
    ∃ directives, told scene (.signal signal) s = (s.detector, Detector.spoken directives) := by
  let x : Detector.Input := ⟨.signal signal, ⟨scene.now, s.session.livesRemaining⟩⟩
  obtain ⟨hafter, directives, heffects⟩ :=
    Detector.transition_deterrent s.detector (x := x) h
  exact ⟨directives, Prod.ext hafter heffects⟩

/-- A sitting that handles a deterrent stays as it is, and only speaks. -/
theorem handle_deterrent (scene : Scene) {signal : Signal} (h : signal.isDeterrent = true)
    (s : Sitting × σ) :
    (handle ledger scene (.signal signal)).after s = s ∧
      unspoken ((handle ledger scene (.signal signal)).actions s) = [] := by
  obtain ⟨directives, htold⟩ := told_deterrent scene h s.1
  have hsame : (({ s.1 with detector := s.1.detector } : Sitting), s.2) = s := rfl
  have hafter : (handle ledger scene (.signal signal)).after s =
      (onSignal ledger scene signal).after s := rfl
  -- only the refusal of fullscreen is written to the log
  have hgranted : signal ≠ .fullscreenDenied := fun hdenied => by
    rw [hdenied] at h
    cases h
  have hactions : (handle ledger scene (.signal signal)).actions s =
      (applyEffects ledger scene (told scene (.signal signal) s.1).2).actions
        ({ s.1 with detector := (told scene (.signal signal) s.1).1 }, s.2) := by
    simp only [handle, onSignal, actions_bind, hgranted, ↓reduceIte, after_bind, value_bind,
      actions_sitting, value_sitting, after_sitting, actions_pure, after_pure, List.nil_append,
      List.append_nil]
    rfl
  constructor
  · rw [hafter, after_onSignal, htold, after_applyEffects_spoken]
  · rw [hactions, htold, hsame]
    exact unspoken_applyEffects_spoken ledger scene directives s

/-- **A deterrent leaves the sitting and its lives, and only speaks.** -/
theorem moment_deterrent (s : Sitting × σ) {c : Cue} (hc : c.stimulus.isDeterrent = true) :
    (moment ledger s c).after = s ∧ unspoken (moment ledger s c).actions = [] := by
  obtain ⟨scene, stimulus⟩ := c
  cases hrun : s.1.isRunning with
  | false =>
    refine ⟨moment_over ledger _ hrun, ?_⟩
    rw [actions_moment_over ledger _ hrun]
    rfl
  | true =>
    cases stimulus with
    | update index code => cases hc
    | recordRun index result => cases hc
    | submit reason => cases hc
    | look => cases hc
    | tick => cases hc
    | graceElapsed => cases hc
    | shutdown => cases hc
    | signal signal =>
      obtain ⟨hafter, hactions⟩ := handle_deterrent ledger scene hc s
      have hmoment : (moment ledger s ⟨scene, .signal signal⟩).actions =
          (handle ledger scene (.signal signal)).actions s := by
        rw [moment, actions_step_running ledger scene _ hrun, hafter, if_pos hrun, List.append_nil]
      rw [hmoment]
      exact ⟨(after_step_running ledger scene _ hrun).trans hafter, hactions⟩

/-! ## Runs -/

/-- The cues that are no deterrents. -/
def others (cues : List Cue) : List Cue := cues.filter fun c => !c.stimulus.isDeterrent

/-- The moments at cues that are no deterrents. -/
def historyOfOthers (ms : List (Moment σ)) : List (Moment σ) :=
  ms.filter fun m => !m.cue.stimulus.isDeterrent

theorem others_deterrent {c : Cue} (hc : c.stimulus.isDeterrent = true) (cues : List Cue) :
    others (c :: cues) = others cues := by
  simp [others, hc]

theorem others_other {c : Cue} (hc : c.stimulus.isDeterrent = false) (cues : List Cue) :
    others (c :: cues) = c :: others cues := by
  simp [others, hc]

theorem reached_others (s : Sitting × σ) (cues : List Cue) :
    reached ledger s (others cues) = reached ledger s cues := by
  induction cues generalizing s with
  | nil => rfl
  | cons c cues ih =>
    cases hc : c.stimulus.isDeterrent with
    | true => rw [others_deterrent hc, reached, (moment_deterrent ledger s hc).1, ih]
    | false =>
      rw [others_other hc]
      exact ih (moment ledger s c).after

/-- The other cues have the history that they have without deterrents. -/
theorem history_others (s : Sitting × σ) (cues : List Cue) :
    history ledger s (others cues) = historyOfOthers (history ledger s cues) := by
  induction cues generalizing s with
  | nil => rfl
  | cons c cues ih =>
    cases hc : c.stimulus.isDeterrent with
    | true =>
      have hskipped : historyOfOthers (history ledger s (c :: cues)) =
          historyOfOthers (history ledger s cues) := by
        rw [history, (moment_deterrent ledger s hc).1]
        exact List.filter_cons_of_neg (by simp [moment, hc])
      rw [others_deterrent hc, hskipped, ih]
    | false =>
      have hkept : historyOfOthers (history ledger s (c :: cues)) =
          moment ledger s c :: historyOfOthers (history ledger (moment ledger s c).after cues) :=
        List.filter_cons_of_pos (by simp [moment, hc])
      rw [others_other hc, hkept, history, ih]

/-- The deterrents of a run do not bear on what it does beyond speaking. -/
theorem unspoken_deeds_others (s : Sitting × σ) (cues : List Cue) :
    unspoken (deeds ledger s (others cues)) = unspoken (deeds ledger s cues) := by
  have hhistory : ∀ (s : Sitting × σ) (cues : List Cue),
      unspoken ((history ledger s (others cues)).flatMap Moment.actions) =
        unspoken ((history ledger s cues).flatMap Moment.actions) := by
    intro s cues
    induction cues generalizing s with
    | nil => rfl
    | cons c cues ih =>
      cases hc : c.stimulus.isDeterrent with
      | true =>
        obtain ⟨hafter, hactions⟩ := moment_deterrent ledger s hc
        rw [others_deterrent hc, ih, history, List.flatMap_cons, unspoken_append, hactions, hafter,
          List.nil_append]
      | false =>
        rw [others_other hc, history, history, List.flatMap_cons, List.flatMap_cons,
          unspoken_append, unspoken_append, ih]
  rw [deeds, deeds, unspoken_append, unspoken_append, hhistory]

/-- What two runs have in common if their cues differ in deterrents only. -/
structure Undisturbed (s : Sitting × σ) (xs ys : List Cue) : Prop where
  /-- They end in the same sitting, with its lives, violations, grace period, answers and status,
  and in the same store of lives. -/
  reached : reached ledger s xs = reached ledger s ys
  /-- Every other cue finds the same and leaves the same, with the same reply and actions. -/
  others : historyOfOthers (history ledger s xs) = historyOfOthers (history ledger s ys)
  /-- The same is done, in the same order. -/
  unspoken : unspoken (deeds ledger s xs) = unspoken (deeds ledger s ys)
  /-- The same is written to the records, in the same order. -/
  writes : writes (deeds ledger s xs) = writes (deeds ledger s ys)

/-- Runs whose cues differ in deterrents only are the same but for what deterrents say. -/
theorem undisturbed_of_others (s : Sitting × σ) {xs ys : List Cue} (h : others xs = others ys) :
    Undisturbed ledger s xs ys where
  reached := by rw [← reached_others ledger s xs, h, reached_others]
  others := by rw [← history_others, h, history_others]
  unspoken := by rw [← unspoken_deeds_others ledger s xs, h, unspoken_deeds_others]
  writes := by
    rw [← writes_unspoken, ← unspoken_deeds_others ledger s xs, h, unspoken_deeds_others,
      writes_unspoken]

/-- **Deterrents are inert**, for a detector in whatever state and for whole sittings. -/
theorem deterrents_inert (d : Detector) {inputs inputs' : List Detector.Input}
    (hinputs : Detector.others inputs = Detector.others inputs') (s : Sitting × σ)
    {cues cues' : List Cue} (hcues : others cues = others cues') :
    Detector.Inert d inputs inputs' ∧ Undisturbed ledger s cues cues' :=
  ⟨Detector.inert_of_others d hinputs, undisturbed_of_others ledger s hcues⟩

/-- In the middle of a grace period a right-click and a blocked key are put in, and a try to leave
the page is left out. -/
theorem deterrents_inert_midGrace :
    let away : Detector.Input := ⟨.signal (.fullscreenChange false), ⟨0, 2⟩⟩
    let elapsed : Detector.Input := ⟨.graceElapsed 1, ⟨10000, 2⟩⟩
    let inputs : List Detector.Input := [away, ⟨.signal .beforeUnload, ⟨500, 2⟩⟩, elapsed]
    let inputs' : List Detector.Input :=
      [away, ⟨.signal .contextMenu, ⟨600, 2⟩⟩, ⟨.signal (.keyDown "F5" false false), ⟨700, 2⟩⟩,
        elapsed]
    let left : Cue := .at 0 (.signal (.fullscreenChange false))
    let cues := [left, .at 500 (.signal .beforeUnload), .at 10000 .graceElapsed]
    let cues' := [left, .at 600 (.signal .contextMenu),
      .at 700 (.signal (.keyDown "F5" false false)), .at 10000 .graceElapsed]
    let s := (Sitting.specimen 2, Shelf.empty)
    Detector.others inputs = Detector.others inputs' ∧ others cues = others cues' ∧
      (history (.lasting Shelf.store 2) s cues).length ≠
        (history (.lasting Shelf.store 2) s cues').length ∧
      (reached (.lasting Shelf.store 2) s cues').1.session.livesRemaining = 1 ∧
      Detector.Inert { Detector.new 10000 with armed := true } inputs inputs' ∧
      Undisturbed (.lasting Shelf.store 2) s cues cues' := by
  intro away elapsed inputs inputs' left cues cues' s
  have hinputs : Detector.others inputs = Detector.others inputs' := by decide
  have hcues : others cues = others cues' := by decide
  refine ⟨hinputs, hcues, by simp [cues, cues'], by decide +kernel, ?_⟩
  exact deterrents_inert (.lasting Shelf.store 2) { Detector.new 10000 with armed := true }
    hinputs s hcues

end Turn

end Invigilator
