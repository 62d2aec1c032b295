import Invigilator.Exam.Detector

/-!
# How the detector reacts

There are only four ways in which an armed detector can take a report of the browser: it stays
quiet, it opens a grace period, it ends one because the candidate is back, or it charges a life
for the use of the clipboard. `Reaction` lists them with what each demands and what each does,
and `onSignal_reaction` says that the list is complete. Everything that is proved about reports
goes through it, and nothing else opens `onSignal`.

The other two events of a running exam are simpler and get one equation for each case.
-/

namespace Invigilator

/-- The environment after a report. -/
def Environment.observe (e : Environment) : Signal → Environment
  | .fullscreenChange active => { e with fullscreen := active }
  | .fullscreenDenied => { e with fullscreen := false }
  | .visibilityChange hidden => { e with visible := !hidden }
  | .windowBlur => { e with focused := false }
  | .windowFocus => { e with focused := true }
  | .copy => e
  | .paste => e
  | .contextMenu => e
  | .keyDown .. => e
  | .popState => e
  | .beforeUnload => e

namespace Signal

/-- The kind of violation that a report of leaving the exam stands for. -/
def departure? : Signal → Option ViolationType
  | fullscreenChange false => some .fullscreenExit
  | fullscreenDenied => some .fullscreenExit
  | visibilityChange true => some .tabSwitch
  | windowBlur => some .windowBlur
  | _ => none

/-- Whether a report says that the candidate is coming back. -/
def isReturn : Signal → Bool
  | fullscreenChange true => true
  | visibilityChange false => true
  | windowFocus => true
  | _ => false

/-- The kind of violation that a use of the clipboard is. -/
def clipboard? : Signal → Option ViolationType
  | copy => some .copy
  | paste => some .paste
  | _ => none

/-- A report of leaving is no use of the clipboard. -/
theorem clipboard?_of_departure? {s : Signal} {kind : ViolationType}
    (h : s.departure? = some kind) : s.clipboard? = none := by
  cases s <;> simp_all [departure?, clipboard?]

/-- A use of the clipboard is no report of coming back. -/
theorem isReturn_of_clipboard? {s : Signal} {kind : ViolationType}
    (h : s.clipboard? = some kind) : s.isReturn = false := by
  unfold clipboard? at h
  split at h <;> first | rfl | cases h

/-- A report of leaving is no report of coming back. -/
theorem isReturn_of_departure? {s : Signal} {kind : ViolationType}
    (h : s.departure? = some kind) : s.isReturn = false := by
  unfold departure? at h
  split at h <;> first | rfl | cases h

/-- A kind of use of the clipboard has only one report. -/
theorem eq_of_clipboard? {s s' : Signal} {kind : ViolationType} (h : s.clipboard? = some kind)
    (h' : s'.clipboard? = some kind) : s = s' := by
  unfold clipboard? at h h'
  split at h <;> split at h' <;> cases h <;> first | rfl | cases h'

/-- Leaving is penalized after a grace period, never on the spot. -/
theorem isInstantaneous_of_departure? {s : Signal} {kind : ViolationType}
    (h : s.departure? = some kind) : kind.isInstantaneous = false := by
  unfold departure? at h
  split at h <;> cases h <;> rfl

/-- Use of the clipboard is penalized on the spot. -/
theorem isInstantaneous_of_clipboard? {s : Signal} {kind : ViolationType}
    (h : s.clipboard? = some kind) : kind.isInstantaneous = true := by
  unfold clipboard? at h
  split at h <;> cases h <;> rfl

end Signal

/-- A grace period as the detector opens it. -/
structure Grace.Opens (g : Grace) (d : Detector) (kind : ViolationType) (now : Instant) : Prop where
  violation : g.violation = kind
  /-- It ends a full period after it was opened. -/
  deadline : g.deadline = now + d.gracePeriod
  /-- It is numbered after all earlier ones. -/
  generation : g.generation = d.generation + 1

/-- A use of the clipboard is not seen in the environment. -/
theorem Environment.observe_of_clipboard? {s : Signal} {kind : ViolationType} (e : Environment)
    (h : s.clipboard? = some kind) : e.observe s = e := by
  unfold Signal.clipboard? at h
  split at h <;> first | rfl | cases h

namespace Detector

variable {d : Detector} {s : Signal} {ctx : DetectorContext}

/-- Effects that only speak to the candidate. -/
def spoken (directives : List Directive) : List Effect := directives.map .directive

/-- What a report does to an armed detector. -/
inductive Reaction (d : Detector) (s : Signal) (ctx : DetectorContext) :
    Detector → List Effect → Prop where
  /-- The report is noted. It was no return that completes a recovery, no use of the clipboard
  that costs a life, and no departure that counts. -/
  | quiet (directives : List Directive)
      (notBack : s.isReturn = true → d.pending.isSome = true →
        (d.env.observe s).isRecovered = false)
      (notCharged : s.clipboard?.isSome = true → ctx.livesRemaining = 0)
      (notOpened : s.departure?.isSome = true → d.pending = none → 0 < ctx.livesRemaining →
        s = .windowBlur ∧ d.env.isRecovered = false) :
      Reaction d s ctx { d with env := d.env.observe s } (spoken directives)
  /-- A grace period opens. Losing the focus opens one only of a visible fullscreen exam. -/
  | opened (kind : ViolationType) (g : Grace) (before after : List Directive)
      (departure : s.departure? = some kind) (safe : d.pending = none)
      (alive : 0 < ctx.livesRemaining) (blur : s = .windowBlur → d.env.isRecovered = true)
      (opens : g.Opens d kind ctx.now) :
      Reaction d s ctx
        { d with
          env := d.env.observe s, generation := d.generation + 1, pending := some g }
        (spoken before ++ .startGrace g.deadline g.generation :: spoken after)
  /-- The candidate is back in time. -/
  | recovered (back : s.isReturn = true) (pending : d.pending.isSome = true)
      (whole : (d.env.observe s).isRecovered = true) :
      Reaction d s ctx { d with env := d.env.observe s, pending := none }
        (.cancelGrace .recovered :: spoken [.clearWarning])
  /-- A use of the clipboard costs a life. -/
  | charged (kind : ViolationType) (message : String) (use : s.clipboard? = some kind)
      (alive : 0 < ctx.livesRemaining) :
      Reaction d s ctx { d with env := d.env.observe s }
        (.directive .preventDefault :: .loseLife kind :: spoken [.notify message])

/-- What a try to recover does on a report of coming back. -/
theorem tryRecover_reaction (hs : s.isReturn = true) :
    Reaction d s ctx ({ d with env := d.env.observe s } : Detector).tryRecover.1
      ({ d with env := d.env.observe s } : Detector).tryRecover.2 := by
  have hclip : s.clipboard? = none := by cases s <;> simp_all [Signal.isReturn, Signal.clipboard?]
  have hdep : s.departure? = none := by
    unfold Signal.isReturn at hs
    split at hs <;> first | rfl | cases hs
  unfold tryRecover
  split
  · rename_i h
    rw [Bool.and_eq_true] at h
    exact .recovered hs h.1 h.2
  · rename_i h
    refine .quiet [] ?_ (by simp [hclip]) (by simp [hdep])
    intro _ hp
    rw [Bool.and_eq_true, not_and, Bool.not_eq_true] at h
    exact h hp

/-- What a try to open a grace period does on a report of leaving, after some directives. -/
theorem openGrace_reaction {kind : ViolationType} (before : List Directive)
    (hs : s.departure? = some kind) (hlives : 0 < ctx.livesRemaining)
    (hblur : s = .windowBlur → d.env.isRecovered = true) :
    Reaction d s ctx (({ d with env := d.env.observe s } : Detector).openGrace kind ctx).1
      (spoken before ++ (({ d with env := d.env.observe s } : Detector).openGrace kind ctx).2) := by
  have hret := Signal.isReturn_of_departure? hs
  have hclip := Signal.clipboard?_of_departure? hs
  unfold openGrace
  split
  · rename_i g hp
    rw [List.append_nil]
    refine .quiet before (fun h => ?_) (fun h => ?_) (fun _ hsafe => ?_)
    · rw [hret] at h; cases h
    · rw [hclip] at h; cases h
    · rw [hsafe] at hp; cases hp
  · rename_i hp
    exact .opened kind _ before [_] hs hp hlives hblur ⟨rfl, rfl, rfl⟩

/-- A use of the clipboard is charged if there is a life to lose. -/
theorem clipboard_reaction {kind : ViolationType} (message : String)
    (hs : s.clipboard? = some kind) :
    Reaction d s ctx d (clipboard kind message ctx) := by
  have hdep : s.departure? = none := by
    unfold Signal.clipboard? at hs
    split at hs <;> first | rfl | cases hs
  have hret := Signal.isReturn_of_clipboard? hs
  have hd : d = { d with env := d.env.observe s } := by
    rw [Environment.observe_of_clipboard? d.env hs]
  unfold clipboard
  split
  · rename_i h
    have hreact : Reaction d s ctx _ _ := .charged kind message hs h
    rwa [← hd] at hreact
  · rename_i h
    have hreact : Reaction d s ctx _ _ :=
      .quiet [.preventDefault, .notify message] (by simp [hret])
        (fun _ => Nat.eq_zero_of_not_pos h) (by simp [hdep])
    rwa [← hd] at hreact

/-- A report that has nothing to do with the environment or the clipboard only speaks. -/
theorem deterrent_reaction (directives : List Directive) (henv : d.env.observe s = d.env)
    (hdep : s.departure? = none) (hclip : s.clipboard? = none) (hret : s.isReturn = false) :
    Reaction d s ctx d (spoken directives) := by
  have hd : d = { d with env := d.env.observe s } := by rw [henv]
  have hreact : Reaction d s ctx _ _ :=
    .quiet directives (by simp [hret]) (by simp [hclip]) (by simp [hdep])
  rwa [← hd] at hreact

/-- A report of leaving that comes when no life is left, or that does not count, is only noted. -/
theorem ignored_reaction {kind : ViolationType} (before : List Directive)
    (hs : s.departure? = some kind)
    (hopen : 0 < ctx.livesRemaining → s = .windowBlur ∧ d.env.isRecovered = false) :
    Reaction d s ctx { d with env := d.env.observe s } (spoken before) := by
  have hret := Signal.isReturn_of_departure? hs
  exact .quiet before (by simp [hret]) (by simp [Signal.clipboard?_of_departure? hs])
    (fun _ _ h => hopen h)

/-- **Every report is taken in one of the four ways.** -/
theorem onSignal_reaction (d : Detector) (s : Signal) (ctx : DetectorContext) :
    Reaction d s ctx (d.onSignal s ctx).1 (d.onSignal s ctx).2 := by
  cases s with
  | fullscreenChange active =>
    cases active with
    | true => exact tryRecover_reaction rfl
    | false =>
      by_cases hlives : 0 < ctx.livesRemaining
      · simp only [onSignal, hlives]
        exact openGrace_reaction [] rfl hlives (by simp)
      · simp only [onSignal, hlives]
        exact ignored_reaction [] rfl (fun h => absurd h hlives)
  | fullscreenDenied =>
    by_cases hlives : 0 < ctx.livesRemaining
    · simp only [onSignal, hlives]
      exact openGrace_reaction [.notify fullscreenRequired] rfl hlives (by simp)
    · simp only [onSignal, hlives]
      exact ignored_reaction [.notify fullscreenRequired] rfl (fun h => absurd h hlives)
  | visibilityChange hidden =>
    cases hidden with
    | false => exact tryRecover_reaction rfl
    | true =>
      by_cases hlives : 0 < ctx.livesRemaining
      · simp only [onSignal, hlives]
        exact openGrace_reaction [] rfl hlives (by simp)
      · simp only [onSignal, hlives]
        exact ignored_reaction [] rfl (fun h => absurd h hlives)
  | windowBlur =>
    simp only [onSignal]
    split
    · rename_i h
      refine openGrace_reaction [] rfl h.1 (fun _ => ?_)
      simp [Environment.isRecovered, h.2.1, h.2.2]
    · rename_i h
      -- a blur counts only while nothing else is amiss
      refine ignored_reaction [] rfl (fun hlives => ⟨rfl, ?_⟩)
      simp only [hlives, true_and, not_and, Bool.not_eq_true] at h
      cases hv : d.env.visible <;> simp_all [Environment.isRecovered]
  | windowFocus => exact tryRecover_reaction rfl
  | copy => exact clipboard_reaction copyBlocked rfl
  | paste => exact clipboard_reaction pasteBlocked rfl
  | contextMenu => exact deterrent_reaction [_, _] rfl rfl rfl rfl
  | keyDown key ctrl command =>
    simp only [onSignal]
    split
    · exact deterrent_reaction [_, _] rfl rfl rfl rfl
    · exact deterrent_reaction [] rfl rfl rfl rfl
  | popState => exact deterrent_reaction [_, _, _] rfl rfl rfl rfl
  | beforeUnload => exact deterrent_reaction [_, _] rfl rfl rfl rfl

/-! ## The end of a grace period, and of watching -/

/-- The timer of the pending grace period ends it, and costs a life if there is one. -/
theorem onGraceElapsed_pending {g : Grace} (h : d.pending = some g) :
    d.onGraceElapsed g.generation ctx =
      ({ d with pending := none }, .directive .clearWarning :: penalty g.violation ctx) := by
  simp [onGraceElapsed, h]

/-- Watching ends for good: nothing is pending afterwards. -/
theorem disarm_armed (h : d.armed = true) :
    d.disarm.1 = { d with armed := false, pending := none } := by
  simp [disarm, h]

/-- The end of watching takes a pending grace period back. -/
theorem disarm_effects (h : d.armed = true) :
    d.disarm.2 =
      if d.pending.isSome then [.cancelGrace .disarmed, .directive .clearWarning] else [] := by
  simp [disarm, h]

/-- The end of watching leaves what was seen. -/
theorem disarm_env (d : Detector) : d.disarm.1.env = d.env := by
  unfold disarm
  split <;> rfl

theorem disarm_gracePeriod (d : Detector) : d.disarm.1.gracePeriod = d.gracePeriod := by
  unfold disarm
  split <;> rfl

theorem disarm_disarmed (h : d.armed = false) : d.disarm = (d, []) := by
  simp [disarm, h]

end Detector

end Invigilator
