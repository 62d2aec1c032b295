import Invigilator.Exam.Signal

/-!
# The detector

Watches the candidate's browser. Leaving fullscreen, hiding the tab or losing the focus opens a
grace period; coming back to a fullscreen, visible exam ends it without penalty, and its end
costs one life. Use of the clipboard costs a life at once.

One alt-tab brings several reports together, so there is a single grace period: while one is
pending, further reports neither open another nor change its kind. Every grace period has a
generation of its own, and a timer of an earlier one has no effect.

The detector is a pure transition function: `step` takes an event and gives the next detector
and the effects to carry out, in order.
-/

namespace Invigilator

/-- A moment of the monotonic clock, in milliseconds. -/
abbrev Instant := Nat

/-- A moment as it is shown: in 64 bits, without what they do not hold. -/
def Instant.toJson (t : Instant) : Json := .nat (t % Nat.pow 2 64)

/-- What was last seen of the browser. -/
structure Environment where
  fullscreen : Bool
  visible : Bool
  focused : Bool
deriving DecidableEq, Repr, Inhabited

namespace Environment

/-- What is assumed when watching begins. -/
def nominal : Environment := ⟨true, true, true⟩

/-- The exam is in fullscreen and in front; focus does not matter. -/
def isRecovered (e : Environment) : Bool := e.fullscreen && e.visible

def toJson (e : Environment) : Json := .list [.bool e.fullscreen, .bool e.visible, .bool e.focused]

def ofJson? (j : Json) : Option Environment := do
  match ← Json.listOf? Json.bool? j with
  | [fullscreen, visible, focused] => some ⟨fullscreen, visible, focused⟩
  | _ => none

end Environment

/-- A grace period that is pending. -/
structure Grace where
  violation : ViolationType
  deadline : Instant
  generation : Nat
deriving DecidableEq, Repr, Inhabited

/-- What the detector is told. -/
inductive DetectorEvent where
  | arm (env : Environment)
  | disarm
  | signal (signal : Signal)
  | graceElapsed (generation : Nat)
deriving DecidableEq, Repr, Inhabited

/-- How a grace period ends without a penalty. -/
inductive CancelReason where
  | recovered
  | disarmed
deriving DecidableEq, Repr, Inhabited

def CancelReason.name : CancelReason → String
  | .recovered => "recovered"
  | .disarmed => "disarmed"

/-- What is to be done. -/
inductive Effect where
  | startGrace (deadline : Instant) (generation : Nat)
  | cancelGrace (reason : CancelReason)
  | loseLife (violation : ViolationType)
  | autoSubmit
  | directive (directive : Directive)
deriving DecidableEq, Repr, Inhabited

def Effect.toJson : Effect → Json
  | .startGrace deadline generation =>
    .object [("start_grace",
      .object [("deadline_ms", deadline.toJson), ("generation", .nat generation)])]
  | .cancelGrace reason => .object [("cancel_grace", .text reason.name)]
  | .loseLife v => .object [("lose_life", v.toJson)]
  | .autoSubmit => .text "auto_submit"
  | .directive d => .object [("directive", d.toJson)]

/-- What the detector reads but does not own. -/
structure DetectorContext where
  now : Instant
  livesRemaining : Nat
deriving DecidableEq, Repr, Inhabited

structure Detector where
  pending : Option Grace
  env : Environment
  armed : Bool
  generation : Nat
  /-- The length of a grace period, in milliseconds. -/
  gracePeriod : Nat
deriving DecidableEq, Repr, Inhabited

namespace Detector

/-! ## Texts for the candidate -/

def fullscreenWarning : String :=
  "Please return to fullscreen within 10 seconds or a life will be eliminated."

def tabSwitchWarning : String :=
  "Please return to the exam tab within 10 seconds or a life will be eliminated."

def blurWarning : String := "Please keep the exam window focused."

def fullscreenRequired : String := "Please enable fullscreen mode to continue the exam"

def unloadPrompt : String := "You have an exam in progress. Are you sure you want to leave?"

def copyBlocked : String := "Copying is disabled during the exam"

def pasteBlocked : String := "Pasting is disabled during the exam"

def rightClickBlocked : String := "Right-click is disabled during the exam"

def shortcutBlocked : String := "Keyboard shortcuts are disabled during the exam"

def refreshBlocked : String := "Page refresh is disabled during the exam"

def backBlocked : String := "Back navigation is disabled during the exam"

def warningFor : ViolationType → String
  | .tabSwitch => tabSwitchWarning
  | .windowBlur => blurWarning
  | .fullscreenExit => fullscreenWarning
  | .copy => fullscreenWarning
  | .paste => fullscreenWarning

/-- What is said of a key that is blocked; `modifier` is control or command. -/
def blockedShortcut? (key : String) (modifier : Bool) : Option String :=
  let key := key.toList.map Char.toLower
  if modifier && (key = ['c'] || key = ['v'] || key = ['x']) then some shortcutBlocked
  else if key = ['f', '5'] || (modifier && key = ['r']) then some refreshBlocked
  else none

/-! ## Transitions -/

def new (gracePeriod : Nat) : Detector :=
  { pending := none, env := .nominal, armed := false, generation := 0, gracePeriod }

/-- The kind of violation whose grace period is pending. -/
def pendingViolation (d : Detector) : Option ViolationType := d.pending.map Grace.violation

/-- Opens a grace period, unless one is pending. -/
def openGrace (d : Detector) (violation : ViolationType) (ctx : DetectorContext) :
    Detector × List Effect :=
  match d.pending with
  | some _ => (d, [])
  | none =>
    let generation := d.generation + 1
    let deadline := ctx.now + d.gracePeriod
    ({ d with generation := generation, pending := some ⟨violation, deadline, generation⟩ },
      [.startGrace deadline generation,
        .directive (.showWarning (warningFor violation) (d.gracePeriod / 1000))])

/-- Ends the pending grace period if the candidate is back. -/
def tryRecover (d : Detector) : Detector × List Effect :=
  if d.pending.isSome && d.env.isRecovered then
    ({ d with pending := none }, [.cancelGrace .recovered, .directive .clearWarning])
  else (d, [])

/-- A penalty on the spot: what the clipboard costs, and what is said of it. -/
def clipboard (violation : ViolationType) (message : String) (ctx : DetectorContext) :
    List Effect :=
  if 0 < ctx.livesRemaining then
    [.directive .preventDefault, .loseLife violation, .directive (.notify message)]
  else [.directive .preventDefault, .directive (.notify message)]

/-- A report of the browser reaches an armed detector. -/
def onSignal (d : Detector) (s : Signal) (ctx : DetectorContext) : Detector × List Effect :=
  let hasLives := 0 < ctx.livesRemaining
  match s with
  | .fullscreenChange active =>
    let d := { d with env := { d.env with fullscreen := active } }
    if active then d.tryRecover
    else if hasLives then d.openGrace .fullscreenExit ctx
    else (d, [])
  | .fullscreenDenied =>
    let d := { d with env := { d.env with fullscreen := false } }
    let (d, effects) := if hasLives then d.openGrace .fullscreenExit ctx else (d, [])
    (d, .directive (.notify fullscreenRequired) :: effects)
  | .visibilityChange hidden =>
    let d := { d with env := { d.env with visible := !hidden } }
    if !hidden then d.tryRecover
    else if hasLives then d.openGrace .tabSwitch ctx
    else (d, [])
  | .windowBlur =>
    let d := { d with env := { d.env with focused := false } }
    if hasLives ∧ d.env.visible ∧ d.env.fullscreen then d.openGrace .windowBlur ctx else (d, [])
  | .windowFocus => { d with env := { d.env with focused := true } }.tryRecover
  | .copy => (d, clipboard .copy copyBlocked ctx)
  | .paste => (d, clipboard .paste pasteBlocked ctx)
  | .contextMenu => (d, [.directive .preventDefault, .directive (.notify rightClickBlocked)])
  | .keyDown key ctrl command =>
    match blockedShortcut? key (ctrl || command) with
    | some message => (d, [.directive .preventDefault, .directive (.notify message)])
    | none => (d, [])
  | .popState =>
    (d, [.directive .preventDefault, .directive .pushHistoryState,
      .directive (.notify backBlocked)])
  | .beforeUnload =>
    (d, [.directive .preventDefault, .directive (.confirmUnload unloadPrompt)])

/-- The end of a grace period costs a life, and the last one ends the exam. -/
def penalty (violation : ViolationType) (ctx : DetectorContext) : List Effect :=
  if ctx.livesRemaining = 0 then []
  else if 1 < ctx.livesRemaining then [.loseLife violation, .directive .requestFullscreen]
  else [.loseLife violation, .autoSubmit]

/-- The timer of a grace period fires. -/
def onGraceElapsed (d : Detector) (generation : Nat) (ctx : DetectorContext) :
    Detector × List Effect :=
  match d.pending with
  | none => (d, [])
  | some grace =>
    if grace.generation = generation then
      ({ d with pending := none }, .directive .clearWarning :: penalty grace.violation ctx)
    else (d, [])

/-- Watching begins. -/
def arm (d : Detector) (env : Environment) (ctx : DetectorContext) : Detector × List Effect :=
  if d.armed then (d, [])
  else
    let d := { d with armed := true, env := env, pending := none }
    let (d, effects) :=
      if !env.fullscreen && 0 < ctx.livesRemaining then d.openGrace .fullscreenExit ctx
      else (d, [])
    (d, .directive .pushHistoryState :: effects)

/-- Watching ends; a pending grace period ends with it. -/
def disarm (d : Detector) : Detector × List Effect :=
  if d.armed then
    ({ d with armed := false, pending := none },
      if d.pending.isSome then [.cancelGrace .disarmed, .directive .clearWarning] else [])
  else (d, [])

/-- The next detector and the effects of an event. Nothing but arming reaches a disarmed one. -/
def step (d : Detector) (event : DetectorEvent) (ctx : DetectorContext) : Detector × List Effect :=
  match event with
  | .arm env => d.arm env ctx
  | .disarm => d.disarm
  | .signal s => if d.armed then d.onSignal s ctx else (d, [])
  | .graceElapsed generation => if d.armed then d.onGraceElapsed generation ctx else (d, [])

/-- The members that show a detector. -/
def members (d : Detector) : List (String × Json) :=
  [("state",
      match d.pending with
      | none => .text "safe"
      | some g =>
        .object [("violation", g.violation.toJson), ("deadline_ms", g.deadline.toJson),
          ("generation", .nat g.generation)]),
    ("env", d.env.toJson), ("recovered", .bool d.env.isRecovered), ("armed", .bool d.armed),
    ("pending", .option ViolationType.toJson d.pendingViolation)]

end Detector

end Invigilator
