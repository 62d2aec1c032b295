import Invigilator.Exam.Violation

/-!
# Signals and directives

What the candidate's browser reports (`Signal`), what it is told to do (`Directive`), and the
answer to one signal (`SignalOutcome`).
-/

namespace Invigilator

/-- A report of the candidate's browser. -/
inductive Signal where
  | fullscreenChange (active : Bool)
  | fullscreenDenied
  | visibilityChange (hidden : Bool)
  | windowBlur
  | windowFocus
  | copy
  | paste
  | contextMenu
  | keyDown (key : String) (ctrl command : Bool)
  | popState
  | beforeUnload
deriving DecidableEq, Repr, Inhabited

namespace Signal

def variants : List String :=
  ["fullscreen_change", "fullscreen_denied", "visibility_change", "window_blur", "window_focus",
    "copy", "paste", "context_menu", "key_down", "pop_state", "before_unload"]

def toJson : Signal → Json
  | fullscreenChange active => .tagged "fullscreen_change" [("active", .bool active)]
  | fullscreenDenied => .tagged "fullscreen_denied" []
  | visibilityChange hidden => .tagged "visibility_change" [("hidden", .bool hidden)]
  | windowBlur => .tagged "window_blur" []
  | windowFocus => .tagged "window_focus" []
  | copy => .tagged "copy" []
  | paste => .tagged "paste" []
  | contextMenu => .tagged "context_menu" []
  | keyDown key ctrl command =>
    .tagged "key_down" [("key", .text key), ("ctrl", .bool ctrl), ("meta", .bool command)]
  | popState => .tagged "pop_state" []
  | beforeUnload => .tagged "before_unload" []

/-- The signal of a variant's name and fields. -/
def ofVariant? (name : String) (rest : Json) : Option Signal :=
  match name with
  | "fullscreen_change" => do
    match ← Json.slots? [.plain "active"] rest with
    | [active] => (Json.needed Json.bool? active).map fullscreenChange
    | _ => none
  | "visibility_change" => do
    match ← Json.slots? [.plain "hidden"] rest with
    | [hidden] => (Json.needed Json.bool? hidden).map visibilityChange
    | _ => none
  | "key_down" => do
    match ← Json.slots? [.plain "key", .defaulted "ctrl", .defaulted "meta"] rest with
    | [key, ctrl, command] => do
      let key ← Json.needed Json.text? key
      let ctrl ← Json.withDefault false Json.bool? ctrl
      let command ← Json.withDefault false Json.bool? command
      some (keyDown key ctrl command)
    | _ => none
  | "fullscreen_denied" => (Json.noFields? rest).map fun _ => fullscreenDenied
  | "window_blur" => (Json.noFields? rest).map fun _ => windowBlur
  | "window_focus" => (Json.noFields? rest).map fun _ => windowFocus
  | "copy" => (Json.noFields? rest).map fun _ => copy
  | "paste" => (Json.noFields? rest).map fun _ => paste
  | "context_menu" => (Json.noFields? rest).map fun _ => contextMenu
  | "pop_state" => (Json.noFields? rest).map fun _ => popState
  | "before_unload" => (Json.noFields? rest).map fun _ => beforeUnload
  | _ => none

def ofJson? (j : Json) : Option Signal := do
  let (name, rest) ← Json.variant? (.text 0) variants j
  ofVariant? name rest

end Signal

/-- An instruction to the candidate's browser. -/
inductive Directive where
  | preventDefault
  | notify (message : String)
  | showWarning (message : String) (graceSeconds : Nat)
  | clearWarning
  | requestFullscreen
  | exitFullscreen
  | pushHistoryState
  | confirmUnload (message : String)
deriving DecidableEq, Repr, Inhabited

namespace Directive

def variants : List String :=
  ["prevent_default", "notify", "show_warning", "clear_warning", "request_fullscreen",
    "exit_fullscreen", "push_history_state", "confirm_unload"]

def toJson : Directive → Json
  | preventDefault => .tagged "prevent_default" []
  | notify message => .tagged "notify" [("message", .text message)]
  | showWarning message grace =>
    .tagged "show_warning" [("message", .text message), ("grace_seconds", .nat grace)]
  | clearWarning => .tagged "clear_warning" []
  | requestFullscreen => .tagged "request_fullscreen" []
  | exitFullscreen => .tagged "exit_fullscreen" []
  | pushHistoryState => .tagged "push_history_state" []
  | confirmUnload message => .tagged "confirm_unload" [("message", .text message)]

/-- The directive of a variant's name and fields. -/
def ofVariant? (name : String) (rest : Json) : Option Directive :=
  match name with
  | "notify" => do
    match ← Json.slots? [.plain "message"] rest with
    | [message] => (Json.needed Json.text? message).map notify
    | _ => none
  | "show_warning" => do
    match ← Json.slots? [.plain "message", .plain "grace_seconds"] rest with
    | [message, grace] => do
      let message ← Json.needed Json.text? message
      let grace ← Json.needed Json.nat64? grace
      some (showWarning message grace)
    | _ => none
  | "confirm_unload" => do
    match ← Json.slots? [.plain "message"] rest with
    | [message] => (Json.needed Json.text? message).map confirmUnload
    | _ => none
  | "prevent_default" => (Json.noFields? rest).map fun _ => preventDefault
  | "clear_warning" => (Json.noFields? rest).map fun _ => clearWarning
  | "request_fullscreen" => (Json.noFields? rest).map fun _ => requestFullscreen
  | "exit_fullscreen" => (Json.noFields? rest).map fun _ => exitFullscreen
  | "push_history_state" => (Json.noFields? rest).map fun _ => pushHistoryState
  | _ => none

/-- Reads a directive at a place. -/
def ofJsonAt? (place : Json.Place) (j : Json) : Option Directive := do
  let (name, rest) ← Json.variant? place variants j
  ofVariant? name rest

def ofJson? : Json → Option Directive := ofJsonAt? (.text 0)

end Directive

/-- The answer to one signal. -/
structure SignalOutcome where
  directives : List Directive
  livesRemaining : Nat
  pendingViolation : Option ViolationType
  sessionActive : Bool
deriving DecidableEq, Repr, Inhabited

namespace SignalOutcome

def toJson (o : SignalOutcome) : Json :=
  .object [("directives", .listOf Directive.toJson o.directives),
    ("lives_remaining", .nat o.livesRemaining),
    ("pending_violation", .option ViolationType.toJson o.pendingViolation),
    ("session_active", .bool o.sessionActive)]

def fields : List Json.Field :=
  [.plain "directives", .plain "lives_remaining", .plain "pending_violation",
    .plain "session_active"]

def ofJson? (j : Json) : Option SignalOutcome := do
  match ← Json.slots? fields j with
  | [directives, lives, pending, active] => do
    let directives ← Json.needed (Json.listOf? (Directive.ofJsonAt? (.text 2))) directives
    let livesRemaining ← Json.needed Json.nat8? lives
    let pendingViolation ← Json.optional ViolationType.ofJson? pending
    let sessionActive ← Json.needed Json.bool? active
    some { directives := directives, livesRemaining, pendingViolation, sessionActive }
  | _ => none

end SignalOutcome

end Invigilator
