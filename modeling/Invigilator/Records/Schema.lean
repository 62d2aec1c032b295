import Invigilator.Access.Claims
import Invigilator.Access.Gate
import Invigilator.Exam.Event
import Invigilator.Exam.Request
import Invigilator.Exam.Settings
import Invigilator.Exam.Snapshot
import Invigilator.Lives.State

/-!
# The schema

The kinds of record by name: how a record of a kind is read, and how it is shown once it is
read. Most are shown as they are written, some with what follows from them.
-/

namespace Invigilator.Schema

/-- A kind whose records are shown as a reader and a writer say. -/
def kind {α : Type} (read : Json → Option α) (write : α → Json) (j : Json) : Option Json :=
  (read j).map write

/-- Kinds that are shown as they are written. -/
def plainKinds : List (String × (Json → Option Json)) :=
  [("difficulty", kind Difficulty.ofJson? Difficulty.toJson),
    ("question", kind Question.ofJson? Question.toJson),
    ("session", kind Session.ofJson? Session.toJson),
    ("session_patch", kind SessionPatch.ofJson? SessionPatch.toJson),
    ("answer", kind Answer.ofJson? Answer.toJson),
    ("answer_patch", kind AnswerPatch.ofJson? AnswerPatch.toJson),
    ("answer_status", kind AnswerStatus.ofJson? AnswerStatus.toJson),
    ("violation", kind Violation.ofJson? Violation.toJson),
    ("snapshot", kind Snapshot.ofJson? Snapshot.toJson),
    ("signal", kind Signal.ofJson? Signal.toJson),
    ("directive", kind Directive.ofJson? Directive.toJson),
    ("signal_outcome", kind SignalOutcome.ofJson? SignalOutcome.toJson),
    ("lives_state", kind LivesState.ofJson? LivesState.toJson),
    ("eligibility_record", kind EligibilityRecord.ofJson? EligibilityRecord.toJson)]

/-- Kinds that are shown with what follows from them. -/
def describedKinds : List (String × (Json → Option Json)) :=
  [("question_view", kind Question.ofJson? fun q => q.view.toJson),
    ("language", kind Language.ofJson? fun l =>
      .object [("value", l.toJson), ("display_name", .text l.displayName)]),
    ("run_result", kind RunResult.ofJson? fun r =>
      .object [("value", r.toJson), ("consistent", .bool r.isConsistent),
        ("all_passed", .bool r.allPassed)]),
    ("session_status", kind Status.ofJson? fun s =>
      .object [("value", s.toJson), ("terminal", .bool s.isTerminal), ("name", .text s.name)]),
    ("submit_reason", kind Reason.ofJson? fun r =>
      .object [("value", r.toJson), ("automatic", .bool r.isAutomatic),
        ("terminal_status", r.outcome.toJson)]),
    ("violation_type", kind ViolationType.ofJson? fun v =>
      .object [("value", v.toJson), ("instantaneous", .bool v.isInstantaneous),
        ("name", .text v.name)]),
    ("claims", kind Claims.ofJson? fun c =>
      .object [("value", c.toJson), ("admin", .bool c.isAdmin)]),
    ("settings", kind Settings.ofJson? Settings.describe),
    ("start_request", kind StartRequest.ofJson? fun r =>
      .object [("language", r.language.toJson), ("topic", .option .text r.topic),
        ("valid", .bool r.isValid)]),
    ("update_request", kind UpdateRequest.ofJson? fun r =>
      .object [("code", .text r.code), ("valid", .bool r.isValid)]),
    ("event", kind Event.ofJson? fun e =>
      .object [("name", .text e.name), ("data", .text e.data)])]

/-- How a record of a kind is read and shown; there is nothing for an unknown kind. -/
def find? (name : String) : Option (Json → Option Json) :=
  (plainKinds ++ describedKinds).lookup name

end Invigilator.Schema
