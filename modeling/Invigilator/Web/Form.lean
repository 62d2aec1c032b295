import Invigilator.Exam.Answer
import Invigilator.Exam.Request
import Invigilator.Json.Shape

/-!
# Forms

The shapes of the bodies that requests carry, and what is said of a body that has not its shape.
-/

namespace Invigilator.Web

open Json (Slot Shape TaggedShape)

def startShape : Shape where
  title := "struct StartExamRequest"
  slots := [.plain "language" (.word (Language.all.map Language.name)),
    .plain "topic" .optionalText]

def updateShape : Shape where
  title := "struct UpdateAnswerRequest"
  slots := [.plain "code" .text]

def runShape : Shape where
  title := "struct RunResult"
  slots := [.plain "tests_passed" .nat32, .plain "tests_total" .nat32,
    .defaulted "compilation_errors" .nat32, .defaulted "runtime_errors" .nat32,
    .defaulted "grader_error" .optionalText]

/-- The fields of the signals that have some. -/
def signalFields : List (String × Shape) :=
  [("fullscreen_change",
      ⟨"struct variant EnvSignal::FullscreenChange", [.plain "active" .bool]⟩),
    ("visibility_change",
      ⟨"struct variant EnvSignal::VisibilityChange", [.plain "hidden" .bool]⟩),
    ("key_down", ⟨"struct variant EnvSignal::KeyDown",
      [.plain "key" .text, .defaulted "ctrl" .bool, .defaulted "meta" .bool]⟩)]

def signalShape : TaggedShape where
  title := "internally tagged enum EnvSignal"
  variants := Signal.variants.map fun name => (name, signalFields.lookup name)

/-- What is said of a body: either it is no JSON, or it is the wrong value. -/
def complaintText (c : Json.Complaint) : String :=
  (match c.flaw with
    | .syntactic _ => "Failed to parse the request body as JSON: "
    | .misfit _ => "Failed to deserialize the JSON body into the target type: ") ++ c.text

end Invigilator.Web
