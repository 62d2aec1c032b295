import Invigilator.Exam.Language
import Invigilator.Exam.Refusal
import Invigilator.Json.Fields
import Invigilator.Text.Decimal

/-!
# Faults

Why a request is refused, the text and the HTTP status of each cause. A backend fault keeps the
whole chain of what went wrong, outermost first: callers see the first text, logs see all.
-/

namespace Invigilator

/-- What went wrong in a backing store, outermost text first. -/
structure BackendFault where
  outer : String
  causes : List String
deriving DecidableEq, Repr, Inhabited

namespace BackendFault

/-- A fault without a deeper cause. -/
def plain (text : String) : BackendFault := ⟨text, []⟩

/-- Puts a fault in the context of what was being done. -/
def within (context : String) (f : BackendFault) : BackendFault := ⟨context, f.outer :: f.causes⟩

/-- The whole chain in one line. -/
def chain (f : BackendFault) : String := ": ".intercalate (f.outer :: f.causes)

end BackendFault

inductive Fault where
  | ineligible
  | selectionExhausted (language : Language) (topic : String) (available : Nat)
  | fullscreenDenied
  | sessionNotFound
  | notActive
  | invalidQuestionIndex (index : Nat)
  | invalidRunResult (passed total : Nat)
  | submitLocked (seconds : Nat)
  | alreadyInProgress (sessionId : String)
  | unauthenticated
  | forbidden
  | validation (why : Refusal)
  | backend (fault : BackendFault)
deriving DecidableEq, Repr, Inhabited

namespace Fault

/-- The kind of a fault. -/
def kind : Fault → String
  | ineligible => "Ineligible"
  | selectionExhausted .. => "SelectionExhausted"
  | fullscreenDenied => "FullscreenDenied"
  | sessionNotFound => "SessionNotFound"
  | notActive => "NotActive"
  | invalidQuestionIndex _ => "InvalidQuestionIndex"
  | invalidRunResult .. => "InvalidRunResult"
  | submitLocked _ => "SubmitLocked"
  | alreadyInProgress _ => "AlreadyInProgress"
  | unauthenticated => "Unauthenticated"
  | forbidden => "Forbidden"
  | validation _ => "Validation"
  | backend _ => "Backend"

/-- What the caller is told. -/
def message : Fault → String
  | ineligible =>
    "You are not eligible to start a new exam. Please contact an administrator to approve a retake."
  | selectionExhausted language topic available =>
    "Not enough questions available for " ++ language.name ++ " (topic: " ++ topic ++
      "). Need 3, have " ++ Decimal.text available
  | fullscreenDenied => "Fullscreen was denied by the browser"
  | sessionNotFound => "Exam session not found"
  | notActive => "Exam session is no longer active"
  | invalidQuestionIndex index => "Question index " ++ Decimal.text index ++ " is out of range"
  | invalidRunResult passed total =>
    "Run result reports " ++ Decimal.text passed ++ " passed out of " ++ Decimal.text total ++
      " tests"
  | submitLocked seconds => "Submission unlocks in " ++ Decimal.text seconds ++ " seconds"
  | alreadyInProgress id => "An exam is already in progress: " ++ id
  | unauthenticated => "Authentication required"
  | forbidden => "Access to this exam session is forbidden"
  | validation why => "Invalid request: " ++ why.message
  | backend fault => fault.outer

/-- The HTTP status of the response. -/
def status : Fault → Nat
  | ineligible => 403
  | selectionExhausted .. => 422
  | fullscreenDenied => 412
  | sessionNotFound => 404
  | notActive => 409
  | invalidQuestionIndex _ => 400
  | invalidRunResult .. => 400
  | submitLocked _ => 425
  | alreadyInProgress _ => 409
  | unauthenticated => 401
  | forbidden => 403
  | validation _ => 400
  | backend _ => 500

/-- The kind and the text of a fault. -/
def toJson (f : Fault) : Json := .object [("error", .text f.kind), ("message", .text f.message)]

/-- The body of the response. -/
def body (f : Fault) : Json := .object [("message", .text f.message), ("status", .nat f.status)]

/-- The body of the response, without the details of a request that was refused. -/
def gist (f : Fault) : Json :=
  let message :=
    match f with
    | validation why => "Invalid request: " ++ why.gist
    | _ => f.message
  .object [("message", .text message), ("status", .nat f.status)]

/-- A fault and everything that is said about it. -/
def describe (f : Fault) : Json :=
  .object [("error", .text f.kind), ("message", .text f.message), ("status", .nat f.status),
    ("body", f.body)]

/-- Reads the fault of a kind from an object with its details. An unknown kind is the fault of the
member that names it. -/
def ofDetails (kind : String) (j : Json) : Except String Fault :=
  match kind with
  | "Ineligible" => .ok ineligible
  | "FullscreenDenied" => .ok fullscreenDenied
  | "SessionNotFound" => .ok sessionNotFound
  | "NotActive" => .ok notActive
  | "Unauthenticated" => .ok unauthenticated
  | "Forbidden" => .ok forbidden
  | "SelectionExhausted" => do
    let language ← j.field "language" Language.ofJson?
    let topic ← j.field "topic" Json.text?
    return selectionExhausted language topic (← j.field "available" Json.nat64?)
  | "InvalidQuestionIndex" => do return invalidQuestionIndex (← j.field "index" Json.nat64?)
  | "InvalidRunResult" => do
    let passed ← j.field "passed" Json.nat32?
    return invalidRunResult passed (← j.field "total" Json.nat32?)
  | "SubmitLocked" => do return submitLocked (← j.field "seconds" Json.nat64?)
  | "AlreadyInProgress" => do return alreadyInProgress (← j.field "session_id" Json.text?)
  | "Validation" => do return validation (.told (← j.field "text" Json.text?))
  | "Backend" => do
    let text ← j.field "text" Json.text?
    return backend ((BackendFault.plain text).within (← j.field "context" Json.text?))
  | _ => .error "kind"

end Fault

end Invigilator
