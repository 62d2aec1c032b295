import Invigilator.Exam.Question
import Invigilator.Time.Written

/-!
# Answers

What a candidate has handed in for one question so far: the code, and the outcome of the latest
test run. The status always follows the latest run; edits can only lift it from unanswered to
attempted.
-/

namespace Invigilator

inductive AnswerStatus where
  | unanswered
  | attempted
  | completed
deriving DecidableEq, Repr, Inhabited

namespace AnswerStatus

def name : AnswerStatus → String
  | unanswered => "unanswered"
  | attempted => "attempted"
  | completed => "completed"

def table : List (String × AnswerStatus) :=
  [("unanswered", unanswered), ("attempted", attempted), ("completed", completed)]

def toJson (s : AnswerStatus) : Json := .text s.name

def ofJson? : Json → Option AnswerStatus := Json.word? table

end AnswerStatus

/-- The outcome of a test run, as the editor reports it. -/
structure RunResult where
  testsPassed : Nat
  testsTotal : Nat
  compilationErrors : Nat
  runtimeErrors : Nat
  graderError : Option String
deriving DecidableEq, Repr, Inhabited

namespace RunResult

/-- No more tests passed than there are. -/
def isConsistent (r : RunResult) : Bool := r.testsPassed ≤ r.testsTotal

/-- There were tests, all of them passed, and the grader did not fail. -/
def allPassed (r : RunResult) : Bool :=
  r.graderError.isNone && 0 < r.testsTotal && r.testsPassed == r.testsTotal

def toJson (r : RunResult) : Json :=
  .object [("tests_passed", .nat r.testsPassed), ("tests_total", .nat r.testsTotal),
    ("compilation_errors", .nat r.compilationErrors), ("runtime_errors", .nat r.runtimeErrors),
    ("grader_error", .option .text r.graderError)]

def fields : List Json.Field :=
  [.plain "tests_passed", .plain "tests_total", .defaulted "compilation_errors",
    .defaulted "runtime_errors", .defaulted "grader_error"]

def ofJson? (j : Json) : Option RunResult := do
  match ← Json.slots? fields j with
  | [passed, total, compilation, runtime, grader] => do
    let testsPassed ← Json.needed Json.nat32? passed
    let testsTotal ← Json.needed Json.nat32? total
    let compilationErrors ← Json.withDefault 0 Json.nat32? compilation
    let runtimeErrors ← Json.withDefault 0 Json.nat32? runtime
    let graderError ← Json.optional Json.text? grader
    some
      { testsPassed := testsPassed, testsTotal, compilationErrors, runtimeErrors, graderError }
  | _ => none

end RunResult

/-- A change to some fields of an answer. -/
structure AnswerPatch where
  code : Option String
  status : Option AnswerStatus
  testsPassed : Option Nat
  testsTotal : Option Nat
  compilationErrors : Option Nat
  runtimeErrors : Option Nat
  runCount : Option Nat
  lastRunAt : Option Stamp
deriving DecidableEq, Repr, Inhabited

/-- The answer to one question of an exam. -/
structure Answer where
  questionIndex : Nat
  questionId : String
  code : String
  status : AnswerStatus
  testsPassed : Nat
  testsTotal : Nat
  compilationErrors : Nat
  runtimeErrors : Nat
  runCount : Nat
  lastRunAt : Option Stamp
deriving DecidableEq, Repr, Inhabited

namespace Answer

/-- The answer before anything was handed in: the starter code of the question. -/
def placeholder (index : Nat) (q : Question) : Answer :=
  { questionIndex := index, questionId := q.id, code := q.starterCode, status := .unanswered,
    testsPassed := 0, testsTotal := 0, compilationErrors := 0, runtimeErrors := 0, runCount := 0,
    lastRunAt := none }

/-- The code is replaced; the first code that is not all blank makes an attempt. -/
def edit (a : Answer) (code : String) : Answer :=
  { a with
    status :=
      if a.status = .unanswered ∧ Text.isAllBlank code = false then .attempted else a.status
    code := code }

/-- The answer after a test run. Runs are counted in 32 bits. -/
def applyRun (a : Answer) (r : RunResult) (time : Stamp) : Answer :=
  { a with
    testsPassed := r.testsPassed
    testsTotal := r.testsTotal
    compilationErrors := r.compilationErrors
    runtimeErrors := r.runtimeErrors
    runCount := (a.runCount + 1) % Nat.pow 2 32
    lastRunAt := some time
    status := if r.allPassed then .completed else .attempted }

/-- The patch that carries everything that can change of an answer. -/
def patch (a : Answer) : AnswerPatch :=
  { code := some a.code, status := some a.status, testsPassed := some a.testsPassed,
    testsTotal := some a.testsTotal, compilationErrors := some a.compilationErrors,
    runtimeErrors := some a.runtimeErrors, runCount := some a.runCount, lastRunAt := a.lastRunAt }

/-- The members of an answer. -/
def members (a : Answer) : List (String × Json) :=
  [("question_index", .nat a.questionIndex), ("question_id", .text a.questionId),
    ("code", .text a.code), ("status", a.status.toJson), ("tests_passed", .nat a.testsPassed),
    ("tests_total", .nat a.testsTotal), ("compilation_errors", .nat a.compilationErrors),
    ("runtime_errors", .nat a.runtimeErrors), ("run_count", .nat a.runCount),
    ("last_run_at", .option Stamp.toJson a.lastRunAt)]

def toJson (a : Answer) : Json := .object a.members

def fields : List Json.Field :=
  [.plain "question_index", .plain "question_id", .plain "code", .plain "status",
    .plain "tests_passed", .plain "tests_total", .plain "compilation_errors",
    .plain "runtime_errors", .plain "run_count", .plain "last_run_at"]

def ofJson? (j : Json) : Option Answer := do
  match ← Json.slots? fields j with
  | [index, question, code, status, passed, total, compilation, runtime, runs, last] => do
    let questionIndex ← Json.needed Json.nat64? index
    let questionId ← Json.needed Json.text? question
    let code ← Json.needed Json.text? code
    let status ← Json.needed AnswerStatus.ofJson? status
    let testsPassed ← Json.needed Json.nat32? passed
    let testsTotal ← Json.needed Json.nat32? total
    let compilationErrors ← Json.needed Json.nat32? compilation
    let runtimeErrors ← Json.needed Json.nat32? runtime
    let runCount ← Json.needed Json.nat32? runs
    let lastRunAt ← Json.optional Stamp.ofJson? last
    some
      { questionIndex := questionIndex, questionId, code, status, testsPassed, testsTotal,
        compilationErrors, runtimeErrors, runCount, lastRunAt }
  | _ => none

end Answer

namespace AnswerPatch

/-- The patch that changes nothing. -/
def empty : AnswerPatch := ⟨none, none, none, none, none, none, none, none⟩

/-- The answer with the fields that a patch carries. -/
def applyTo (p : AnswerPatch) (a : Answer) : Answer :=
  { a with
    code := p.code.getD a.code
    status := p.status.getD a.status
    testsPassed := p.testsPassed.getD a.testsPassed
    testsTotal := p.testsTotal.getD a.testsTotal
    compilationErrors := p.compilationErrors.getD a.compilationErrors
    runtimeErrors := p.runtimeErrors.getD a.runtimeErrors
    runCount := p.runCount.getD a.runCount
    lastRunAt := p.lastRunAt.or a.lastRunAt }

/-- The members of a patch; fields that it does not carry are left out. -/
def members (p : AnswerPatch) : List (String × Json) :=
  [("code", p.code.map Json.text), ("status", p.status.map AnswerStatus.toJson),
    ("tests_passed", p.testsPassed.map Json.nat), ("tests_total", p.testsTotal.map Json.nat),
    ("compilation_errors", p.compilationErrors.map Json.nat),
    ("runtime_errors", p.runtimeErrors.map Json.nat), ("run_count", p.runCount.map Json.nat),
    ("last_run_at", p.lastRunAt.map Stamp.toJson)].filterMap fun (name, j) =>
      j.map fun j => (name, j)

def toJson (p : AnswerPatch) : Json := .object p.members

def fields : List Json.Field :=
  [.plain "code", .plain "status", .plain "tests_passed", .plain "tests_total",
    .plain "compilation_errors", .plain "runtime_errors", .plain "run_count",
    .plain "last_run_at"]

def ofJson? (j : Json) : Option AnswerPatch := do
  match ← Json.slots? fields j with
  | [code, status, passed, total, compilation, runtime, runs, last] => do
    let code ← Json.optional Json.text? code
    let status ← Json.optional AnswerStatus.ofJson? status
    let testsPassed ← Json.optional Json.nat32? passed
    let testsTotal ← Json.optional Json.nat32? total
    let compilationErrors ← Json.optional Json.nat32? compilation
    let runtimeErrors ← Json.optional Json.nat32? runtime
    let runCount ← Json.optional Json.nat32? runs
    let lastRunAt ← Json.optional Stamp.ofJson? last
    some
      { code := code, status, testsPassed, testsTotal, compilationErrors, runtimeErrors,
        runCount, lastRunAt }
  | _ => none

end AnswerPatch

end Invigilator
