import Invigilator.Exam.Language

/-!
# Questions

A question of the catalog, and the view of it that a candidate gets. The view keeps the number
of hidden test cases and drops their contents.
-/

namespace Invigilator

inductive Difficulty where
  | easy
  | medium
  | hard
deriving DecidableEq, Repr, Inhabited

namespace Difficulty

def name : Difficulty → String
  | easy => "easy"
  | medium => "medium"
  | hard => "hard"

/-- How hard a level is. -/
def rank : Difficulty → Nat
  | easy => 0
  | medium => 1
  | hard => 2

def table : List (String × Difficulty) := [("easy", easy), ("medium", medium), ("hard", hard)]

def toJson (d : Difficulty) : Json := .text d.name

def ofJson? : Json → Option Difficulty := Json.word? table

end Difficulty

/-- An input and the output expected for it. -/
structure TestCase where
  input : String
  expectedOutput : String
deriving DecidableEq, Repr, Inhabited

namespace TestCase

def toJson (t : TestCase) : Json :=
  .object [("input", .text t.input), ("expected_output", .text t.expectedOutput)]

def ofJson? (j : Json) : Option TestCase := do
  match ← Json.slots? [.plain "input", .plain "expected_output"] j with
  | [input, expected] => do
    let input ← Json.needed Json.text? input
    let expectedOutput ← Json.needed Json.text? expected
    some { input := input, expectedOutput }
  | _ => none

end TestCase

/-- A question of the catalog. -/
structure Question where
  id : String
  language : Language
  title : String
  description : String
  difficulty : Difficulty
  topic : Option String
  starterCode : String
  inputFormat : Option String
  outputFormat : Option String
  constraints : Option String
  visibleTestCases : List TestCase
  hiddenTestCases : List TestCase
  timeLimitMs : Nat
  memoryLimitMb : Nat
deriving DecidableEq, Repr, Inhabited

namespace Question

def toJson (q : Question) : Json :=
  .object [("id", .text q.id), ("language", q.language.toJson), ("title", .text q.title),
    ("description", .text q.description), ("difficulty", q.difficulty.toJson),
    ("topic", .option .text q.topic), ("starter_code", .text q.starterCode),
    ("input_format", .option .text q.inputFormat), ("output_format", .option .text q.outputFormat),
    ("constraints", .option .text q.constraints),
    ("visible_test_cases", .listOf TestCase.toJson q.visibleTestCases),
    ("hidden_test_cases", .listOf TestCase.toJson q.hiddenTestCases),
    ("time_limit_ms", .nat q.timeLimitMs), ("memory_limit_mb", .nat q.memoryLimitMb)]

def fields : List Json.Field :=
  [.plain "id", .plain "language", .plain "title", .plain "description", .plain "difficulty",
    .defaulted "topic", .defaulted "starter_code", .defaulted "input_format",
    .defaulted "output_format", .defaulted "constraints", .defaulted "visible_test_cases",
    .defaulted "hidden_test_cases", .defaulted "time_limit_ms", .defaulted "memory_limit_mb"]

/-- Reads a question: two seconds and 256 MB are allowed where it does not say. -/
def ofJson? (j : Json) : Option Question := do
  match ← Json.slots? fields j with
  | [id, language, title, description, difficulty, topic, starter, input, output, constraints,
      visible, hidden, time, memory] => do
    let id ← Json.needed Json.text? id
    let language ← Json.needed Language.ofJson? language
    let title ← Json.needed Json.text? title
    let description ← Json.needed Json.text? description
    let difficulty ← Json.needed Difficulty.ofJson? difficulty
    let topic ← Json.optional Json.text? topic
    let starterCode ← Json.withDefault "" Json.text? starter
    let inputFormat ← Json.optional Json.text? input
    let outputFormat ← Json.optional Json.text? output
    let constraints ← Json.optional Json.text? constraints
    let visibleTestCases ← Json.withDefault [] (Json.listOf? TestCase.ofJson?) visible
    let hiddenTestCases ← Json.withDefault [] (Json.listOf? TestCase.ofJson?) hidden
    let timeLimitMs ← Json.withDefault 2000 Json.nat32? time
    let memoryLimitMb ← Json.withDefault 256 Json.nat32? memory
    some
      { id := id, language, title, description, difficulty, topic, starterCode, inputFormat,
        outputFormat, constraints, visibleTestCases, hiddenTestCases, timeLimitMs,
        memoryLimitMb }
  | _ => none

end Question

/-- What a candidate gets to see of a question. -/
structure QuestionView where
  id : String
  title : String
  description : String
  difficulty : Difficulty
  starterCode : String
  inputFormat : Option String
  outputFormat : Option String
  constraints : Option String
  visibleTestCases : List TestCase
  hiddenTestCount : Nat
  timeLimitMs : Nat
  memoryLimitMb : Nat
deriving DecidableEq, Repr, Inhabited

/-- The view of a question: hidden test cases are only counted. -/
def Question.view (q : Question) : QuestionView :=
  { id := q.id, title := q.title, description := q.description, difficulty := q.difficulty,
    starterCode := q.starterCode, inputFormat := q.inputFormat, outputFormat := q.outputFormat,
    constraints := q.constraints, visibleTestCases := q.visibleTestCases,
    hiddenTestCount := q.hiddenTestCases.length, timeLimitMs := q.timeLimitMs,
    memoryLimitMb := q.memoryLimitMb }

def QuestionView.toJson (q : QuestionView) : Json :=
  .object [("id", .text q.id), ("title", .text q.title), ("description", .text q.description),
    ("difficulty", q.difficulty.toJson), ("starter_code", .text q.starterCode),
    ("input_format", .option .text q.inputFormat), ("output_format", .option .text q.outputFormat),
    ("constraints", .option .text q.constraints),
    ("visible_test_cases", .listOf TestCase.toJson q.visibleTestCases),
    ("hidden_test_count", .nat q.hiddenTestCount), ("time_limit_ms", .nat q.timeLimitMs),
    ("memory_limit_mb", .nat q.memoryLimitMb)]

end Invigilator
