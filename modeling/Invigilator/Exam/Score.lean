import Invigilator.Exam.Answer
import Invigilator.Text.Shortest

/-!
# Scores

Points for the tests that passed. The three questions weigh 30, 30 and 40 percent; points are
rounded to two places question by question, and their sum once more.
-/

namespace Invigilator

structure QuestionScore where
  questionIndex : Nat
  weight : Float
  testsPassed : Nat
  testsTotal : Nat
  points : Float

structure Score where
  sessionId : String
  questions : List QuestionScore
  total : Float

namespace Score

/-- The weights of the questions, in presentation order. -/
def weights : List (Nat × Float) := [(0, 0.3), (1, 0.3), (2, 0.4)]

/-- Two places, a half away from zero. -/
def round2 (x : Float) : Float := (x * 100.0).round / 100.0

/-- The points of a question; a question without tests has none. -/
def points (passed total : Nat) (weight : Float) : Float :=
  if total = 0 then 0.0
  else round2 ((min passed total).toFloat / total.toFloat * weight * 100.0)

/-- The tests passed and the tests there are in the answer to a question, none without an answer. -/
def counts (answers : List Answer) (index : Nat) : Nat × Nat :=
  match answers.find? fun a => a.questionIndex == index with
  | some a => (a.testsPassed, a.testsTotal)
  | none => (0, 0)

/-- The score of a list of answers; the first answer with an index counts. -/
def ofAnswers (sessionId : String) (answers : List Answer) : Score :=
  let questions := weights.map fun (index, weight) =>
    let (passed, total) := counts answers index
    { questionIndex := index, weight := weight, testsPassed := passed, testsTotal := total,
      points := points passed total weight : QuestionScore }
  { sessionId := sessionId, questions := questions,
    total := round2 (questions.foldl (fun sum q => sum + q.points) 0.0) }

def number (x : Float) : Json := .real (Shortest.write x)

def toJson (s : Score) : Json :=
  .object [("session_id", .text s.sessionId),
    ("questions", .list (s.questions.map fun q =>
      .object [("question_index", .nat q.questionIndex), ("weight", number q.weight),
        ("tests_passed", .nat q.testsPassed), ("tests_total", .nat q.testsTotal),
        ("points", number q.points)])),
    ("total", number s.total)]

end Score

end Invigilator
