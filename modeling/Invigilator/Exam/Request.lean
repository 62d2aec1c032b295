import Invigilator.Exam.Question
import Invigilator.Exam.Signal
import Invigilator.Text.Quoted

/-!
# Requests

The bodies of the requests that carry more than a signal or a run result, with the limits of
their texts, and the answer to a start. Lengths count characters.
-/

namespace Invigilator

/-- How many characters a text must have at least, and how many it may have. -/
structure Bounds where
  least : Option Nat
  most : Nat
deriving DecidableEq, Repr

namespace Bounds

/-- Whether a text is neither too short nor too long. -/
def hold (b : Bounds) (text : String) : Bool :=
  b.least.all (· ≤ text.length) && text.length ≤ b.most

/-- What is said of a text that is out of bounds: the bounds, and the text. -/
def excess (b : Bounds) (name text : String) : String :=
  let number (name : String) (n : Nat) : String :=
    Text.quoted name ++ ": Number(" ++ Decimal.text n ++ "), "
  name ++ ": Validation error: length [\x7b" ++ (b.least.map (number "min")).getD "" ++
    number "max" b.most ++ Text.quoted "value" ++ ": String(" ++ Text.quoted text ++ ")\x7d]"

end Bounds

/-- A candidate asks for an exam. -/
structure StartRequest where
  language : Language
  topic : Option String
deriving DecidableEq, Repr, Inhabited

namespace StartRequest

/-- A topic has one to 64 characters. -/
def topicBounds : Bounds := ⟨some 1, 64⟩

def isValid (r : StartRequest) : Bool := r.topic.all topicBounds.hold

/-- What is said of a topic that is too short or too long. -/
def excess? (r : StartRequest) : Option String :=
  (r.topic.filter (!topicBounds.hold ·)).map (topicBounds.excess "topic")

/-- The topic that was asked for, if it is more than blanks. -/
def wantedTopic (r : StartRequest) : Option String :=
  (r.topic.map Text.trim).filter (· ≠ "")

def ofJson? (j : Json) : Option StartRequest := do
  match ← Json.slots? [.plain "language", .plain "topic"] j with
  | [language, topic] => do
    let language ← Json.needed Language.ofJson? language
    let topic ← Json.optional Json.text? topic
    some { language := language, topic }
  | _ => none

end StartRequest

/-- A candidate hands in code. -/
structure UpdateRequest where
  code : String
deriving DecidableEq, Repr, Inhabited

namespace UpdateRequest

/-- Code has at most 100000 characters. -/
def codeBounds : Bounds := ⟨none, 100000⟩

def isValid (r : UpdateRequest) : Bool := codeBounds.hold r.code

/-- What is said of code that is too long. -/
def excess? (r : UpdateRequest) : Option String :=
  if r.isValid then none else some (codeBounds.excess "code" r.code)

def ofJson? (j : Json) : Option UpdateRequest := do
  match ← Json.slots? [.plain "code"] j with
  | [code] => (Json.needed Json.text? code).map fun code => { code := code }
  | _ => none

end UpdateRequest

/-- The answer to a start. -/
structure StartResponse where
  sessionId : String
  language : Language
  questions : List QuestionView
  livesRemaining : Nat
  totalSeconds : Nat
  secondsUntilSubmit : Nat
  directives : List Directive
deriving DecidableEq, Repr, Inhabited

def StartResponse.toJson (r : StartResponse) : Json :=
  .object [("session_id", .text r.sessionId), ("language", r.language.toJson),
    ("language_name", .text r.language.displayName),
    ("questions", .listOf QuestionView.toJson r.questions),
    ("lives_remaining", .nat r.livesRemaining), ("total_seconds", .nat r.totalSeconds),
    ("seconds_until_submit", .nat r.secondsUntilSubmit),
    ("directives", .listOf Directive.toJson r.directives)]

end Invigilator
