import Invigilator.Exam.Fault
import Invigilator.Exam.Question
import Invigilator.Journal.Note
import Invigilator.Text.Blank

/-!
# The catalog

The questions that exams are made of: the pool for a language and a topic, and questions by
their ids, in the order asked for.
-/

namespace Invigilator

abbrev Catalog := List Question

namespace Catalog

/-- A question belongs to the topic asked for; the case of ASCII letters does not count. -/
def hasTopic (topic : Option String) (q : Question) : Bool :=
  match topic with
  | none => true
  | some wanted =>
    match q.topic with
    | none => false
    | some t => Text.sameLetters t wanted

/-- The questions of a language, narrowed to a topic when one is given. -/
def pool (c : Catalog) (language : Language) (topic : Option String) : List Question :=
  c.filter fun q => q.language == language && hasTopic topic q

/-- Takes the question at a position away; the last one moves to its place. -/
def swapRemove (qs : List Question) (i : Nat) : List Question :=
  match qs.getLast? with
  | none => []
  | some final => if i + 1 = qs.length then qs.dropLast else (qs.dropLast).set i final

/-- The questions with the ids asked for, in their order; each question answers one id. -/
def orderByIds (qs : List Question) : List String → List Question
  | [] => []
  | id :: ids =>
    match qs.findIdx? (fun q => q.id == id) with
    | none => orderByIds qs ids
    | some i =>
      match qs[i]? with
      | none => orderByIds qs ids
      | some q => q :: orderByIds (swapRemove qs i) ids

/-- The questions of a language with the ids asked for, in their order; unknown ids are skipped. -/
def byIds (c : Catalog) (language : Language) (ids : List String) : List Question :=
  orderByIds (c.filter fun q => q.language == language && ids.contains q.id) ids

/-- A catalog written as JSON. -/
def read? (text : String) : Option Catalog := (Json.read? text).bind (Json.listOf? Question.ofJson?)

/-- The catalog in a file of the given path and text. -/
def load (path text : String) : Except BackendFault Catalog × List Note :=
  match read? text with
  | some c =>
    (.ok c,
      [.info ("Loaded " ++ Decimal.text c.length ++ " exam questions from " ++ path)])
  | none =>
    (.error ((BackendFault.plain "not a list of questions").within
      ("Failed to parse question catalog " ++ path)), [])

/-- What is said of a file that cannot be read. -/
def unreadable (path : String) : BackendFault :=
  (BackendFault.plain "no such file").within ("Failed to read question catalog " ++ path)

end Catalog

end Invigilator
