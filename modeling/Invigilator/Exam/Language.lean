import Invigilator.Json.Record
import Invigilator.Text.Blank

/-!
# Exam languages

The programming languages in which exams are offered.
-/

namespace Invigilator

inductive Language where
  | python
  | javascript
  | java
  | cpp
deriving DecidableEq, Repr, Inhabited

namespace Language

/-- The name of a language in records and requests. -/
def name : Language → String
  | python => "python"
  | javascript => "javascript"
  | java => "java"
  | cpp => "cpp"

/-- The name of a language for candidates. -/
def displayName : Language → String
  | python => "Python"
  | javascript => "JavaScript"
  | java => "Java"
  | cpp => "C++"

def all : List Language := [python, javascript, java, cpp]

/-- The language of a name typed by hand: blanks around it and the case of letters do not count. -/
def ofText? (s : String) : Option Language :=
  all.find? fun l => Text.sameLetters l.name (Text.trim s)

/-- What is said of a name that is no language. -/
def unsupported (s : String) : String := "Unsupported exam language: " ++ s

def table : List (String × Language) := all.map fun l => (l.name, l)

def toJson (l : Language) : Json := .text l.name

def ofJson? : Json → Option Language := Json.word? table

end Language

end Invigilator
