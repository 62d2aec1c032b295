/-!
# Refusals

Why what a request carries is refused. The message tells all of it; the gist leaves out what was
found in the request.
-/

namespace Invigilator

inductive Refusal where
  | told (text : String)
  /-- A body was expected to be JSON, and is not meant to be. -/
  | notJson
  /-- A body cannot be read. -/
  | unreadable (details : String)
  /-- A text is too short or too long. -/
  | outOfBounds (details : String)
deriving DecidableEq, Repr, Inhabited

namespace Refusal

/-- What is said of a body that cannot be read. -/
def unreadableBody : String := "Failed to parse JSON request body"

def message : Refusal → String
  | told text => text
  | notJson => unreadableBody ++ ": Expected request with \x60Content-Type: application/json\x60"
  | unreadable details => unreadableBody ++ ": " ++ details
  | outOfBounds details => details

def gist : Refusal → String
  | told text => text
  | notJson => notJson.message
  | unreadable _ => unreadableBody
  | outOfBounds _ => "validation"

end Refusal

end Invigilator
