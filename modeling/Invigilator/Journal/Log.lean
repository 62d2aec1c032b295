import Invigilator.Journal.Note
import Invigilator.Json.Basic
import Invigilator.Text.Cut
import Invigilator.Text.Id

/-!
# The log

The lines that notes leave, fit for comparing two runs: ids are left out, what only a parser
says is left out, and the lines are sorted.
-/

namespace Invigilator.Log

/-- The starts of lines that end in what a parser said. -/
def cutStarts : List String := ["WARN Failed to parse JSON request body"]

/-- A line without what differs from run to run. -/
def comparable (line : String) : String :=
  let line := Id.rename (fun _ => "<id>") line
  match cutStarts.find? fun start => (Text.after? start.toList line.toList).isSome with
  | some start => start
  | none => line

/-- The lines that notes leave, sorted. -/
def lines (notes : List Note) : List String :=
  ((notes.filterMap Note.logLine?).map comparable).mergeSort fun a b => a ≤ b

/-- The changes of all metrics by notes. -/
def changes (notes : List Note) : Json :=
  .object ((Note.changes notes).map fun change => (change.1, .int change.2))

end Invigilator.Log
