import Invigilator.Exam.Selection
import Invigilator.Text.Id

/-!
# What is left to chance

Fresh ids, the choice of questions, and the jitter of waits, by the number of the draw.
-/

namespace Invigilator

structure Source where
  sessionId : Nat → String
  violationId : Nat → String
  traceId : Nat → String
  questions : Nat → Selection.Draw
  jitter : Nat → Nat

namespace Source

def sessionKind : Char := '8'

def violationKind : Char := '9'

def traceKind : Char := 'a'

/-- The source without chance: ids are numbered, the first choice is taken, waits have no jitter. -/
def plain : Source where
  sessionId := Id.numbered sessionKind
  violationId := Id.numbered violationKind
  traceId := Id.numbered traceKind
  questions _ := ⟨0, 0, 0⟩
  jitter _ := 0

end Source

end Invigilator
