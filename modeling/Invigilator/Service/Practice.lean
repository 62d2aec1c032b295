import Invigilator.Service.State
import Invigilator.Time.Shown

/-!
# Practice lives

What callers are told of the lives they practise with. The answer shows the lives of one look
at the ledger and the wait of a second look.
-/

namespace Invigilator

/-- The lives of a bucket, and how long until the next one is given back, in nanoseconds. -/
structure LivesReport where
  lives : Nat
  maxLives : Nat
  nextRestore : Option Int
deriving DecidableEq, Repr, Inhabited

namespace LivesReport

/-- Nanoseconds as a whole number of a longer unit, toward zero. -/
def whole (ns : Int) (unit : Nat) : Int := Int.tdiv ns unit

def toJson (r : LivesReport) : Json :=
  .object [("lives", .nat r.lives), ("max_lives", .nat r.maxLives),
    ("next_restore_seconds", .option (fun ns => .int (whole ns nanosPerSecond)) r.nextRestore),
    ("next_restore_in",
      .option (fun ns => .text (Shown.wait (whole ns nanosPerMilli))) r.nextRestore)]

end LivesReport

namespace Service

open Call

variable {σ : Type}

/-- What a caller is told of a bucket. -/
def livesReport (bucket : Bucket) : Call σ LivesReport := do
  let s ← service
  let rules := practiceRules s.config
  let now := s.practiceTime
  let state ← onLives (Ledger.current s.practice.store rules now bucket)
  let next ← onLives (Ledger.untilNextRestore s.practice.store rules now now bucket)
  pure { lives := state.lives, maxLives := rules.maxLives, nextRestore := next }

/-- Takes a life of a bucket. -/
def loseLife (bucket : Bucket) : Call σ LivesReport := do
  let s ← service
  let now := s.practiceTime
  let _ ← onLives (Ledger.loseLife s.practice.store (practiceRules s.config) now now bucket)
  livesReport bucket

/-- Gives a user all lives back. -/
def resetLives (userId administrator : String) : Call σ LivesReport := do
  let s ← service
  let bucket := Bucket.forUser (some userId)
  let _ ← onLives (Ledger.reset s.practice.store (practiceRules s.config) bucket)
  jot [.info ("Practice lives reset: user=" ++ userId ++ ", by=" ++ administrator)]
  livesReport bucket

end Service

end Invigilator
