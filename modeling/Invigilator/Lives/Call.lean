import Invigilator.Lives.Ledger

/-!
# Calls of the ledger

What a bucket can be asked, as values: the same call can be made on any store.
-/

namespace Invigilator

inductive LedgerCall where
  | current
  | currentLives
  | hasLives
  | loseLife
  | reset
  | untilNextRestore
deriving DecidableEq, Repr, Inhabited

namespace LedgerCall

/-- The names of the calls. -/
def table : List (String × LedgerCall) :=
  [("current", current), ("lives", currentLives), ("has", hasLives), ("lose", loseLife),
    ("reset", reset), ("next", untilNextRestore)]

/-- Makes a call at a moment; a wait is told in whole milliseconds, toward zero. -/
def make {σ : Type} (store : LivesStore σ) (rules : LedgerRules) (now : Stamp) (b : Bucket) :
    LedgerCall → Attempt σ Json
  | current => do return (← Ledger.current store rules now b).toJson
  | currentLives => do return .nat (← Ledger.currentLives store rules now b)
  | hasLives => do return .bool (← Ledger.hasLives store rules now b)
  | loseLife => do return (← Ledger.loseLife store rules now now b).toJson
  | reset => do return (← Ledger.reset store rules b).toJson
  | untilNextRestore => do
    let wait ← Ledger.untilNextRestore store rules now now b
    return .option (fun ns => .int (Int.tdiv ns nanosPerMilli)) wait

end LedgerCall

end Invigilator
