import Invigilator.Text.Decimal

/-!
# Shown times

How long spans of time are shown to candidates. The exam clock shows every unit from the first
that is not zero; the wait for a life drops the seconds once it shows hours.
-/

namespace Invigilator.Shown

/-- A number with its unit. -/
def part (n : Nat) (unit : Char) : List Char := Decimal.digits n ++ [unit]

/-- The exam clock: `2h 59m 59s`, `5m 3s`, `7s`. -/
def examTimeChars (seconds : Nat) : List Char :=
  let h := seconds / 3600
  let m := seconds % 3600 / 60
  let s := seconds % 60
  if 0 < h then part h 'h' ++ ' ' :: part m 'm' ++ ' ' :: part s 's'
  else if 0 < m then part m 'm' ++ ' ' :: part s 's'
  else part s 's'

/-- The exam clock: `2h 59m 59s`, `5m 3s`, `7s`. -/
def examTime (seconds : Nat) : String := String.ofList (examTimeChars seconds)

/-- The wait for a life, of so many whole seconds: `1h 5m`, `4m 10s`, `9s`. -/
def waitChars (seconds : Nat) : List Char :=
  let h := seconds / 3600
  let m := seconds % 3600 / 60
  let s := seconds % 60
  if 0 < h then part h 'h' ++ ' ' :: part m 'm'
  else if 0 < m then part m 'm' ++ ' ' :: part s 's'
  else part s 's'

/-- The whole seconds of a span of milliseconds, none if it has passed. -/
def secondsOfMillis (ms : Int) : Nat := (Int.tdiv ms 1000).toNat

/-- The wait for a life, given as a span of milliseconds. -/
def wait (ms : Int) : String := String.ofList (waitChars (secondsOfMillis ms))

end Invigilator.Shown
