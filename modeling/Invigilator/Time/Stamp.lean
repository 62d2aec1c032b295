/-!
# Moments

A moment of the calendar, kept as a day, a second of that day and nanoseconds. A leap second
has no number of its own: it is the second before it, with a thousand million nanoseconds and
more.

Differences treat a leap second as a real one within its day only: between two moments of
different days the days are counted as 86400 seconds each. So the distance from a leap second
to a later moment can fall as that moment crosses midnight.
-/

namespace Invigilator

/-- Nanoseconds of a second. -/
def nanosPerSecond : Nat := 1000000000

/-- Nanoseconds of a millisecond. -/
def nanosPerMilli : Nat := 1000000

/-- A moment: the day counted from 1970-01-01, the second of the day, and nanoseconds. -/
structure Stamp where
  day : Int
  second : Nat
  nano : Nat
deriving DecidableEq, Repr, Inhabited

namespace Stamp

/-- The moment lies in a leap second. -/
def isLeap (s : Stamp) : Bool := nanosPerSecond ≤ s.nano

/-- The parts of a moment are in range. -/
def Valid (s : Stamp) : Prop :=
  s.second < 86400 ∧ s.nano < 2 * nanosPerSecond ∧ (nanosPerSecond ≤ s.nano → s.second % 60 = 59)

/-- The order of moments. -/
def lt (a b : Stamp) : Bool :=
  a.day < b.day ||
    (a.day == b.day && (a.second < b.second || (a.second == b.second && a.nano < b.nano)))

/-- The earlier of two moments. -/
def earlier (a b : Stamp) : Stamp := if lt b a then b else a

/-- The earliest of a list of moments. -/
def earliest? : List Stamp → Option Stamp
  | [] => none
  | s :: rest => some (rest.foldl earlier s)

/-- The seconds between two times of day, where a leap second in between counts. -/
def secondsBetween (a b : Stamp) : Int :=
  let plain : Int := (a.second : Int) - b.second
  if b.second < a.second ∧ b.isLeap then plain + 1
  else if a.second < b.second ∧ a.isLeap then plain - 1
  else plain

/-- How long after `b` the moment `a` is, in nanoseconds. -/
def since (a b : Stamp) : Int :=
  ((a.day - b.day) * 86400 + secondsBetween a b) * nanosPerSecond + ((a.nano : Int) - b.nano)

/-- The moment a number of nanoseconds after the start of a second of a day. -/
def ofParts (day second nanos : Int) : Stamp :=
  let total := second * nanosPerSecond + nanos
  let seconds := total / nanosPerSecond
  ⟨day + seconds / 86400, (seconds % 86400).toNat, (total % nanosPerSecond).toNat⟩

/--
The moment a number of nanoseconds later. From within a leap second one leaves it forwards as from
the second before, backwards by a second or more as from the second behind.
-/
def later (s : Stamp) (nanos : Int) : Stamp :=
  let moved : Int := s.nano + nanos
  if s.isLeap then
    if moved ≥ 2 * nanosPerSecond then ofParts s.day s.second (moved - nanosPerSecond)
    else if nanos ≤ -(nanosPerSecond : Int) then
      ofParts s.day (s.second + 1) (moved - nanosPerSecond)
    else ⟨s.day, s.second, moved.toNat⟩
  else ofParts s.day s.second moved

/-- The moment that lies a number of seconds after 1970-01-01T00:00:00Z. -/
def ofSeconds (n : Int) : Stamp := ⟨n / 86400, (n % 86400).toNat, 0⟩

/-- The whole seconds from 1970-01-01T00:00:00Z to the moment. -/
def toSeconds (s : Stamp) : Int := s.day * 86400 + s.second

end Stamp

end Invigilator
