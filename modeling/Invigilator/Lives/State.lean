import Invigilator.Json.Record
import Invigilator.Time.Written

/-!
# Lives

A number of lives, with one moment for each loss that is still waiting to be given back. The
wait is the same for every loss, the cooldown; giving back happens when the lives are looked
at.
-/

namespace Invigilator

structure LivesState where
  lives : Nat
  lostAt : List Stamp
deriving DecidableEq, Repr, Inhabited

namespace LivesState

/-- All lives, none lost. -/
def full (maxLives : Nat) : LivesState := ⟨maxLives, []⟩

/-- Whether a loss is still waiting at a moment; `cooldown` is in nanoseconds. -/
def isWaiting (now : Stamp) (cooldown : Int) (lost : Stamp) : Bool := now.since lost < cooldown

/-- The losses that a look at a moment gives back. They are counted in eight bits. -/
def restoredCount (s : LivesState) (now : Stamp) (cooldown : Int) : Nat :=
  (s.lostAt.length - (s.lostAt.filter (isWaiting now cooldown)).length) % Nat.pow 2 8

/-- Gives back the losses whose wait is over. -/
def restore (s : LivesState) (now : Stamp) (cooldown : Int) (maxLives : Nat) : LivesState :=
  let restored := s.restoredCount now cooldown
  let lives := if 0 < restored then min (min (s.lives + restored) 255) maxLives else s.lives
  { lives := min lives maxLives, lostAt := s.lostAt.filter (isWaiting now cooldown) }

/-- Takes a life, or nothing when none is left. -/
def lose? (s : LivesState) (now : Stamp) : Option LivesState :=
  if s.lives = 0 then none else some { lives := s.lives - 1, lostAt := s.lostAt ++ [now] }

/-- How long, in nanoseconds, until the oldest loss is given back. -/
def untilNextRestore? (s : LivesState) (now : Stamp) (cooldown : Int) (maxLives : Nat) :
    Option Int :=
  if maxLives ≤ s.lives then none
  else (Stamp.earliest? s.lostAt).map fun oldest => max ((oldest.later cooldown).since now) 0

def toJson (s : LivesState) : Json :=
  .object [("lives", .nat s.lives), ("lost_at", .listOf Stamp.toJson s.lostAt)]

def ofJson? (j : Json) : Option LivesState := do
  match ← Json.slots? [.plain "lives", .defaulted "lost_at"] j with
  | [lives, lost] => do
    let lives ← Json.needed Json.nat8? lives
    let lostAt ← Json.withDefault [] (Json.listOf? Stamp.ofJson?) lost
    some { lives := lives, lostAt }
  | _ => none

end LivesState

end Invigilator
