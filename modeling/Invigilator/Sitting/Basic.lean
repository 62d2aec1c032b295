import Invigilator.Exam.Countdown
import Invigilator.Exam.Detector
import Invigilator.Exam.Event
import Invigilator.Exam.Snapshot
import Invigilator.Lives.Ledger
import Invigilator.Records.Write

/-!
# Sittings

One exam of one candidate while it runs: the session with its answers and violations, the
clock, the detector, and the timer of the pending grace period. A sitting is a value; it is
changed by one event at a time, and what an event makes it do besides is a list of actions.

This file has the value, the actions, and turns: computations on a sitting and the store that
its lives are counted in.
-/

namespace Invigilator

/-- The times that a sitting goes by; those without a unit in their names are in milliseconds. -/
structure Pace where
  totalSeconds : Nat
  submitUnlockSeconds : Nat
  timeCriticalSeconds : Nat
  grace : Nat
  tick : Nat
deriving DecidableEq, Repr, Inhabited

/-- Reads the times from the members of an object. -/
def Pace.ofJson? (j : Json) : Option Pace := do
  let read (name : String) : Option Nat := (j.member? name).bind Json.nat64?
  let totalSeconds ← read "total_seconds"
  let submitUnlockSeconds ← read "submit_unlock_seconds"
  let timeCriticalSeconds ← read "time_critical_seconds"
  let grace ← read "grace_ms"
  let tick ← read "tick_ms"
  some { totalSeconds := totalSeconds, submitUnlockSeconds, timeCriticalSeconds, grace, tick }

/-- The timer of a grace period. -/
structure GraceTimer where
  deadline : Instant
  generation : Nat
deriving DecidableEq, Repr, Inhabited

structure Sitting where
  session : Session
  answers : List Answer
  violations : List Violation
  timer : Countdown
  detector : Detector
  grace : Option GraceTimer
  /-- The service was shut down while the session was in progress. -/
  suspended : Bool
deriving DecidableEq, Repr, Inhabited

/-- What a sitting does besides changing. -/
inductive Action where
  | publish (event : Event)
  | write (write : RecordWrite)
  | note (note : Note)
deriving DecidableEq, Repr

namespace Sitting

/-- A sitting before it is armed. -/
def new (session : Session) (answers : List Answer) (pace : Pace) : Sitting :=
  { session, answers, violations := [],
    timer := .new pace.submitUnlockSeconds pace.timeCriticalSeconds,
    detector := .new pace.grace, grace := none, suspended := false }

/-- Whether events still reach the sitting. -/
def isRunning (s : Sitting) : Bool := s.session.isActive && !s.suspended

/-- Everything that is known of a sitting. -/
def snapshot (s : Sitting) : Snapshot :=
  { session := s.session, answers := s.answers, violations := s.violations,
    timer := some s.timer.status, pendingViolation := s.detector.pendingViolation }

/-- Takes the effects of arming into account: its directives, and a grace period if one opens. -/
def armEffects (s : Sitting) : List Effect → Sitting × List Directive
  | [] => (s, [])
  | .directive d :: rest =>
    let (s, ds) := armEffects s rest
    (s, d :: ds)
  | .startGrace deadline generation :: rest =>
    armEffects { s with grace := some ⟨deadline, generation⟩ } rest
  | _ :: rest => armEffects s rest

/-- Starts the clock and the detector. The directives are for the answer to the start. -/
def arm (s : Sitting) (totalSeconds : Nat) (now : Instant) : Sitting × List Directive :=
  let (detector, effects) :=
    s.detector.step (.arm .nominal) ⟨now, s.session.livesRemaining⟩
  let (s, directives) :=
    armEffects { s with timer := (s.timer.start totalSeconds).1, detector := detector } effects
  (s, .requestFullscreen :: directives)

end Sitting

/-! ## Turns -/

/-- What surrounds an event: the monotonic and the calendar clock, two readings of the clock of the
lives ledger, and an id for a violation. -/
structure Scene where
  now : Instant
  time : Stamp
  looked : Stamp
  lost : Stamp
  violationId : String
deriving DecidableEq, Repr, Inhabited

/-- A ledger of lives: a store and its rules. -/
structure LivesLedger (σ : Type) where
  store : LivesStore σ
  rules : LedgerRules

/-- A computation on a sitting and the store of its lives, with the actions it takes. -/
def Turn (σ α : Type) : Type := Sitting × σ → (α × (Sitting × σ)) × List Action

namespace Turn

variable {σ α β : Type}

def run (t : Turn σ α) (s : Sitting × σ) : (α × (Sitting × σ)) × List Action := t s

def done (x : α) : Turn σ α := fun s => ((x, s), [])

/-- One computation after the other. -/
def andThen (t : Turn σ α) (f : α → Turn σ β) : Turn σ β := fun s =>
  match t s with
  | ((x, s), actions) =>
    let (result, more) := f x s
    (result, actions ++ more)

instance : Monad (Turn σ) where
  pure := done
  bind := andThen

/-- The sitting as it stands. -/
def sitting : Turn σ Sitting := fun s => ((s.1, s), [])

/-- Changes the sitting. -/
def change (f : Sitting → Sitting) : Turn σ Unit := fun s => (((), (f s.1, s.2)), [])

/-- Takes an action. -/
def act (a : Action) : Turn σ Unit := fun s => (((), s), [a])

/-- Makes a call on the store of lives; its notes become actions. -/
def call (a : Attempt σ α) : Turn σ (Except BackendFault α) := fun s =>
  match a s.2 with
  | ((result, lives), notes) => ((result, (s.1, lives)), notes.map .note)

def note (n : Note) : Turn σ Unit := act (.note n)

@[simp] theorem run_pure (x : α) (s : Sitting × σ) :
    (pure x : Turn σ α).run s = ((x, s), []) := rfl

@[simp] theorem run_sitting (s : Sitting × σ) :
    (sitting : Turn σ Sitting).run s = ((s.1, s), []) := rfl

@[simp] theorem run_change (f : Sitting → Sitting) (s : Sitting × σ) :
    (change f : Turn σ Unit).run s = (((), (f s.1, s.2)), []) := rfl

@[simp] theorem run_act (a : Action) (s : Sitting × σ) :
    (act a : Turn σ Unit).run s = (((), s), [a]) := rfl

theorem run_bind (t : Turn σ α) (f : α → Turn σ β) (s : Sitting × σ) :
    (t >>= f).run s =
      (((f (t.run s).1.1).run (t.run s).1.2).1,
        (t.run s).2 ++ ((f (t.run s).1.1).run (t.run s).1.2).2) := rfl

end Turn

end Invigilator
