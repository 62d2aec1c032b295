import Invigilator.Exam.Catalog
import Invigilator.Service.Config
import Invigilator.Service.Hall

/-!
# The service

The hall with what surrounds it: the configuration, the catalog, and the ledger of practice
lives over a store of its own. A call of the service gives a result or a fault; what was done
before a fault stays done.
-/

namespace Invigilator

/-- A store for practice lives that can be asked whether it is there. -/
structure PracticeStore (σ : Type) where
  store : LivesStore σ
  ping : Attempt σ Unit

structure Service (σ : Type) where
  config : Config
  catalog : Catalog
  hall : Hall
  practice : PracticeStore σ
  /-- The state of the store for practice lives. -/
  lives : σ
  /-- The clock that practice lives go by, where it is not the calendar. -/
  livesTime : Option Stamp
  /-- How long the store for practice lives takes to say that it is there, in milliseconds. -/
  pingDelay : Nat

/-- A call of the service. -/
def Call (σ α : Type) : Type := Service σ → Except Fault α × Service σ

namespace Call

variable {σ α β : Type}

def run (c : Call σ α) (s : Service σ) : Except Fault α × Service σ := c s

def done (x : α) : Call σ α := fun s => (.ok x, s)

def fail (fault : Fault) : Call σ α := fun s => (.error fault, s)

/-- One call after the other, unless the first fails. -/
def andThen (c : Call σ α) (f : α → Call σ β) : Call σ β := fun s =>
  match c s with
  | (.error fault, s) => (.error fault, s)
  | (.ok x, s) => f x s

instance : Monad (Call σ) where
  pure := done
  bind := andThen

/-- The service as it stands. -/
def service : Call σ (Service σ) := fun s => (.ok s, s)

/-- Changes the hall. -/
def changeHall (f : Hall → Hall) : Call σ Unit := fun s => (.ok (), { s with hall := f s.hall })

/-- Asks the hall, which may change. -/
def askHall (f : Hall → α × Hall) : Call σ α := fun s =>
  let (x, hall) := f s.hall
  (.ok x, { s with hall := hall })

/-- Takes notes. -/
def jot (notes : List Note) : Call σ Unit := changeHall (·.jot notes)

/-- What a backing store gives. -/
def ofBackend : Except BackendFault α → Call σ α
  | .ok x => done x
  | .error fault => fail (.backend fault)

/-- What a call may give. -/
def ofExcept : Except Fault α → Call σ α
  | .ok x => done x
  | .error fault => fail fault

/-- A call on the store for practice lives. -/
def onLives (a : Attempt σ α) : Call σ α := fun s =>
  let ((result, lives), notes) := a.run s.lives
  let s := { s with lives := lives, hall := s.hall.jot notes }
  match result with
  | .ok x => (.ok x, s)
  | .error fault => (.error (.backend fault), s)

@[simp] theorem run_pure (x : α) (s : Service σ) : (pure x : Call σ α).run s = (.ok x, s) := rfl

@[simp] theorem run_fail (fault : Fault) (s : Service σ) :
    (fail fault : Call σ α).run s = (.error fault, s) := rfl

theorem run_bind (c : Call σ α) (f : α → Call σ β) (s : Service σ) :
    (c >>= f).run s =
      match c.run s with
      | (.error fault, s) => (.error fault, s)
      | (.ok x, s) => (f x).run s := rfl

end Call

namespace Service

/-- The rules of the ledger of practice lives. -/
def practiceRules (config : Config) : LedgerRules :=
  ⟨config.exam.maxLives, some (config.exam.restoreCooldownSeconds * nanosPerSecond)⟩

/-- The time that practice lives go by. -/
def practiceTime (s : Service σ) : Stamp := s.livesTime.getD s.hall.time

/-- A service in which nothing has happened yet. -/
def new (config : Config) (catalog : Catalog) (practice : PracticeStore σ) (lives : σ)
    (opened : Stamp) (source : Source) : Service σ :=
  { config, catalog, hall := .new opened source config.exam.archiveCapacity, practice, lives,
    livesTime := none, pingDelay := 0 }

/-- Opens a service; it does not open if no span of time is as long as the wait for a lost life. -/
def open? (config : Config) (catalog : Catalog) (practice : PracticeStore σ) (lives : σ)
    (opened : Stamp) (source : Source) : Option (Service σ) :=
  if config.exam.hasRestoreSpan then some (.new config catalog practice lives opened source)
  else none

end Service

end Invigilator
