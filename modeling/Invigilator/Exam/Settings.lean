import Invigilator.Json.Record

/-!
# Exam settings

The timing and penalty policy of exams, its defaults, and the refusals of a policy that cannot
be used. The cooldown of a life is taken as a signed number of 64 bits.
-/

namespace Invigilator

structure Settings where
  durationSeconds : Nat
  submitUnlockSeconds : Nat
  gracePeriodSeconds : Nat
  maxLives : Nat
  lifeRestoreSeconds : Nat
  tickIntervalMs : Nat
  timeCriticalSeconds : Nat
  archiveCapacity : Nat
deriving DecidableEq, Repr, Inhabited

namespace Settings

/-- Three hours, two before a submission, three lives that come back after ten minutes. -/
def standard : Settings :=
  { durationSeconds := 10800, submitUnlockSeconds := 7200, gracePeriodSeconds := 10, maxLives := 3,
    lifeRestoreSeconds := 600, tickIntervalMs := 1000, timeCriticalSeconds := 600,
    archiveCapacity := 1024 }

/-- The most lives that an exam may have. -/
def mostLives : Nat := 3

/-- The grace period in milliseconds. -/
def graceMs (s : Settings) : Nat := s.gracePeriodSeconds * 1000

/-- The time between ticks in milliseconds, at least one. -/
def tickMs (s : Settings) : Nat := max s.tickIntervalMs 1

/-- A natural number read as a signed number of 64 bits. -/
def asInt64 (n : Nat) : Int := Int.bmod n (Nat.pow 2 64)

/-- The wait for a lost life, in seconds. -/
def restoreCooldownSeconds (s : Settings) : Int := asInt64 s.lifeRestoreSeconds

/-- The seconds of the longest span of time, which has its milliseconds counted in 64 bits with a
sign. -/
def longestSpan : Nat := (Nat.pow 2 63 - 1) / 1000

/-- Whether there is a span of time as long as the wait for a lost life. -/
def hasRestoreSpan (s : Settings) : Bool := s.restoreCooldownSeconds.natAbs ≤ longestSpan

/-- Why a policy is refused. -/
inductive Refusal where
  | maxLives
  | archiveCapacity
  | submitUnlock
deriving DecidableEq, Repr

def Refusal.message : Refusal → String
  | maxLives => "exam.max_lives must be between 1 and 3"
  | archiveCapacity => "exam.archive_capacity must be at least 1"
  | submitUnlock => "exam.submit_unlock_seconds cannot exceed exam.duration_seconds"

/-- The first reason to refuse a policy. -/
def refusal? (s : Settings) : Option Refusal :=
  if s.maxLives < 1 ∨ mostLives < s.maxLives then some .maxLives
  else if s.archiveCapacity = 0 then some .archiveCapacity
  else if s.durationSeconds < s.submitUnlockSeconds then some .submitUnlock
  else none

def members (s : Settings) : List (String × Json) :=
  [("duration_seconds", .nat s.durationSeconds),
    ("submit_unlock_seconds", .nat s.submitUnlockSeconds),
    ("grace_period_seconds", .nat s.gracePeriodSeconds), ("max_lives", .nat s.maxLives),
    ("life_restore_seconds", .nat s.lifeRestoreSeconds),
    ("tick_interval_ms", .nat s.tickIntervalMs),
    ("time_critical_seconds", .nat s.timeCriticalSeconds),
    ("archive_capacity", .nat s.archiveCapacity)]

/-- The policy with the spans that follow from it, in as many milliseconds as 64 bits count. -/
def describe (s : Settings) : Json :=
  .object (s.members ++ [("grace_ms", .nat (s.graceMs % Nat.pow 2 64)), ("tick_ms", .nat s.tickMs),
    ("restore_cooldown_seconds", .int s.restoreCooldownSeconds)])

def fields : List Json.Field :=
  [.defaulted "duration_seconds", .defaulted "submit_unlock_seconds",
    .defaulted "grace_period_seconds", .defaulted "max_lives", .defaulted "life_restore_seconds",
    .defaulted "tick_interval_ms", .defaulted "time_critical_seconds",
    .defaulted "archive_capacity"]

/-- Reads a policy; what it does not name is as in `standard`. -/
def ofJson? (j : Json) : Option Settings := do
  match ← Json.slots? fields j with
  | [duration, unlock, grace, lives, restore, tick, critical, archive] => do
    let durationSeconds ← Json.withDefault standard.durationSeconds Json.nat64? duration
    let submitUnlockSeconds ← Json.withDefault standard.submitUnlockSeconds Json.nat64? unlock
    let gracePeriodSeconds ← Json.withDefault standard.gracePeriodSeconds Json.nat64? grace
    let maxLives ← Json.withDefault standard.maxLives Json.nat8? lives
    let lifeRestoreSeconds ← Json.withDefault standard.lifeRestoreSeconds Json.nat64? restore
    let tickIntervalMs ← Json.withDefault standard.tickIntervalMs Json.nat64? tick
    let timeCriticalSeconds ← Json.withDefault standard.timeCriticalSeconds Json.nat64? critical
    let archiveCapacity ← Json.withDefault standard.archiveCapacity Json.nat64? archive
    some
      { durationSeconds := durationSeconds, submitUnlockSeconds, gracePeriodSeconds, maxLives,
        lifeRestoreSeconds, tickIntervalMs, timeCriticalSeconds, archiveCapacity }
  | _ => none

end Settings

end Invigilator
