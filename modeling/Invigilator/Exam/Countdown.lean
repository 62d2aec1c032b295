import Invigilator.Exam.Snapshot

/-!
# The countdown

The exam clock: a plain value that one `tick` moves on by one second. It runs once. The tick
that reaches zero is the only one that reports `expired`.
-/

namespace Invigilator

/-- Where a countdown is in its life. -/
inductive Phase where
  | idle
  | running
  | stopped
  | expired
deriving DecidableEq, Repr, Inhabited

/-- What one tick reports. -/
structure Tick where
  remaining : Nat
  elapsed : Nat
  total : Nat
  canSubmit : Bool
  expired : Bool
deriving DecidableEq, Repr, Inhabited

def Tick.toJson (t : Tick) : Json :=
  .object [("remaining", .nat t.remaining), ("elapsed", .nat t.elapsed), ("total", .nat t.total),
    ("can_submit", .bool t.canSubmit), ("expired", .bool t.expired)]

/-- The exam clock, with the seconds after which it allows a submission and those below which
time is critical. -/
structure Countdown where
  phase : Phase
  total : Nat
  elapsed : Nat
  unlock : Nat
  critical : Nat
deriving DecidableEq, Repr, Inhabited

namespace Countdown

def new (unlock critical : Nat) : Countdown :=
  { phase := .idle, total := 0, elapsed := 0, unlock, critical }

/-- Starts an idle countdown; any other stays as it is. The flag tells whether it started. -/
def start (c : Countdown) (total : Nat) : Countdown × Bool :=
  if c.phase = .idle then ({ c with total := total, elapsed := 0, phase := .running }, true)
  else (c, false)

def remaining (c : Countdown) : Nat := c.total - c.elapsed

def canSubmit (c : Countdown) : Bool := c.unlock ≤ c.elapsed

def untilSubmit (c : Countdown) : Nat := c.unlock - c.elapsed

def isRunning (c : Countdown) : Bool := c.phase == .running

def isExpired (c : Countdown) : Bool := c.phase == .expired

def isCritical (c : Countdown) : Bool := c.isRunning && c.remaining < c.critical

/-- One second passes. Only a running countdown takes note of it. -/
def tick (c : Countdown) : Countdown × Option Tick :=
  if c.phase = .running then
    let elapsed := min (c.elapsed + 1) c.total
    let expired := c.total - elapsed == 0
    ({ c with elapsed := elapsed, phase := if expired then .expired else .running },
      some
        { remaining := c.total - elapsed, elapsed := elapsed, total := c.total,
          canSubmit := c.unlock ≤ elapsed, expired := expired })
  else (c, none)

/-- So many seconds pass, without a report. -/
def skip (c : Countdown) (seconds : Nat) : Countdown :=
  if c.phase = .running ∧ 0 < seconds then
    let elapsed := min (c.elapsed + seconds) c.total
    { c with elapsed := elapsed, phase := if elapsed = c.total then .expired else .running }
  else c

@[simp] theorem skip_zero (c : Countdown) : c.skip 0 = c := by simp [skip]

/-- To skip seconds is to tick once for each of them. -/
theorem skip_succ (c : Countdown) (n : Nat) : c.skip (n + 1) = (c.skip n).tick.1 := by
  rcases c with ⟨phase, total, elapsed, unlock, critical⟩
  cases phase with
  | running => ?_
  | _ => simp [skip, tick]
  rcases Nat.eq_zero_or_pos n with rfl | hn
  · simp [skip, tick]
    grind
  · rcases Nat.lt_or_ge (elapsed + n) total with h | h
    · have : min (elapsed + n) total = elapsed + n := by omega
      simp [skip, tick, hn, this]
      grind
    · have : min (elapsed + n) total = total := by omega
      have : min (elapsed + (n + 1)) total = total := by omega
      simp [skip, tick, *]

/-- So many seconds pass; the report is that of the last. -/
def tickTimes (c : Countdown) : Nat → Countdown × Option Tick
  | 0 => (c, none)
  | n + 1 => (c.skip n).tick

/-- Stops the countdown for good; an expired one stays expired. -/
def stop (c : Countdown) : Countdown :=
  match c.phase with
  | .idle => { c with phase := .stopped }
  | .running => { c with phase := .stopped }
  | .stopped => c
  | .expired => c

def status (c : Countdown) : TimerStatus :=
  { totalSeconds := c.total, elapsedSeconds := c.elapsed, remainingSeconds := c.remaining,
    canSubmit := c.canSubmit, secondsUntilSubmit := c.untilSubmit, timeCritical := c.isCritical }

end Countdown

end Invigilator
