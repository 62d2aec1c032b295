import Invigilator.Journal.Note
import Invigilator.Json.Basic
import Invigilator.Text.Decimal
import Invigilator.Time.Stamp

/-!
# Retry

How often an operation is tried and how long is waited in between. The wait doubles up to a
limit, and chance adds some whole milliseconds to each; what chance decides is an argument. Times
are in nanoseconds.
-/

namespace Invigilator

structure RetryPolicy where
  maxAttempts : Nat
  base : Nat
  most : Nat
  /-- The most that chance adds to a wait. -/
  jitter : Option Nat
deriving DecidableEq, Repr, Inhabited

/-- Where a run of attempts stands: how many are left, and the next wait. -/
structure Patience where
  left : Nat
  wait : Nat
deriving DecidableEq, Repr, Inhabited

namespace RetryPolicy

/-- A policy with its times in milliseconds. -/
def ofMillis (maxAttempts base most : Nat) (jitter : Option Nat) : RetryPolicy :=
  { maxAttempts, base := base * nanosPerMilli, most := most * nanosPerMilli,
    jitter := jitter.map (· * nanosPerMilli) }

/-- For writes that are worth a few attempts. -/
def standard : RetryPolicy := .ofMillis 5 20 500 (some 50)

/-- For writes that must not be lost lightly. -/
def persistent : RetryPolicy := .ofMillis 7 50 1000 (some 100)

def toJson (p : RetryPolicy) : Json :=
  .object [("max_attempts", .nat p.maxAttempts), ("base_ms", .nat (p.base / nanosPerMilli)),
    ("max_ms", .nat (p.most / nanosPerMilli)),
    ("jitter_ms", .option (fun jitter => .nat (jitter / nanosPerMilli)) p.jitter)]

/-- The start of a run. There is always one attempt. -/
def start (p : RetryPolicy) : Patience := ⟨max p.maxAttempts 1, p.base⟩

/-- What chance adds to a wait. The most that it may add is counted in 64 bits. -/
def extra (p : RetryPolicy) (draw : Nat) : Nat :=
  match p.jitter with
  | none => 0
  | some most => draw % (most / nanosPerMilli % Nat.pow 2 64 + 1) * nanosPerMilli

/-- After a failure: how long to wait and where the run stands then, or `none` if it is over. -/
def afterFailure? (p : RetryPolicy) (draw : Nat) (run : Patience) : Option (Nat × Patience) :=
  if run.left ≤ 1 then none
  else some (run.wait + p.extra draw, ⟨run.left - 1, min (run.wait * 2) p.most⟩)

/-- Patience is lost with the last attempt. -/
theorem afterFailure?_none {p : RetryPolicy} {draw : Nat} {run : Patience}
    (h : p.afterFailure? draw run = none) : run.left ≤ 1 := by
  unfold afterFailure? at h
  split at h
  · assumption
  · cases h

/-- An attempt that is not the last takes one from the patience. -/
theorem afterFailure?_some {p : RetryPolicy} {draw wait : Nat} {run next : Patience}
    (h : p.afterFailure? draw run = some (wait, next)) :
    1 < run.left ∧ next.left = run.left - 1 := by
  unfold afterFailure? at h
  split at h
  · cases h
  · rename_i hleft
    obtain rfl := congrArg Prod.snd (Option.some.inj h)
    exact ⟨Nat.lt_of_not_le hleft, rfl⟩

/-- The line of the log about a failure that is tried again. -/
def retryLine (operation error : String) (left : Nat) : Note :=
  .debug ("Retrying " ++ operation ++ " after error: " ++ error ++ " (" ++ Decimal.text left ++
    " attempts left)")

end RetryPolicy

/-- A wait in milliseconds, which it is rounded up to. -/
def millisOfWait (wait : Nat) : Nat := (wait + (nanosPerMilli - 1)) / nanosPerMilli

/-- A finished run: its waits in order, and what the last attempt gave. -/
structure RetryRun (ε α : Type) where
  attempts : Nat
  waits : List Nat
  notes : List Note
  result : Except ε α

/-- The longest that anything sleeps at a time, in milliseconds: thirty years. -/
def longestSleep : Nat := 30 * 365 * 86400 * 1000

/-- How long a run took, in milliseconds; a longer wait is cut short. -/
def RetryRun.elapsed (run : RetryRun ε α) : Nat :=
  (run.waits.map fun wait => min longestSleep (millisOfWait wait)).foldl (· + ·) 0

namespace RetryPolicy

/-- Goes on from the attempt with a number, counted from zero. -/
def runFrom (p : RetryPolicy) (operation : String) (describe : ε → String) (draw : Nat → Nat)
    (attempt : Nat → Except ε α) (number : Nat) (run : Patience) : RetryRun ε α :=
  match attempt number with
  | .ok x => ⟨number + 1, [], [], .ok x⟩
  | .error e =>
    match h : p.afterFailure? (draw number) run with
    | none => ⟨number + 1, [], [], .error e⟩
    | some (wait, next) =>
      let rest := runFrom p operation describe draw attempt (number + 1) next
      { rest with
        waits := wait :: rest.waits
        notes := retryLine operation (describe e) next.left :: rest.notes }
termination_by run.left
decreasing_by
  obtain ⟨hmore, hleft⟩ := afterFailure?_some h
  omega

/-- Tries an operation until it succeeds or the policy gives up. -/
def run (p : RetryPolicy) (operation : String) (describe : ε → String) (draw : Nat → Nat)
    (attempt : Nat → Except ε α) : RetryRun ε α :=
  runFrom p operation describe draw attempt 0 p.start

end RetryPolicy

end Invigilator
