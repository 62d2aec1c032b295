import Invigilator.Lives.Attempt
import Invigilator.Lives.State

/-!
# The lives ledger

Counts lives by bucket over a key-value store. Losses that have waited long enough are given
back when a bucket is next looked at, and every call is one read and at most two writes of its
bucket. A bucket without a record has all its lives.

The ledger works over any store (`LivesStore`). Calls that read the clock twice take both
readings.
-/

namespace Invigilator

/-- Whose lives are counted. -/
inductive Bucket where
  | user (id : String)
  | anonymous
  | session (id : String)
deriving DecidableEq, Repr, Inhabited

namespace Bucket

/-- The bucket of a caller; one without an id is anonymous. -/
def forUser : Option String → Bucket
  | none => anonymous
  | some id => if id = "" then anonymous else user id

/-- The key of a bucket in the store. -/
def key : Bucket → String
  | user id => "user:" ++ id
  | anonymous => "anonymous"
  | session id => "exam:" ++ id

/-- What the lives of a bucket are for. -/
def scope : Bucket → String
  | user _ => "practice"
  | anonymous => "practice"
  | session _ => "exam"

end Bucket

/-- A key-value store for lives. A record may carry the seconds after which it can be dropped. -/
structure LivesStore (σ : Type) where
  get : String → Attempt σ (Option LivesState)
  put : String → LivesState → Option Nat → Attempt σ Unit
  has : String → Attempt σ Bool

/-- The rules of a ledger: how many lives there are, and how long a lost one stays away in
nanoseconds, for ever if there is no such time. -/
structure LedgerRules where
  maxLives : Nat
  cooldown : Option Int
deriving DecidableEq, Repr, Inhabited

namespace Ledger

variable {σ : Type} (store : LivesStore σ) (rules : LedgerRules)

/-- When a record may be dropped: once every waiting loss has been given back. -/
def timeToLive (state : LivesState) : Option Nat :=
  match rules.cooldown with
  | none => none
  | some cooldown =>
    if state.lostAt.isEmpty then none
    else some (max (Int.tdiv cooldown nanosPerSecond) 1).toNat

/-- Writes a bucket's record. -/
def save (bucket : Bucket) (state : LivesState) : Attempt σ Unit :=
  store.put bucket.key state (timeToLive rules state)

/-- Gives back what has waited long enough, and writes the record if anything was. -/
def giveBack (now : Stamp) (bucket : Bucket) (state : LivesState) : Attempt σ LivesState :=
  match rules.cooldown with
  | none => pure state
  | some cooldown => do
    let restored := state.restoredCount now cooldown
    let state := state.restore now cooldown rules.maxLives
    if 0 < restored then
      Attempt.note
        [.debug ("Restored " ++ Decimal.text restored ++ " lives for " ++ bucket.key)]
      save store rules bucket state
    pure state

/-- The lives of a bucket. -/
def current (now : Stamp) (bucket : Bucket) : Attempt σ LivesState := do
  match ← store.get bucket.key with
  | none => pure (LivesState.full rules.maxLives)
  | some state =>
    let state ← giveBack store rules now bucket state
    pure { state with lives := min state.lives rules.maxLives }

/-- The number of lives of a bucket. -/
def currentLives (now : Stamp) (bucket : Bucket) : Attempt σ Nat := do
  let state ← current store rules now bucket
  pure state.lives

/-- Whether a bucket has a life left. -/
def hasLives (now : Stamp) (bucket : Bucket) : Attempt σ Bool := do
  let lives ← currentLives store rules now bucket
  pure (0 < lives)

/-- Takes a life. With none left the state is returned as it is. -/
def loseLife (looked lost : Stamp) (bucket : Bucket) : Attempt σ LivesState := do
  let state ← current store rules looked bucket
  match state.lose? lost with
  | none => do
    Attempt.note [.debug ("No lives left to lose for " ++ bucket.key)]
    pure state
  | some state => do
    save store rules bucket state
    Attempt.note
      [.count (.livesLost bucket.scope),
        .info ("Life lost: bucket=" ++ bucket.key ++ ", lives=" ++ Decimal.text state.lives ++ "/" ++
          Decimal.text rules.maxLives)]
    pure state

/-- How long, in nanoseconds, until the next life is given back. -/
def untilNextRestore (looked asked : Stamp) (bucket : Bucket) : Attempt σ (Option Int) :=
  match rules.cooldown with
  | none => pure none
  | some cooldown => do
    let state ← current store rules looked bucket
    pure (state.untilNextRestore? asked cooldown rules.maxLives)

/-- Gives a bucket all its lives. One without a record has them and is left alone. -/
def reset (bucket : Bucket) : Attempt σ LivesState := do
  let state := LivesState.full rules.maxLives
  if ← store.has bucket.key then
    save store rules bucket state
    Attempt.note [.info ("Lives reset: bucket=" ++ bucket.key)]
    pure state
  else
    Attempt.note [.debug ("Lives reset skipped, no record for " ++ bucket.key)]
    pure state

end Ledger

end Invigilator
