import Invigilator.Records.Cabinet

/-!
# The scribe

Carries the writes of one sitting to the records, one after the other and in order. A write
that fails is tried again after a while; one that has failed too often is dropped, and the next
has its turn. The sitting never waits for its scribe.
-/

namespace Invigilator

/-- A write that is under way, and when it is tried next. -/
structure Errand where
  write : RecordWrite
  patience : Patience
  due : Nat
deriving DecidableEq, Repr, Inhabited

structure Scribe where
  errand : Option Errand
  queue : List RecordWrite
  stopped : Bool
deriving DecidableEq, Repr, Inhabited

namespace Scribe

def idle : Scribe := ⟨none, [], false⟩

/-- Hands a write over. A scribe that has stopped takes none. -/
def hand (s : Scribe) (w : RecordWrite) : Scribe :=
  if s.stopped then s else { s with queue := s.queue ++ [w] }

/-- Stops the scribe; what it still has to do is lost. -/
def stop (_ : Scribe) : Scribe := ⟨none, [], true⟩

/-- Takes up the next write of the queue, if none is under way. -/
def takeUp (s : Scribe) (now : Nat) : Scribe :=
  match s.errand, s.queue with
  | none, w :: rest => { s with errand := some ⟨w, w.retryPolicy.start, now⟩, queue := rest }
  | _, _ => s

/-- When the write under way is tried next. -/
def due? (s : Scribe) : Option Nat := s.errand.map Errand.due

/-- What has come of an attempt at the write under way. -/
def report (s : Scribe) (now draw : Nat) (e : Errand) (result : Except BackendFault Unit) :
    Scribe × List Note :=
  match result with
  | .ok _ => ({ s with errand := none }, [])
  | .error fault =>
    match e.write.retryPolicy.afterFailure? draw e.patience with
    | some (wait, patience) =>
      ({ s with errand := some { e with patience := patience, due := now + millisOfWait wait } },
        [RetryPolicy.retryLine e.write.name fault.outer patience.left])
    | none =>
      ({ s with errand := none },
        [.warn ("Dropping exam store write " ++ e.write.name ++ " after retries: " ++
          fault.chain)])

end Scribe

end Invigilator
