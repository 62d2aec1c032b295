import Invigilator.Exam.Event
import Invigilator.Journal.Note

/-!
# Relays

A subscriber's end of a sitting's events. What is not read yet waits in a buffer of 256; a
subscriber that falls behind misses the oldest. The stream ends behind the event that finishes
the session, or when the sitting is gone.
-/

namespace Invigilator

structure Relay where
  sessionId : String
  /-- Events that have not been read, oldest first. -/
  unread : List Event
  /-- How many events were missed before those. -/
  missed : Nat
  /-- The sitting may still publish. -/
  connected : Bool
  /-- The subscriber reads what comes at once. -/
  eager : Bool
  /-- Events that were read and not yet collected, latest first. -/
  relayed : List Event
  closed : Bool
deriving DecidableEq, Repr, Inhabited

namespace Relay

/-- How many events wait for a subscriber. -/
def capacity : Nat := 256

/-- A new subscription to the events of a session. -/
def subscribe (sessionId : String) (eager : Bool) : Relay :=
  { sessionId, unread := [], missed := 0, connected := true, eager, relayed := [], closed := false }

/-- An event is published. -/
def receive (r : Relay) (e : Event) : Relay :=
  if r.closed then r
  else
    let unread := r.unread ++ [e]
    let excess := unread.length - capacity
    { r with unread := unread.drop excess, missed := r.missed + excess }

/-- The stream ends. -/
def close (r : Relay) (line : String) : Relay × List Note :=
  ({ r with unread := [], closed := true },
    [.debug (line ++ ": session=" ++ r.sessionId), .move .streamsActive (-1)])

/-- The subscriber goes away without reading on. -/
def leave (r : Relay) : Relay × List Note :=
  if r.closed then (r, [])
  else ({ r with unread := [], closed := true }, [.move .streamsActive (-1)])

/-- Relays a list of events, up to the one that ends the stream. -/
def relayAll (r : Relay) : List Event → Relay × List Note
  | [] =>
    if r.connected then ({ r with unread := [] }, [])
    else r.close "Exam event channel closed"
  | e :: rest =>
    let r := { r with relayed := e :: r.relayed }
    if e.isLast then r.close "Exam stream closed" else relayAll r rest

/-- The subscriber reads everything that waits. -/
def read (r : Relay) : Relay × List Note :=
  if r.closed then (r, [])
  else
    let lag : List Note :=
      if r.missed = 0 then []
      else
        [.warn ("Exam stream lagging: session=" ++ r.sessionId ++ ", skipped=" ++
          Decimal.text r.missed)]
    let (r, notes) := relayAll { r with missed := 0 } r.unread
    (r, lag ++ notes)

/-- An eager subscriber reads. -/
def readIfEager (r : Relay) : Relay × List Note := if r.eager then r.read else (r, [])

/-- Takes the events that were read. -/
def collect (r : Relay) : List Event × Relay := (r.relayed.reverse, { r with relayed := [] })

end Relay

end Invigilator
