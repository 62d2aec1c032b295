import Invigilator.Records.Scribe

/-!
# The courier

The way from the scribes to the records. Every attempt is remembered, and attempts can be made
to fail: some get lost on the way, and of some the word that they were carried out gets lost on
the way back.
-/

namespace Invigilator

/-- An attempt at a write, and whether it was reported as done; a block has no report. -/
structure Delivery where
  write : RecordWrite
  done : Option Bool
deriving DecidableEq, Repr, Inhabited

def Delivery.toJson (d : Delivery) : Json :=
  let report : List (String × Json) :=
    match d.done with
    | none => []
    | some done => [("ok", .bool done)]
  let members : List (String × Json) :=
    match d.write with
    | .createSession s => [("session", s.toJson)]
    | .createAnswer id a => [("id", .text id), ("index", .nat a.questionIndex)]
    | .updateSession id p => [("id", .text id), ("patch", p.toJson)]
    | .updateAnswer id i p => [("id", .text id), ("index", .nat i), ("patch", p.toJson)]
    | .recordViolation v => [("violation", v.toJson)]
    | .blockUser user id => [("user", .text user), ("session", .text id)]
  .object (("write", .text d.write.name) :: members ++ report)

structure Courier where
  records : Records
  /-- How many of the next attempts get lost. -/
  losses : Nat
  /-- Of how many of the next attempts that are carried out no word comes back. -/
  silences : Nat
  /-- The attempts so far, latest first. -/
  deliveries : List Delivery
deriving DecidableEq, Repr, Inhabited

namespace Courier

def new : Courier := ⟨.empty, 0, 0, []⟩

/-- What becomes of the next attempt at a write. A block always arrives. -/
def passage (c : Courier) : RecordWrite → Records.Passage
  | .blockUser .. => .arrives
  | _ => if 0 < c.losses then .lost else if 0 < c.silences then .unacknowledged else .arrives

/-- Whether a write is reported on. -/
def isReported : RecordWrite → Bool
  | .blockUser .. => false
  | _ => true

/-- Whether an attempt was carried out, told from what it reports and what became of it. -/
def wasCarriedOut (c : Courier) (time : Stamp) (w : RecordWrite) : Bool :=
  match c.records.apply time w with
  | .ok _ => true
  | .error _ => false

/-- Makes an attempt at a write. -/
def carry (c : Courier) (time : Stamp) (w : RecordWrite) :
    Except BackendFault Unit × Courier :=
  let passage := c.passage w
  let (result, records) := c.records.attempt time passage w
  let done : Bool :=
    match result with
    | .ok _ => true
    | .error _ => false
  (result,
    { records := records
      losses := if passage = .lost then c.losses - 1 else c.losses
      silences :=
        if passage = .unacknowledged ∧ c.wasCarriedOut time w then c.silences - 1 else c.silences
      deliveries := ⟨w, if isReported w then some done else none⟩ :: c.deliveries })

/-- The cabinet switched on or off. -/
def setAvailable (c : Courier) (available : Bool) : Courier :=
  { c with records := { c.records with cabinet := { c.records.cabinet with available } } }

end Courier

/-- Lets a scribe work at a moment for as long as it has something to try; `fuel` bounds the
attempts. -/
def Scribe.workFor (now : Nat) (time : Stamp) (draw : Nat) :
    (fuel : Nat) → Scribe → Courier → (Scribe × Courier) × List Note
  | 0, s, c => ((s, c), [])
  | fuel + 1, s, c =>
    let s := s.takeUp now
    match s.errand with
    | none => ((s, c), [])
    | some e =>
      if e.due ≤ now then
        let (result, c) := c.carry time e.write
        let (s, notes) := s.report now draw e result
        let (state, more) := workFor now time draw fuel s c
        (state, notes ++ more)
      else ((s, c), [])

/-- Lets a scribe work at a moment. Each write of the queue is tried once, unless an earlier one
waits. -/
def Scribe.work (s : Scribe) (c : Courier) (now : Nat) (time : Stamp) (draw : Nat) :
    (Scribe × Courier) × List Note :=
  Scribe.workFor now time draw (s.queue.length + 2) s c

end Invigilator
