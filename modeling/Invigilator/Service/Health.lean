import Invigilator.Service.State

/-!
# Health

Whether the stores that the service depends on are there. Each has a second to answer.
-/

namespace Invigilator.Service

open Call

variable {σ : Type}

/-- What a dependency said. -/
inductive Pulse where
  | healthy
  | failing (fault : BackendFault)
  | silent
deriving DecidableEq, Repr, Inhabited

namespace Pulse

def isHealthy : Pulse → Bool
  | healthy => true
  | failing _ => false
  | silent => false

def toJson (name : String) : Pulse → Json
  | healthy =>
    .object [("status", .text "healthy"), ("message", .text (name ++ " connection successful"))]
  | failing fault =>
    .object [("status", .text "unhealthy"), ("error", .text (name ++ " error: " ++ fault.chain))]
  | silent =>
    .object [("status", .text "unhealthy"), ("error", .text (name ++ " timeout after 1s"))]

end Pulse

/-- How long a dependency has to answer, in milliseconds. -/
def pingLimit : Nat := 1000

/-- What the records say. -/
def recordsPulse : Call σ Pulse := do
  match (← service).hall.courier.records.cabinet.ping with
  | .ok _ => pure .healthy
  | .error fault => pure (.failing fault)

/-- What the store for practice lives says. Time passes until it does. -/
def livesPulse : Call σ Pulse := fun s =>
  let s := { s with hall := s.hall.advance (min s.pingDelay pingLimit) }
  if pingLimit < s.pingDelay then (.ok .silent, s)
  else
    match s.practice.ping.run s.lives with
    | ((.ok _, lives), notes) =>
      (.ok .healthy, { s with lives := lives, hall := s.hall.jot notes })
    | ((.error fault, lives), notes) =>
      (.ok (.failing fault), { s with lives := lives, hall := s.hall.jot notes })

/-- The state of the service and of what it depends on. -/
structure Health where
  records : Pulse
  lives : Pulse
  activeExams : Nat
deriving DecidableEq, Repr, Inhabited

namespace Health

def isHealthy (h : Health) : Bool := h.records.isHealthy && h.lives.isHealthy

def toJson (h : Health) : Json :=
  .object [("status", .text (if h.isHealthy then "healthy" else "degraded")),
    ("service", .text "proctor-api"), ("version", .text "0.1.0"),
    ("active_exams", .nat h.activeExams),
    ("dependencies", .object [("exam_store", h.records.toJson "Exam store"),
      ("lives_store", h.lives.toJson "Lives store")])]

end Health

/-- Looks at everything the service depends on. -/
def health : Call σ Health := do
  let records ← recordsPulse
  let lives ← livesPulse
  pure { records, lives, activeExams := (← service).hall.registry.active.length }

end Invigilator.Service
