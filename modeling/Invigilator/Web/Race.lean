import Invigilator.Web.Server

/-!
# Races

Starts of one user that come in at the same time, each of which has to wait for the answer to
the question whether the user may start. Whoever is answered first starts; the others find an
exam in progress, although there was none when they came in.
-/

namespace Invigilator.Web

variable {σ : Type}

/-- A start that waits for its answer. -/
structure Waiting where
  /-- Which of the requests it is. -/
  place : Nat
  due : Instant
  userId : String
  start : StartRequest
deriving DecidableEq, Repr, Inhabited

/-- A race under way: what was answered, by place, and what waits. -/
structure Race (σ : Type) where
  service : Service σ
  answered : List (Nat × Response)
  waiting : List Waiting
  /-- How long the next questions take to be answered, in milliseconds. -/
  delays : List Nat

namespace Race

/-- What a request comes to before it has to wait: the user and the start, or a response. -/
def enter (mac : Mac) (r : Request) : Call σ (String × StartRequest) := do
  match ← letIn mac r Route.start.guard with
  | .refused => .fail .unauthenticated
  | .caller caller =>
    let user := (caller.map Claims.sub).getD ""
    let start ← readStart r
    Service.checkFree user
    pure (user, start)

/-- A request is answered. -/
def reply (r : Request) (race : Race σ) (place : Nat) (response : Response)
    (s : Service σ) : Race σ :=
  let (response, s) := send r s response
  { race with service := s, answered := (place, response) :: race.answered }

/-- A request comes in. -/
def arrive (mac : Mac) (r : Request) (race : Race σ) (place : Nat) : Race σ :=
  match (enter mac r).run (receive race.service) with
  | (.error fault, s) =>
    let (response, s) := finish (Call.fail fault) s
    race.reply r place response s
  | (.ok (userId, start), s) =>
    let due := s.hall.now + race.delays.headD 0
    { race with
      service := s
      waiting := race.waiting ++ [{ place, due, userId, start }]
      delays := race.delays.drop 1 }

/-- A waiting start is answered, when time has come to that. -/
def resolve (r : Request) (race : Race σ) (w : Waiting) : Race σ :=
  let s := race.service
  let s := { s with hall := s.hall.advance (w.due - s.hall.now) }
  let (response, s) := finish (do pure (started (← Service.enrol w.userId w.start))) s
  race.reply r w.place response s

/-- Answers as many requests as there are delays; the responses are in the order of the requests. -/
def run (mac : Mac) (r : Request) (delays : List Nat) (s : Service σ) :
    List Response × Service σ :=
  let race : Race σ := ⟨s, [], [], delays⟩
  let race := (List.range delays.length).foldl (arrive mac r) race
  let race := (race.waiting.mergeSort fun a b => a.due ≤ b.due).foldl (resolve r) race
  let answered := race.answered.mergeSort fun a b => a.1 ≤ b.1
  (answered.map Prod.snd, race.service)

end Race

end Invigilator.Web
