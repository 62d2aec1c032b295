import Invigilator.Lives.Shelf
import Invigilator.Service.Courier
import Invigilator.Service.Registry
import Invigilator.Service.Relay
import Invigilator.Service.Source
import Invigilator.Sitting.Step

/-!
# The hall

All sittings together: those that run, each with its scribe and its subscribers, the records
they are written to, and the time. Time stands still while an event is dealt with; `advance`
moves it on and lets clocks tick, grace periods end and failed writes be tried again, in the
order of their times.

What the service draws from chance is a source of numbered draws, so a hall is a function of
it.
-/

namespace Invigilator

/-- A running sitting with the store of its lives and the time of its next tick. -/
structure Seat where
  sitting : Sitting
  rules : LedgerRules
  lives : Shelf
  /-- The clock that the lives go by, where it is not the calendar. -/
  livesTime : Option Stamp
  tick : Nat
  nextTick : Instant
deriving Repr

structure Hall where
  /-- Milliseconds since the hall was opened. -/
  now : Instant
  /-- When the hall was opened. -/
  opened : Stamp
  source : Source
  /-- How many draws were taken from the source. -/
  drawn : Nat
  registry : Registry Seat
  courier : Courier
  /-- The scribe of every session. -/
  scribes : List (String × Scribe)
  /-- The subscriptions, in the order they were made. -/
  relays : List Relay
  /-- What was published so far, latest first. -/
  published : List Event
  /-- What was noted so far, latest first. -/
  notes : List Note

namespace Hall

/-- An empty hall. -/
def new (opened : Stamp) (source : Source) (archiveCapacity : Nat) : Hall :=
  { now := 0, opened, source, drawn := 0, registry := .new archiveCapacity, courier := .new,
    scribes := [], relays := [], published := [], notes := [] }

/-- The calendar time. Later draws are later, also within a millisecond. -/
def time (h : Hall) : Stamp := h.opened.later (h.now * nanosPerMilli + h.drawn)

/-- The hall after a draw. -/
def draw (h : Hall) : Hall := { h with drawn := h.drawn + 1 }

/-- Takes notes. -/
def jot (h : Hall) (notes : List Note) : Hall := { h with notes := notes.reverse ++ h.notes }

/-! ## Scribes -/

/-- The scribe of a session. -/
def scribe (h : Hall) (id : String) : Scribe := (h.scribes.lookup id).getD .idle

/-- The hall with a scribe in place of the session's earlier one. -/
def putScribe (h : Hall) (id : String) (s : Scribe) : Hall :=
  { h with scribes := (id, s) :: h.scribes.filter fun e => e.1 != id }

/-- Lets the scribe of a session work. -/
def work (h : Hall) (id : String) : Hall :=
  let ((s, courier), notes) :=
    (h.scribe id).work h.courier h.now h.time (h.source.jitter h.drawn)
  let h := ({ h with courier := courier } : Hall).draw.jot notes
  if s = .idle then { h with scribes := h.scribes.filter fun e => e.1 != id } else h.putScribe id s

/-- Hands a write to the scribe of a session. -/
def hand (h : Hall) (id : String) (w : RecordWrite) : Hall :=
  let s := h.scribe id
  if s.stopped then h.jot [.warn ("Exam store writer stopped: session=" ++ id)]
  else h.putScribe id (s.hand w)

/-! ## Subscribers -/

/-- Applies a function to the subscriptions of a session, and lets the eager ones read. -/
def onRelays (h : Hall) (id : String) (f : Relay → Relay) : Hall :=
  let results := h.relays.map fun r =>
    if r.sessionId = id then (f r).readIfEager else (r, [])
  ({ h with relays := results.map Prod.fst } : Hall).jot (results.flatMap Prod.snd)

/-- Publishes an event of a session. -/
def publish (h : Hall) (id : String) (e : Event) : Hall :=
  ({ h with published := e :: h.published } : Hall).onRelays id (·.receive e)

/-- Ends the connection to a session that is over. -/
def disconnect (h : Hall) (id : String) : Hall :=
  h.onRelays id fun r => { r with connected := false }

/-- Subscribes to a session; gives the number of the subscription. -/
def subscribe (h : Hall) (id : String) (eager : Bool) : Nat × Hall :=
  (h.relays.length,
    ({ h with relays := h.relays ++ [.subscribe id eager] } : Hall).jot [.move .streamsActive 1])

/-- Changes one subscription. -/
def onRelay (h : Hall) (number : Nat) (f : Relay → Relay × List Note) : Hall :=
  match h.relays[number]? with
  | none => h
  | some r =>
    let (r, notes) := f r
    ({ h with relays := h.relays.set number r } : Hall).jot notes

/-- A subscriber starts to read, and from then on reads at once what comes. -/
def follow (h : Hall) (number : Nat) : Hall :=
  h.onRelay number fun r => ({ r with eager := true } : Relay).read

/-- A subscriber goes away. -/
def leave (h : Hall) (number : Nat) : Hall := h.onRelay number Relay.leave

/-- Takes the events that a subscriber has read; also says whether the stream has ended. -/
def collect (h : Hall) (number : Nat) : (List Event × Bool) × Hall :=
  match h.relays[number]? with
  | none => (([], true), h)
  | some r =>
    let (events, r) := r.collect
    ((events, r.closed), { h with relays := h.relays.set number r })

/-! ## Events of sittings -/

/-- Carries out an action of a sitting. -/
def perform (h : Hall) (id : String) : Action → Hall
  | .publish e => h.publish id e
  | .write w => h.hand id w
  | .note n => h.jot [n]

/-- What surrounds an event at a seat. -/
def scene (h : Hall) (seat : Seat) : Scene :=
  { now := h.now, time := h.time, looked := seat.livesTime.getD h.time,
    lost := seat.livesTime.getD h.time, violationId := h.source.violationId h.drawn }

/-- The ledger of a seat. -/
def ledger (seat : Seat) : LivesLedger Shelf := ⟨Shelf.store, seat.rules⟩

/-- A seat after a turn of its sitting. A sitting that is over is retired. -/
def settle (h : Hall) (id : String) (seat : Seat) (state : Sitting × Shelf)
    (actions : List Action) : Hall :=
  let h := actions.foldl (fun h a => h.perform id a) h.draw
  let seat := { seat with sitting := state.1, lives := state.2 }
  let h :=
    if state.1.isRunning then { h with registry := h.registry.update id seat }
    else
      ({ h with registry := h.registry.retire id state.1.snapshot } : Hall).disconnect id
  h.work id

/-- Something happens to a session; the answer, unless the session is not running. -/
def tell (h : Hall) (id : String) (stimulus : Stimulus) : Option Reply × Hall :=
  match h.registry.find? id with
  | none => (none, h)
  | some running =>
    let seat := running.value
    let ((reply, state), actions) :=
      (Turn.step (ledger seat) (h.scene seat) stimulus).run (seat.sitting, seat.lives)
    (some reply, h.settle id seat state actions)

/-- Seats an armed sitting, unless its user sits another; then that session is given. -/
def launch (h : Hall) (seat : Seat) : Except String Hall :=
  let s := seat.sitting.session
  match h.registry.launch ⟨s.id, s.userId, seat⟩ with
  | .error existing => .error existing
  | .ok registry =>
    let ((_, state), actions) :=
      (Turn.begin : Turn Shelf Unit).run (seat.sitting, seat.lives)
    .ok (({ h with registry := registry } : Hall).settle s.id seat state actions)

/-- Shuts every session down. -/
def shutdown (h : Hall) : Hall :=
  let ids := h.registry.active.map Running.sessionId
  if ids.isEmpty then h
  else
    let h := h.jot [.info ("Stopping " ++ Decimal.text ids.length ++ " running exam sessions")]
    ids.foldl
      (fun h id => (h.tell id .shutdown).2.jot [.debug ("Exam session " ++ id ++ " stopped")]) h

/-! ## Time -/

/-- Something that is due at a time. -/
inductive Due where
  | tick (id : String)
  | grace (id : String)
  | errand (id : String)
deriving DecidableEq, Repr

/-- What is due at a seat. -/
def duesOf (s : Running Seat) : List (Instant × Due) :=
  let tick : List (Instant × Due) :=
    if s.value.sitting.timer.isRunning then [(s.value.nextTick, .tick s.sessionId)] else []
  match s.value.sitting.grace with
  | none => tick
  | some timer => (timer.deadline, .grace s.sessionId) :: tick

/-- Everything that is due at some time. -/
def dues (h : Hall) : List (Instant × Due) :=
  h.registry.active.flatMap duesOf ++
    h.scribes.filterMap fun (id, s) => s.due?.map fun t => (t, .errand id)

/-- The earlier of two things. -/
def sooner (a b : Instant × Due) : Instant × Due := if b.1 < a.1 then b else a

/-- What is due next. -/
def nextDue? (h : Hall) : Option (Instant × Due) :=
  match h.dues with
  | [] => none
  | d :: rest => some (rest.foldl sooner d)

/-- Moves the next tick of a session on. -/
def moveTick (h : Hall) (id : String) : Hall :=
  match h.registry.find? id with
  | none => h
  | some running =>
    let seat := running.value
    { h with
      registry := h.registry.update id { seat with nextTick := seat.nextTick + max seat.tick 1 } }

/-- Lets happen what is due. -/
def fire (h : Hall) : Due → Hall
  | .tick id => ((h.moveTick id).tell id .tick).2
  | .grace id => (h.tell id .graceElapsed).2
  | .errand id => h.work id

/-- Moves time on to a moment; `fuel` bounds what happens until then. -/
def advanceFor : (fuel : Nat) → Hall → (target : Instant) → Hall
  | 0, h, target => { h with now := target }
  | fuel + 1, h, target =>
    match h.nextDue? with
    | none => { h with now := target }
    | some (t, due) =>
      if t ≤ target then advanceFor fuel (({ h with now := max h.now t } : Hall).fire due) target
      else { h with now := target }

/-- A bound on what can happen in a span: each seat ticks at most once a millisecond and ends
at most one grace period, and no write is tried more than seven times. -/
def eventBound (h : Hall) (ms : Nat) : Nat :=
  let seats := h.registry.active.length
  let writes := (h.scribes.map fun e => e.2.queue.length + 1).foldl (· + ·) 0
  (ms + 2) * (seats + 1) + 8 * (writes + 8 * (seats + 1))

/-- Moves time on by a span of milliseconds. What is due at its end still happens. -/
def advance (h : Hall) (ms : Nat) : Hall := advanceFor (h.eventBound ms) h (h.now + ms)

end Hall

end Invigilator
