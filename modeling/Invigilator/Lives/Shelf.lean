import Invigilator.Lives.Ledger

/-!
# The shelf

A store for lives in memory. It keeps records for ever, whatever time they were given: a record
that has outlived its time reads the same as a fresh one. It can be switched off, and then
every call fails and changes nothing.
-/

namespace Invigilator

/-- A write to the shelf. -/
structure Put where
  key : String
  state : LivesState
  ttl : Option Nat
deriving DecidableEq, Repr, Inhabited

def Put.toJson (p : Put) : Json :=
  .object [("put", .text p.key), ("state", p.state.toJson), ("ttl", .option .nat p.ttl)]

structure Shelf where
  records : List (String × LivesState)
  available : Bool
  /-- The writes so far, latest first. -/
  puts : List Put
deriving DecidableEq, Repr, Inhabited

namespace Shelf

def empty : Shelf := ⟨[], true, []⟩

/-- The record under a key. -/
def find? (s : Shelf) (key : String) : Option LivesState := s.records.lookup key

/-- The shelf with a record under a key. -/
def set (s : Shelf) (key : String) (state : LivesState) : Shelf :=
  { s with records := (key, state) :: s.records.filter fun r => r.1 != key }

/-- What a shelf that is switched off says. -/
def unavailable : BackendFault := .plain "lives store is unavailable"

/-- A call that fails when the shelf is switched off. -/
def guarded (call : Attempt Shelf α) : Attempt Shelf α := fun s =>
  if s.available then call s else ((.error unavailable, s), [])

/-- The shelf as a store for lives. -/
def store : LivesStore Shelf where
  get key := guarded fun s => ((.ok (s.find? key), s), [])
  put key state ttl := guarded fun s =>
    ((.ok (), { s.set key state with puts := ⟨key, state, ttl⟩ :: s.puts }), [])
  has key := guarded fun s => ((.ok (s.find? key).isSome, s), [])

end Shelf

end Invigilator
