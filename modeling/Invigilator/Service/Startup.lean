import Invigilator.Lives.Redis
import Invigilator.Service.State

/-!
# Start-up

What a service is opened with: a store for practice lives, in memory or on a Redis server that
must answer, and the catalog of the configured file. The first thing that is not there ends the
start-up.
-/

namespace Invigilator

namespace PracticeStore

/-- Practice lives in memory. -/
def inMemory : PracticeStore Shelf := ⟨Shelf.store, Shelf.guarded (Attempt.done ())⟩

/-- Practice lives on a Redis server. -/
def onRedis {σ : Type} (server : Redis.Server σ) : PracticeStore σ :=
  ⟨Redis.store server, Redis.ping server⟩

end PracticeStore

namespace Startup

variable {σ : Type}

/-- The catalog in a file; `files` gives the texts of those there are. -/
def catalogAt (files : String → Option String) (path : String) : Attempt σ Catalog :=
  match files path with
  | none => .fail (Catalog.unreadable path)
  | some text => do
    let (catalog, notes) := Catalog.load path text
    Attempt.note notes
    match catalog with
    | .ok catalog => pure catalog
    | .error fault => .fail fault

/-- Looks whether the Redis server is there. -/
def connect (server : Redis.Server σ) : Attempt σ Unit := do
  Attempt.note [.info "Attempting to connect to Redis..."]
  Redis.ping server
  Attempt.note [.info "Redis connection established successfully"]

/-- Looks whether the server is there, and loads the catalog of a configuration. -/
def prepare (server : Redis.Server σ) (files : String → Option String) (config : Config) :
    Attempt σ Catalog := do
  connect server
  match config.catalogPath with
  | none => pure []
  | some path => catalogAt files path

end Startup

end Invigilator
