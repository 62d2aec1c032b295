import Invigilator.Exam.Snapshot

/-!
# The registry

Which sittings are running, and the final snapshots of those that ended most recently. A
sitting that ends is filed first and released then, so at no moment is it in neither place. A
user has at most one sitting that runs.
-/

namespace Invigilator

/-! ## The archive -/

/-- Final snapshots by session, and the sessions in the order in which they entered. -/
structure Archive where
  capacity : Nat
  entries : List (String × Snapshot)
  order : List String
deriving DecidableEq, Repr, Inhabited

namespace Archive

/-- An empty archive; it always has room for one. -/
def new (capacity : Nat) : Archive := ⟨max capacity 1, [], []⟩

/-- The snapshot of a session. -/
def find? (a : Archive) (id : String) : Option Snapshot := a.entries.lookup id

def size (a : Archive) : Nat := a.entries.length

/-- Puts a snapshot in the place of the session's earlier one, or behind all others. -/
def place (id : String) (snapshot : Snapshot) :
    List (String × Snapshot) → List (String × Snapshot)
  | [] => [(id, snapshot)]
  | e :: rest => if e.1 = id then (id, snapshot) :: rest else e :: place id snapshot rest

/-- Takes the snapshot of a session out. -/
def remove (id : String) (entries : List (String × Snapshot)) : List (String × Snapshot) :=
  entries.filter fun e => e.1 != id

/-- The sessions that entered first leave, until there is room for those that stay. -/
def makeRoom (capacity : Nat) :
    List String → List (String × Snapshot) → List String × List (String × Snapshot)
  | [], entries => ([], entries)
  | oldest :: order, entries =>
    if capacity < (oldest :: order).length then makeRoom capacity order (remove oldest entries)
    else (oldest :: order, entries)

/-- Files a snapshot. A session that is not in the archive enters behind all others. -/
def insert (a : Archive) (id : String) (snapshot : Snapshot) : Archive :=
  let order := if (a.find? id).isNone then a.order ++ [id] else a.order
  let room := makeRoom a.capacity order (place id snapshot a.entries)
  { a with order := room.1, entries := room.2 }

end Archive

/-! ## The registry -/

/-- A running sitting of a user, with what its holder keeps for it. -/
structure Running (α : Type) where
  sessionId : String
  userId : String
  value : α
deriving Repr

structure Registry (α : Type) where
  active : List (Running α)
  archive : Archive

namespace Registry

variable {α : Type}

def new (capacity : Nat) : Registry α := ⟨[], .new capacity⟩

/-- The running sitting of a session. -/
def find? (r : Registry α) (sessionId : String) : Option (Running α) :=
  r.active.find? fun s => s.sessionId == sessionId

/-- The session that a user is sitting. -/
def sessionOf? (r : Registry α) (userId : String) : Option String :=
  (r.active.find? fun s => s.userId == userId).map Running.sessionId

/-- Adds a running sitting, unless its user has one; then the session of that one is given. -/
def launch (r : Registry α) (s : Running α) : Except String (Registry α) :=
  match r.sessionOf? s.userId with
  | some existing => .error existing
  | none => .ok { r with active := r.active ++ [s] }

/-- Files the final snapshot of a session. -/
def file (r : Registry α) (sessionId : String) (snapshot : Snapshot) : Registry α :=
  { r with archive := r.archive.insert sessionId snapshot }

/-- Takes a session from the running ones. -/
def release (r : Registry α) (sessionId : String) : Registry α :=
  { r with active := r.active.filter fun s => s.sessionId != sessionId }

/-- Ends a sitting: its snapshot is filed, then it is released. -/
def retire (r : Registry α) (sessionId : String) (snapshot : Snapshot) : Registry α :=
  (r.file sessionId snapshot).release sessionId

/-- Changes what is kept for a running sitting. -/
def update (r : Registry α) (sessionId : String) (value : α) : Registry α :=
  { r with
    active := r.active.map fun s => if s.sessionId = sessionId then { s with value } else s }

end Registry

end Invigilator
