import Invigilator.Lives.Ledger
import Invigilator.Json.Text

/-!
# Lives in Redis

The store for lives over a Redis server: the commands it sends, and how it reads the replies.
The server is an argument, a function on its own state, so the same store runs over any model
of one. A record that cannot be read counts as none.
-/

namespace Invigilator.Redis

/-- A command as it is sent. -/
abbrev Command := List String

/-- What a server replies. -/
inductive Reply where
  | nil
  | status
  | bulk (text : String)
  | integer (n : Int)
  | error (text : String)
deriving DecidableEq, Repr, Inhabited

/-- A server: what it replies to a command, and its state afterwards. -/
abbrev Server (σ : Type) := Command → σ → Reply × σ

/-- The key of a record on the server. -/
def recordKey (key : String) : String := "lives:" ++ key

/-- The text of a record on the server. -/
def payload (state : LivesState) : String := state.toJson.write

/-- The command that writes a record; a time to live is at least a second. -/
def setCommand (key : String) (state : LivesState) (ttl : Option Nat) : Command :=
  ["SET", recordKey key, payload state] ++
    match ttl with
    | none => []
    | some seconds => ["EX", Decimal.text (max seconds 1)]

variable {σ : Type} (server : Server σ)

/-- Sends a command and reads the reply; a reply that cannot be read fails in a context. -/
def ask (context : String) (command : Command) (read : Reply → Option α) : Attempt σ α := fun s =>
  match server command s with
  | (.error text, s) => ((.error ((BackendFault.plain text).within context), s), [])
  | (reply, s) =>
    match read reply with
    | some x => ((.ok x, s), [])
    | none => ((.error ((BackendFault.plain "unexpected reply").within context), s), [])

def readText? : Reply → Option (Option String)
  | .nil => some none
  | .bulk text => some (some text)
  | _ => none

def readExists? : Reply → Option Bool
  | .integer n => some (0 < n)
  | _ => none

def readDone? : Reply → Option Unit
  | .status => some ()
  | _ => none

/-- The state that a record's text stands for. -/
def readState? (text : String) : Option LivesState := (Json.read? text).bind LivesState.ofJson?

/-- Reads a record. -/
def get (key : String) : Attempt σ (Option LivesState) := do
  let text ← Attempt.tracked "redis" "get"
    (ask server "Failed to read lives from Redis" ["GET", recordKey key] readText?)
  match text with
  | none => pure none
  | some text =>
    match readState? text with
    | some state => pure (some state)
    | none => do
      Attempt.note [.warn ("Discarding corrupt lives record for " ++ key)]
      pure none

/-- The Redis server as a store for lives. -/
def store : LivesStore σ where
  get := get server
  put key state ttl := Attempt.tracked "redis" "set"
    (ask server "Failed to save lives to Redis" (setCommand key state ttl) readDone?)
  has key := ask server "Failed to check lives key in Redis" ["EXISTS", recordKey key] readExists?

/-- Asks whether the server is there. -/
def ping : Attempt σ Unit := ask server "Redis PING failed" ["PING"] readDone?

/-! ## A server in memory -/

/-- A server that keeps texts for ever, and the commands it has received, latest first. -/
structure Keeper where
  data : List (String × String)
  available : Bool
  received : List Command
deriving DecidableEq, Repr, Inhabited

/-- The server with a text under a key. -/
def Keeper.set (k : Keeper) (key text : String) : Keeper :=
  { k with data := (key, text) :: k.data.filter fun r => r.1 != key }

/-- What the server does with a command. -/
def Keeper.answer (command : Command) (k : Keeper) : Reply × Keeper :=
  let k := { k with received := command :: k.received }
  if !k.available then (.error "server is switched off", k)
  else
    match command with
    | ["PING"] => (.status, k)
    | ["GET", key] =>
      match k.data.lookup key with
      | some text => (.bulk text, k)
      | none => (.nil, k)
    | ["EXISTS", key] => (.integer (if (k.data.lookup key).isSome then 1 else 0), k)
    | "SET" :: key :: text :: _ => (.status, k.set key text)
    | _ => (.error "unknown command", k)

end Invigilator.Redis
