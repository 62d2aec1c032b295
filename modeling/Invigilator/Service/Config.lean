import Invigilator.Exam.Settings
import Invigilator.Journal.Note
import Invigilator.Service.Setting

/-!
# Configuration

How the service is set up by its environment. A setting wins over a variable of an older name,
and that over the default. Numbers are read from text, where a word for yes or no counts as one
or zero. The exam policy is a table, or a list of its fields in order.
-/

namespace Invigilator

structure Config where
  mongoUri : String
  redisUri : String
  mongoDatabase : String
  jwtSecret : String
  bindAddr : String
  catalogPath : Option String
  exam : Settings
deriving DecidableEq, Repr, Inhabited

/-- Why a configuration is refused. -/
inductive ConfigFault where
  /-- A value cannot be read. -/
  | unreadable
  /-- The exam policy cannot be used. -/
  | policy (refusal : Settings.Refusal)
  /-- There is no secret where one is needed. -/
  | secretMissing
deriving DecidableEq, Repr

namespace ConfigFault

/-- The text of a fault; a value that cannot be read has none of ours. -/
def message? : ConfigFault → Option String
  | unreadable => none
  | policy refusal => some refusal.message
  | secretMissing => some "JWT_SECRET must be set in production"

/-- The fault as a JSON value; one without a text of ours has no message. -/
def toJson (e : ConfigFault) : Json :=
  .object (("error", .text "ConfigError") :: e.message?.toList.map fun m => ("message", .text m))

end ConfigFault

namespace Config

/-- The text of a setting, or else of a variable of an older name. -/
def value? (env : Environs) (names : List String) (oldName : String) : Option String :=
  (((Setting.ofEnvirons env).find? names).bind Setting.text?).or (env.lookup oldName)

/-! ## Numbers -/

/-- Reads a number below a limit. -/
def number? (limit : Nat) (text : String) : Option Nat :=
  let word := String.ofList (text.toList.map Char.toLower)
  let n? : Option Nat :=
    if ["true", "on", "yes"].contains word then some 1
    else if ["false", "off", "no"].contains word then some 0
    else
      match text.toList with
      | '+' :: digits => Decimal.read? digits
      | digits => Decimal.read? digits
  n?.filter (· < limit)

/-- A number of the exam policy: the default if it is not set. -/
def examNumber? (limit default : Nat) : Option Setting → Option Nat
  | none => some default
  | some s => s.text?.bind (number? limit)

/-- What is set for the fields of the exam policy, in their order. -/
def examSlots? : Setting → Option (List (Option Setting))
  | .table entries => some (Settings.fields.map fun f => entries.lookup f.name)
  | .list items => some ((List.range Settings.fields.length).map fun i => items[i]?)
  | _ => none

/-- The exam policy of an environment. -/
def exam? (env : Environs) : Option Settings :=
  match (Setting.ofEnvirons env).find? ["exam"] with
  | none => some .standard
  | some exam => do
    match ← examSlots? exam with
    | [duration, unlock, grace, lives, restore, tick, critical, archive] => do
      let d := Settings.standard
      let word := Nat.pow 2 64
      let durationSeconds ← examNumber? word d.durationSeconds duration
      let submitUnlockSeconds ← examNumber? word d.submitUnlockSeconds unlock
      let gracePeriodSeconds ← examNumber? word d.gracePeriodSeconds grace
      let maxLives ← examNumber? (Nat.pow 2 8) d.maxLives lives
      let lifeRestoreSeconds ← examNumber? word d.lifeRestoreSeconds restore
      let tickIntervalMs ← examNumber? word d.tickIntervalMs tick
      let timeCriticalSeconds ← examNumber? word d.timeCriticalSeconds critical
      let archiveCapacity ← examNumber? word d.archiveCapacity archive
      some
        { durationSeconds := durationSeconds, submitUnlockSeconds, gracePeriodSeconds, maxLives,
          lifeRestoreSeconds, tickIntervalMs, timeCriticalSeconds, archiveCapacity }
    | _ => none

/-! ## The whole -/

/-- The address of the Redis server, put together from its parts if it is not given whole. -/
def redisAddress (env : Environs) : String :=
  match value? env ["redis", "uri"] "REDIS_URI" with
  | some uri => uri
  | none =>
    let host := (env.lookup "REDIS_HOST").getD "127.0.0.1"
    let port := (env.lookup "REDIS_PORT").getD "6379"
    match env.lookup "REDIS_PASSWORD" with
    | some password => "redis://:" ++ password ++ "@" ++ host ++ ":" ++ port ++ "/0"
    | none => "redis://" ++ host ++ ":" ++ port ++ "/0"

/-- The secret that signs tokens: in production there is no default. -/
def secret (env : Environs) : Except ConfigFault String × List Note :=
  match value? env ["auth", "jwt_secret"] "JWT_SECRET" with
  | some secret => (.ok secret, [])
  | none =>
    if env.lookup "APP_ENV" = some "prod" then (.error .secretMissing, [])
    else
      (.ok "dev-secret-only-for-local-testing",
        [.warn "Using default JWT_SECRET (dev mode only!)"])

/-- A policy that can be used. -/
def checkedExam (env : Environs) : Except ConfigFault Settings :=
  match exam? env with
  | none => .error .unreadable
  | some exam =>
    match exam.refusal? with
    | some refusal => .error (.policy refusal)
    | none => .ok exam

/-- The configuration of an environment. -/
def load (env : Environs) : Except ConfigFault Config × List Note :=
  match secret env with
  | (.error e, notes) => (.error e, notes)
  | (.ok jwtSecret, notes) =>
    match checkedExam env with
    | .error e => (.error e, notes)
    | .ok exam =>
      (.ok
        { mongoUri := (value? env ["database", "mongo_uri"] "MONGO_URI").getD
            "mongodb://localhost:27017"
          redisUri := redisAddress env
          mongoDatabase := (value? env ["database", "mongo_database"] "MONGO_DATABASE").getD "proctor"
          jwtSecret := jwtSecret
          bindAddr := (value? env ["server", "bind_addr"] "BIND_ADDR").getD "0.0.0.0:8081"
          catalogPath := value? env ["content", "catalog_path"] "EXAM_CATALOG_PATH"
          exam := exam },
        notes)

/-- The configuration as a JSON value, the exam policy with the spans that follow from it. -/
def describe (c : Config) : Json :=
  .object [("mongo_uri", .text c.mongoUri), ("redis_uri", .text c.redisUri),
    ("mongo_database", .text c.mongoDatabase), ("jwt_secret", .text c.jwtSecret),
    ("bind_addr", .text c.bindAddr), ("content_catalog_path", .option .text c.catalogPath),
    ("exam", c.exam.describe)]

end Config

end Invigilator
