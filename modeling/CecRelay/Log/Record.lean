import CecRelay.Config.Environment
import CecRelay.Dispatch.Stage
import CecRelay.Log.Filter

/-!
# What the relay writes to its log

Three records tell of a run as a whole: that the relay starts and with what, that it has stopped and
why, and that it has failed. The environment may say which records are written and in what form; if
it does not, the configuration does.
-/

namespace CecRelay.Log

/-- A value in a record. -/
inductive Value
  /-- A text. -/
  | text (s : String)
  /-- A truth value. -/
  | flag (b : Bool)
  /-- A number. -/
  | number (n : Nat)
  deriving DecidableEq, Repr

/-- A record. -/
structure Record where
  /-- Its level. -/
  level : Level
  /-- What has happened. -/
  message : String
  /-- Its other fields, in order. -/
  fields : List (String × Value)
  deriving DecidableEq, Repr

/-- Addresses in a record. -/
def listText (addresses : List UInt8) : String :=
  "[" ++ String.intercalate ", " (addresses.map toString) ++ "]"

namespace Record

/-- The relay starts. -/
def starting (c : Config) (queueDir : String) (fresh : Bool) : Record where
  level := .info
  message := "Starting cec-controller"
  fields :=
    [("adapter", .text c.adapter.port),
     ("device_name", .text c.adapter.name),
     ("devices", .text (listText c.power.devices)),
     ("power_events", .flag c.power.active),
     ("restart_budget", .number c.budget.toNat),
     ("queue_dir", .text queueDir),
     ("fresh_lineage", .flag fresh)]

/-- The name of a way out in a record. -/
def exitName : Exit → String
  | .shutdown => "Shutdown"
  | .restarted => "Restarted"
  | .drained => "Drained"

/-- The relay has stopped. -/
def stopped (e : Exit) : Record :=
  ⟨.info, "cec-controller stopped", [("exit", .text (exitName e))]⟩

/-- The relay has failed. -/
def failed (cause : RelayError) : Record :=
  ⟨.error, "cec-controller failed", [("error", .text cause.message)]⟩

end Record

/-- The source of the relay's records. -/
def source : String := "cec_controller"

/-- The variable with a filter. -/
def filterVariable : String := "RUST_LOG"

/-- The variable with the form of the log. -/
def formatVariable : String := "CEC_LOG_FORMAT"

/-- The filter that the configuration asks for. -/
def configuredFilter (c : LogConfig) (debug : Bool) : String :=
  let level := Text.trimmed c.level
  if debug then "debug" else if level = "" then "info" else level

/-- The filter of a run. One in the environment wins, unless there is a mistake in it. None when
reading it breaks the program off. -/
def filterOf? (c : LogConfig) (debug : Bool) (env : Environment) : Option Filter :=
  match (env filterVariable).map Filter.strict with
  | some (.ok f) => some f
  | some (.error .broken) => none
  | some (.error .mistake) | none => Filter.lenient? (configuredFilter c debug)

/-- The names of a record's fields. -/
def Record.fieldNames (r : Record) : List String := "message" :: r.fields.map (·.1)

/-- A filter lets a record through. -/
def Filter.passes (f : Filter) (r : Record) : Bool := f.admits source r.fieldNames r.level

/-- Records are written as JSON. -/
def isJson (c : LogConfig) (env : Environment) : Bool :=
  c.json || (env formatVariable).any (·.toLower == "json")

end CecRelay.Log
