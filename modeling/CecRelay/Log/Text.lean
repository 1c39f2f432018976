import CecRelay.Log.Record
import CecRelay.Text.Quoted

/-!
# Records as lines
-/

namespace CecRelay.Log

/-- The name of a level. -/
def Level.name : Level → String
  | .error => "ERROR"
  | .warn => "WARN"
  | .info => "INFO"
  | .debug => "DEBUG"
  | .trace => "TRACE"

/-- A value in a line. -/
def Value.line : Value → String
  | .text s => Text.quoted s
  | .flag b => if b then "true" else "false"
  | .number n => toString n

/-- A value as JSON. -/
def Value.json : Value → Json.Value
  | .text s => .text s
  | .flag b => .bool b
  | .number n => .number (.nat n)

/-- A record as a line of text. -/
def Record.line (r : Record) : String :=
  r.level.name ++ " " ++ r.message ++
    String.join (r.fields.map fun (name, value) => " " ++ name ++ "=" ++ value.line)

/-- A record as JSON. -/
def Record.json (r : Record) : Json.Value :=
  .record ([("level", .text r.level.name), ("message", .text r.message)] ++
    r.fields.map fun (name, value) => (name, value.json))

/-- A warning as a record. -/
def Record.ofWarning (w : Warning) : Record :=
  ⟨.warn, w.message, w.fields.map fun (name, value) => (name, .text value)⟩

end CecRelay.Log
