import CecRelay.Error
import CecRelay.Power.Signal
import CecRelay.Text.Quoted

/-!
# The monitor of the system bus

Power signals are printed by a monitor, a program that runs beside the relay. `Monitor` reads what it
prints as it comes: it keeps the part of a line that has not ended and the member whose truth value
is awaited.
-/

namespace CecRelay.Power

/-- The program that prints the signals. -/
def monitorProgram : String := "dbus-monitor"

/-- The signals that are asked for: those of the login manager. -/
def monitorRule : String :=
  "type='signal',sender='org.freedesktop.login1',interface='org.freedesktop.login1.Manager'"

/-- The monitor's arguments. -/
def monitorArguments : List String := ["--system", monitorRule]

/-- The monitor cannot be started. -/
def cannotStart (program : String) (fault : Fault) : RelayError :=
  .cannotStartListener (Text.quoted program) fault

/-- The member whose truth value is awaited after lines. -/
def awaitedAfter (awaited : Option Member) (lines : List (List Char)) : Option Member :=
  lines.foldl (fun awaited line => (feed awaited line).1) awaited

/-- The reader of a monitor. -/
structure Monitor where
  /-- The reader of its lines. -/
  reader : LineStream.Reader := {}
  /-- The member whose truth value is awaited. -/
  awaited : Option Member := none
  deriving DecidableEq, Repr

/-- Reads on: the events that have come. -/
def Monitor.push (m : Monitor) (bytes : Bytes) : List PowerEvent × Monitor :=
  let (lines, reader) := m.reader.push bytes
  ((feedAll m.awaited lines).filterMap id, ⟨reader, awaitedAfter m.awaited lines⟩)

end CecRelay.Power
