import CecRelay.Adapter.Wire
import CecRelay.Dispatch.Launch
import CecRelay.Dispatch.Run
import CecRelay.Keymap.Table
import CecRelay.Power.Signal

/-!
# The relay between two streams of lines

The client, the monitor and the program that makes strokes may be started by somebody else and joined
to the relay by pipes. Then the relay reads lines, each from the client or the monitor, and writes
lines, each for the client or a stroke to be made. The two kinds differ in their first word.
-/

namespace CecRelay

/-- A relay between two streams of lines. -/
structure Console where
  /-- The relay. -/
  relay : Relay Wire
  /-- What the relay is given. -/
  settings : RelaySettings
  /-- The key table. -/
  table : KeyTable
  /-- The member of a power signal whose truth value is awaited. -/
  awaited : Option Power.Member := none

namespace Console

/-- What a line brings: a key, or a power event once its truth value has come. -/
def events (c : Console) (line : List Char) : List Event × Option Power.Member :=
  match KeyLine.read? line with
  | some k => ([.key k], c.awaited)
  | none =>
    let (awaited, e) := Power.feed c.awaited line
    (e.toList.map .power, awaited)

/-- The relay works until it has to wait. -/
def worked (c : Console) : Console :=
  { c with relay := c.relay.worked Wire.adapter c.settings }

/-- A line comes. -/
def getLine (c : Console) (now : Time.Stamp) (line : List Char) : Console :=
  let (events, awaited) := c.events line
  worked { c with relay := c.relay.stored now events, awaited := awaited }

/-- No more lines come: the relay is asked to stop. -/
def stop (c : Console) : Console := worked { c with relay := c.relay.asked }

/-- The lines to be written: those for the client, then the strokes. -/
def output (c : Console) : List String :=
  c.relay.hardware.port.inner ++
    (c.table.strokes c.relay.pressed).map fun stroke =>
      String.intercalate " " (Injector.arguments stroke)

/-- The console after its lines have been written. -/
def written (c : Console) : Console :=
  let h := c.relay.hardware
  { c with relay :=
    { c.relay with
      pressed := []
      hardware := { h with port := { h.port with inner := [] } } } }

end Console
end CecRelay
