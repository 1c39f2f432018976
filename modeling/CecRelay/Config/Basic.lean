import CecRelay.Keymap.Injector
import CecRelay.Time.Span

/-!
# Configuration

What the relay can be told, section by section, with what holds when nothing is said. The file, the
environment and the command line change it one after the other.
-/

namespace CecRelay

/-- The adapter and its link. -/
structure AdapterConfig where
  /-- The port; empty to find the adapter by itself. -/
  port : String := ""
  /-- The name shown on the bus; empty for the host's. -/
  name : String := ""
  /-- The attempts to open the adapter again; zero for the default. -/
  retries : UInt32 := 5
  /-- The pause between two attempts. -/
  delay : Time.Span := .ofMillis 500
  /-- The program that drives the adapter. -/
  client : String := "cec-client"
  deriving DecidableEq, Repr

/-- Power events. -/
structure PowerConfig where
  /-- They are handled. -/
  enabled : Bool := true
  /-- The devices, in order. -/
  devices : List UInt8 := [0]
  /-- The devices are woken when the relay starts. -/
  wakeAtStart : Bool := true
  deriving DecidableEq, Repr

/-- The queue. -/
structure QueueConfig where
  /-- Its folder; none for a new one. -/
  dir : Option String := none
  /-- The length of its lanes. -/
  capacity : Nat := 10
  /-- The longest wait of its pump. -/
  poll : Time.Span := .ofMillis 50
  deriving DecidableEq, Repr

/-- Key strokes. -/
structure KeymapConfig where
  /-- The overrides of the key table. -/
  overrides : NameTable Stroke := []
  /-- How strokes are made. -/
  injector : InjectorKind := .auto
  deriving DecidableEq, Repr

/-- The log that the relay writes. -/
structure LogConfig where
  /-- The least level that is written. -/
  level : String := "info"
  /-- Records are written as JSON. -/
  json : Bool := false
  deriving DecidableEq, Repr

/-- A configuration. -/
structure Config where
  /-- The adapter and its link. -/
  adapter : AdapterConfig := {}
  /-- Power events. -/
  power : PowerConfig := {}
  /-- The queue. -/
  queue : QueueConfig := {}
  /-- The restarts allowed. -/
  budget : UInt32 := 3
  /-- Key strokes. -/
  keymap : KeymapConfig := {}
  /-- The log. -/
  log : LogConfig := {}
  deriving DecidableEq, Repr

/-- The attempts to open the adapter that are really made. -/
def AdapterConfig.effectiveRetries (c : AdapterConfig) : UInt32 :=
  if c.retries = 0 then 5 else c.retries

/-- Power events are handled, and there is a device. -/
def PowerConfig.active (c : PowerConfig) : Bool := c.enabled && !c.devices.isEmpty

end CecRelay
