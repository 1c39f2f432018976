import CecRelay.Json.Value

/-!
# Events

What the relay carries: presses of keys on a remote control, and transitions of the machine's power
state. Each has a form as a JSON record, which reads back as the same event (`KeyPress.json`,
`PowerEvent.json`, and `read?` beside them).
-/

namespace CecRelay

/-- A notification about a key. A press has no hold time; the release repeats the code with how long
the key was held. -/
structure KeyPress where
  /-- The code of the key on the bus. -/
  code : UInt8
  /-- How long the key was held, in milliseconds. -/
  holdMillis : UInt32
  deriving DecidableEq, Repr

/-- A kind of power transition. -/
inductive PowerKind
  /-- The relay has started. -/
  | on
  /-- The machine goes to sleep. -/
  | sleep
  /-- The machine has woken up. -/
  | resume
  /-- The machine shuts down. -/
  | shutdown
  deriving DecidableEq, Repr

/-- A power transition. -/
structure PowerEvent where
  /-- Its kind. -/
  kind : PowerKind
  /-- The transition is starting; otherwise it has ended. -/
  transitioning : Bool
  deriving DecidableEq, Repr

/-- The two streams in which events are handed out. -/
inductive Stream
  /-- The stream of keys. -/
  | keys
  /-- The stream of power transitions. -/
  | power
  deriving DecidableEq, Repr

/-- An event. -/
inductive Event
  /-- A key. -/
  | key (k : KeyPress)
  /-- A power transition. -/
  | power (p : PowerEvent)
  deriving DecidableEq, Repr

namespace KeyPress

/-- The press of a key. -/
def pressed (code : UInt8) : KeyPress := ⟨code, 0⟩

/-- The notification says that a key was let go. -/
def isRelease (k : KeyPress) : Bool := k.holdMillis != 0

/-- The names of the members. -/
def members : List String := ["code", "hold_duration_ms"]

/-- The record for a key. -/
def json (k : KeyPress) : Json.Value :=
  .record [("code", .number (.nat k.code.toNat)),
    ("hold_duration_ms", .number (.nat k.holdMillis.toNat))]

/-- The key in a document. -/
def read? {α : Type} [HasShape α] (a : α) : Option KeyPress := do
  match ← Shape.members? members a with
  | [code, hold] =>
    let code ← Shape.nat? 0xFF code
    let hold ← Shape.nat? 0xFFFFFFFF hold
    return ⟨UInt8.ofNat code, UInt32.ofNat hold⟩
  | _ => none

end KeyPress

namespace PowerKind

/-- The kinds by name. -/
def byName : List (String × PowerKind) :=
  [("on", .on), ("sleep", .sleep), ("resume", .resume), ("shutdown", .shutdown)]

/-- The name of a kind. -/
def name : PowerKind → String
  | .on => "on"
  | .sleep => "sleep"
  | .resume => "resume"
  | .shutdown => "shutdown"

/-- The kind in a document. -/
def read? {α : Type} [HasShape α] (a : α) : Option PowerKind := Shape.choice? byName a

theorem lookup_name (k : PowerKind) : byName.lookup k.name = some k := by
  cases k <;> rfl

end PowerKind

namespace PowerEvent

/-- The event wakes the devices; any other puts them in standby. -/
def wakes (p : PowerEvent) : Bool :=
  match p.kind with
  | .on | .resume => true
  | .sleep | .shutdown => false

/-- The names of the members. -/
def members : List String := ["kind", "transitioning"]

/-- The record for a power transition. -/
def json (p : PowerEvent) : Json.Value :=
  .record [("kind", .text p.kind.name), ("transitioning", .bool p.transitioning)]

/-- The power transition in a document. -/
def read? {α : Type} [HasShape α] (a : α) : Option PowerEvent := do
  match ← Shape.members? members a with
  | [kind, transitioning] =>
    let kind ← PowerKind.read? kind
    let transitioning ← Shape.bool? transitioning
    return ⟨kind, transitioning⟩
  | _ => none

end PowerEvent

namespace Event

/-- The tag of key events in storage. -/
def keyTag : String := "key"

/-- The tag of power events in storage. -/
def powerTag : String := "power"

/-- The stream an event belongs to. -/
def stream : Event → Stream
  | .key _ => .keys
  | .power _ => .power

/-- The tag an event is stored under. -/
def tag : Event → String
  | .key _ => keyTag
  | .power _ => powerTag

/-- The record for an event. -/
def json : Event → Json.Value
  | .key k => k.json
  | .power p => p.json

/-- The key, if the event is one. -/
def key? : Event → Option KeyPress
  | .key k => some k
  | .power _ => none

/-- The power transition, if the event is one. -/
def power? : Event → Option PowerEvent
  | .key _ => none
  | .power p => some p

end Event
end CecRelay
