import CecRelay.Error
import CecRelay.Event
import CecRelay.Queue.Lines
import CecRelay.Time.Stamp

/-!
# Events in storage

An event is stored in an envelope that tells its number, its type, its contents and the time it was
put there. An envelope is one line of JSON. Reading one does not look at its contents; `event?`
does, by the rules of the type.
-/

namespace CecRelay

/-- A stored event. -/
structure Envelope where
  /-- The number the log has given. -/
  seq : UInt64
  /-- The type of the event. -/
  tag : String
  /-- The contents. -/
  payload : Json.Value
  /-- When the event was stored. -/
  storedAt : Time.Stamp

namespace Envelope

/-- The names of the members. -/
def members : List String := ["seq", "type", "payload", "enqueued_at"]

/-- The envelope of an event. -/
def ofEvent (seq : UInt64) (now : Time.Stamp) (e : Event) : Envelope :=
  ⟨seq, e.tag, e.json, now⟩

/-- The envelope in a document. -/
def ofDoc? (doc : Json.Doc) : Option Envelope := do
  match ← Shape.members? members doc with
  | [seq, tag, payload, time] =>
    let seq ← Shape.nat? 0xFFFFFFFFFFFFFFFF seq
    let tag ← Shape.text? tag
    let payload ← Json.Value.ofDoc? (Json.maxDepth - 1) payload
    let time ← Time.Stamp.ofString? (← Shape.text? time)
    return ⟨UInt64.ofNat seq, tag, payload, time⟩
  | _ => none

/-- The envelope in the bytes. -/
def ofBytes? (bytes : Bytes) : Option Envelope := (Json.Doc.ofBytes? bytes).bind ofDoc?

/-- The envelope as a line of JSON, without the newline. -/
def print (e : Envelope) : String :=
  "\x7b\"seq\":" ++ toString e.seq ++ ",\"type\":" ++ Json.quoted e.tag ++
    ",\"payload\":" ++ e.payload.print ++
    ",\"enqueued_at\":" ++ Json.quoted e.storedAt.text ++ "\x7d"

/-- The event in an envelope. -/
def event? (e : Envelope) : Except RelayError Event :=
  if e.tag = Event.keyTag then
    match KeyPress.read? e.payload with
    | some k => .ok (.key k)
    | none => .error .malformedItem
  else if e.tag = Event.powerTag then
    match PowerEvent.read? e.payload with
    | some p => .ok (.power p)
    | none => .error .malformedItem
  else .error (.unknownItemType e.tag)

/-- The number and the event in a line of the log. -/
def decode? (line : Bytes) : Option (UInt64 × Event) := do
  let e ← ofBytes? line
  match e.event? with
  | .ok event => return (e.seq, event)
  | .error _ => none

/-- The line of an event, with its newline. -/
def line (seq : UInt64) (now : Time.Stamp) (e : Event) : Bytes :=
  Utf8.ofString (ofEvent seq now e).print ++ [newline]

end Envelope
end CecRelay
