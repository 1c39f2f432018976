import CecRelay.Event
import CecRelay.Text.Blank
import CecRelay.Text.LineStream
import CecRelay.Text.Search

/-!
# Power signals of the login manager

A monitor prints each signal on the system bus as a header that names its member, and its arguments
on lines after it. Two members matter: one announces sleep, the other shutdown, and each has one
truth value. Every line is of one kind (`LineKind`); a truth value makes an event when the last line
before it that is no noise is a header of one of the two members.
-/

namespace CecRelay.Power

/-- The members that matter. -/
inductive Member
  /-- The machine prepares for sleep, or has woken up. -/
  | sleep
  /-- The machine prepares for shutdown, or has given it up. -/
  | shutdown
  deriving DecidableEq, Repr

/-- What a line is for the reader. -/
inductive LineKind
  /-- A header, of one of the two members or of another. -/
  | header (m : Option Member)
  /-- A truth value. -/
  | boolean (b : Bool)
  /-- Anything else. -/
  | noise
  deriving DecidableEq, Repr

/-- The mark of the sleep member in a header. -/
def sleepMark : List Char := "member=PrepareForSleep".toList

/-- The mark of the shutdown member in a header. -/
def shutdownMark : List Char := "member=PrepareForShutdown".toList

/-- The truth value that a text spells. -/
def truth? (s : List Char) : Option Bool :=
  if s = "true".toList then some true else if s = "false".toList then some false else none

/-- The text starts with `lead`. -/
def leads (lead : String) (s : List Char) : Bool := (Text.afterLead? lead.toList s).isSome

/-- The kind of a line whose ends have been trimmed. -/
def kindOfTrimmed (line : List Char) : LineKind :=
  if Text.holds sleepMark line then .header (some .sleep)
  else if Text.holds shutdownMark line then .header (some .shutdown)
  else if leads "signal " line || leads "method " line then .header none
  else match Text.afterLead? "boolean ".toList line with
    | some rest => ((truth? (Text.trim rest)).map LineKind.boolean).getD .noise
    | none => .noise

/-- The kind of a line. -/
def lineKind (line : List Char) : LineKind := kindOfTrimmed (Text.trim line)

/-- The event of a member and its truth value. -/
def signalEvent : Member → Bool → PowerEvent
  | .sleep, true => ⟨.sleep, true⟩
  | .sleep, false => ⟨.resume, false⟩
  | .shutdown, b => ⟨.shutdown, b⟩

/-- The member whose truth value is awaited, after a line, and the event of the line. -/
def feedKind (awaited : Option Member) : LineKind → Option Member × Option PowerEvent
  | .header m => (m, none)
  | .boolean b => (none, awaited.map fun m => signalEvent m b)
  | .noise => (awaited, none)

/-- `feedKind` on a line of text. -/
def feed (awaited : Option Member) (line : List Char) : Option Member × Option PowerEvent :=
  feedKind awaited (lineKind line)

/-- What each line gives, read from the first on. -/
def feedAll : Option Member → List (List Char) → List (Option PowerEvent)
  | _, [] => []
  | awaited, line :: rest =>
    let (awaited, e) := feed awaited line
    e :: feedAll awaited rest

/-- The events in a monitor's output. -/
def eventsOf (stream : Bytes) : List PowerEvent :=
  (feedAll none (LineStream.textLines stream)).filterMap id

end CecRelay.Power
