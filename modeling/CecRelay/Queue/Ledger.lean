import CecRelay.Event

/-!
# The ledger of lines handed out

The queue hands out lines of its log in two streams, and they are received in an order that need not
be that of the log. The ledger holds the lines handed out and not yet settled, oldest first. A line
that could not be read counts as received. When the oldest lines have all been received they are
settled, and the offset behind the last of them is ready for the cursor.
-/

namespace CecRelay

/-- A line that has been handed out. -/
structure Slot where
  /-- The offset behind the line. -/
  stop : Nat
  /-- The stream it went to; none for a line that could not be read. -/
  stream : Option Stream
  /-- It has been received. -/
  received : Bool
  deriving DecidableEq, Repr

/-- The lines handed out and not yet settled. -/
structure Ledger where
  /-- The lines, oldest first. -/
  slots : List Slot := []
  /-- The offset behind the last settled line, until it is taken. -/
  ready : Option Nat := none
  deriving DecidableEq, Repr

namespace Ledger

/-- Settles the oldest lines, as far as they have been received. -/
def settleSlots : List Slot → Option Nat → List Slot × Option Nat
  | [], ready => ([], ready)
  | s :: slots, ready => if s.received then settleSlots slots (some s.stop) else (s :: slots, ready)

/-- The ledger with its oldest received lines settled. -/
def settle (l : Ledger) : Ledger :=
  let (slots, ready) := settleSlots l.slots l.ready
  ⟨slots, ready⟩

/-- A line has been handed to a stream. -/
def handedOut (l : Ledger) (stream : Stream) (stop : Nat) : Ledger :=
  { l with slots := l.slots ++ [⟨stop, some stream, false⟩] }

/-- A line that cannot be read has been passed over. -/
def passedOver (l : Ledger) (stop : Nat) : Ledger :=
  settle { l with slots := l.slots ++ [⟨stop, none, true⟩] }

/-- Marks the oldest line of a stream that has not been received. -/
def markFirst (stream : Stream) : List Slot → List Slot
  | [] => []
  | s :: slots =>
    if s.stream = some stream ∧ s.received = false then { s with received := true } :: slots
    else s :: markFirst stream slots

/-- An item of a stream has been received. -/
def received (l : Ledger) (stream : Stream) : Ledger :=
  settle { l with slots := markFirst stream l.slots }

/-- Takes the offset that is ready. -/
def takeReady (l : Ledger) : Option Nat × Ledger := (l.ready, { l with ready := none })

/-- Puts back an offset that could not be written, unless a later one is ready. -/
def putBack (l : Ledger) (stop : Nat) : Ledger :=
  { l with ready := some (match l.ready with | none => stop | some ready => max ready stop) }

end Ledger
end CecRelay
