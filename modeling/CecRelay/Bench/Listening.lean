import CecRelay.Bench.DiskView
import CecRelay.Power.Signal
import CecRelay.Queue.Pump

/-!
# Listening to the monitor

The monitor has printed something and ended. The events it reports are stored in a queue that nobody
reads, unless that queue was closed before, or the listener was asked to stop before it read.
-/

namespace CecRelay.Bench

/-- What the listener finds when it starts. -/
inductive Hearing
  /-- A queue that takes events. -/
  | opened
  /-- A queue that was closed. -/
  | closed
  /-- A request to stop. -/
  | cancelled
  deriving DecidableEq, Repr

namespace Hearing

/-- The time at which events are stored. -/
def now : Time.Stamp := ⟨⟨2024, 1, 1⟩, 0, 0, 0, 0⟩

/-- The queue after what the monitor has printed. -/
def heard (h : Hearing) (stream : Bytes) (l : Live) : Live :=
  let l := if h = .closed then (l.close false).1 else l
  if h = .cancelled then l
  else (Power.eventsOf stream).foldl (fun l p => (l.enqueue now (.power p)).1) l

/-- What is seen of a fresh queue after what the monitor has printed. -/
def disk (h : Hearing) (stream : Bytes) : DiskView :=
  match Queue.open? "$DIR/q" 10 .missing with
  | (place, .error _) => .ofPlace place
  | (place, .ok q) => .ofPlace (h.heard stream ⟨q, ⟨place, none⟩⟩).disk.place

end Hearing
end CecRelay.Bench
