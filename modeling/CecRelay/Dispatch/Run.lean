import CecRelay.Dispatch.Stage

/-!
# A relay left to itself

Between two things that come from outside the relay works until it has to wait. The pump of its queue
is at rest whenever the relay takes a step, and a task that has been asked to stop ends at once.
-/

namespace CecRelay.Relay

variable {σ : Type} (a : Adapter σ) (s : RelaySettings)

/-- The relay with the pump of its queue at rest, and with the tasks ended that were asked to. -/
def refreshed (r : Relay σ) : Relay σ :=
  { r with
    live := r.live.settle
    tasks := if r.cancelled then r.tasks.map fun _ => .ended else r.tasks }

/-- The relay works until it has to wait, for at most `fuel` steps. -/
def workedFor : Nat → Relay σ → Relay σ
  | 0, r => r
  | fuel + 1, r =>
    match r.refreshed.step? a s with
    | some r => workedFor fuel r
    | none => r.refreshed

/-- More steps than the relay can make before it waits. -/
def workFuel (r : Relay σ) : Nat :=
  let q := r.live.queue
  8 * (q.journal.len + q.keys.length + q.power.length + 4) * (s.devices.length + 2) +
    2 * r.tasks.length + 64

/-- The relay works until it has to wait. -/
def worked (r : Relay σ) : Relay σ := workedFor a s (workFuel s r) r

/-- The relay with events stored in its queue. -/
def stored (now : Time.Stamp) (es : List Event) (r : Relay σ) : Relay σ :=
  { r with live := es.foldl (fun l e => (l.enqueue now e).1) r.live }

/-- The relay, asked to stop. -/
def asked (r : Relay σ) : Relay σ := { r with cancelled := true }

end CecRelay.Relay
