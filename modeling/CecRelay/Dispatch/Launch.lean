import CecRelay.Adapter.Identity
import CecRelay.Config.Environment
import CecRelay.Dispatch.Stage
import CecRelay.Power.Monitor

/-!
# Starting the relay

The relay is put together in a fixed order: the queue, the link, the monitor of power signals. When
one of them cannot be had, those before it are closed again, the log is kept, and the relay does not
start. The first program of a lineage, as opposed to one that has been restarted, wakes the devices.
-/

namespace CecRelay

/-- What a relay is started with. -/
structure Startup where
  /-- The configuration. -/
  config : Config
  /-- The folder of the queue. -/
  queueDir : String
  /-- The program has not been restarted. -/
  fresh : Bool
  /-- The time. -/
  now : Time.Stamp

namespace Startup

/-- What the relay of a program is started with that has its configuration and an environment. A program that
has been restarted has been told how many restarts are left. -/
def ofConfig (c : Config) (env : Environment) (tag : String) (now : Time.Stamp) : Startup :=
  ⟨c, c.queueDir env tag, (env budgetVariable).isNone, now⟩

/-- The adapter. -/
def identity (s : Startup) : Identity := .ofPort s.config.adapter.port s.config.adapter.name

/-- How the link replaces its handle. -/
def policy (s : Startup) : LinkPolicy := ⟨s.config.adapter.effectiveRetries, s.config.adapter.delay⟩

/-- What the relay is given; `path` and `args` are those of the program. -/
def settings (s : Startup) (path : Option String) (args : List String) : RelaySettings where
  devices := s.config.power.devices
  budget := s.config.budget
  program := ⟨path, args, s.queueDir⟩
  replaceable := true
  policy := s.policy

/-- The devices are woken at the start. -/
def wakes (s : Startup) : Bool := s.config.power.active && s.fresh && s.config.power.wakeAtStart

/-- The event that has the devices woken. -/
def wakeEvent : Event := .power ⟨.on, true⟩

/-- A queue with the event that has the devices woken, if they are. -/
def stored (s : Startup) (l : Live) : Live := if s.wakes then (l.enqueue s.now wakeEvent).1 else l

/-- The tasks beside the relay: the monitor, the one that stores keys, and the one that waits for a
signal. -/
def tasks (s : Startup) : List TaskStatus :=
  List.replicate (if s.config.power.active then 3 else 2) .running

end Startup

/-- How starting a relay ends. -/
structure Launched (σ : Type) where
  /-- What stands at the queue's path. -/
  place : Place
  /-- The adapter's side. -/
  port : Port σ
  /-- The relay, or why it has not started. -/
  relay : Except Failure (Relay σ)

namespace Launched

variable {σ : Type}

/-- The relay has not started, and the queue is closed with its log kept. -/
def given (l : Live) (port : Port σ) (cause : RelayError) : Launched σ :=
  ⟨(l.close false).1.disk.place, port, .error (.error cause)⟩

/-- Starts a relay. While the adapter is opened the pump of the queue works; `monitor` tells how
starting the monitor ends. -/
def start (a : Adapter σ) (s : Startup) (monitor : Except RelayError Unit) (place : Place)
    (port : Port σ) : Launched σ :=
  match Queue.open? s.queueDir s.config.queue.capacity place with
  | (place, .error cause) => ⟨place, port, .error cause⟩
  | (place, .ok q) =>
    let l := Live.settle ⟨q, ⟨place, none⟩⟩
    match Hardware.connect a port with
    | (.error cause, port) => given l port cause
    | (.ok link, port) =>
      let h : Hardware σ := ⟨link, port⟩
      match (if s.config.power.active then monitor else .ok ()) with
      | .error cause => given l (h.release a).port cause
      | .ok () =>
        let l := s.stored l
        ⟨l.disk.place, h.port, .ok { live := l, hardware := h, tasks := s.tasks }⟩

end Launched
end CecRelay
