import CecRelay.Adapter.Link
import CecRelay.Queue.Pump
import CecRelay.Restart

/-!
# The relay at work

The relay takes events out of the lanes of a queue. A press of a key goes to the key handler, a
power event becomes a command for every device. Power events come before keys, and a request to stop
before both. When the link gives a command up, the relay stops whatever runs beside it, closes the
adapter and then the queue, and has the program restarted; when it was asked to stop it does the
same and deletes the queue instead.

A run goes in small steps (`Relay.step?`), one for each thing after which somebody else may act: the
pump of the queue, a producer, whoever asks to stop, or a task that runs beside the relay.
-/

namespace CecRelay

/-- Why a run has ended. -/
inductive Exit
  /-- It was asked to stop, and the queue has been deleted. -/
  | shutdown
  /-- The program has been replaced. -/
  | restarted
  /-- The queue was closed by somebody else; its log is kept. -/
  | drained
  deriving DecidableEq, Repr

/-- Why a run is about to end. -/
inductive Leaving
  /-- It was asked to stop. -/
  | graceful
  /-- A command was given up. -/
  | escalated (cause : RelayError)
  deriving DecidableEq, Repr

/-- How far a task is that runs beside the relay. -/
inductive TaskStatus
  /-- It runs. -/
  | running
  /-- It has come to its end. -/
  | ended
  /-- It did not come to its end in time and was broken off. -/
  | aborted
  deriving DecidableEq, Repr

/-- What the relay does next. -/
inductive Stage
  /-- Look for a request to stop, a power event or a key. -/
  | choosing
  /-- Carry out a command on a device, then on the rest. -/
  | powering (caller : Caller) (command : PowerCommand) (rest : List UInt8)
  /-- Wait for a task to end. -/
  | stopping (leaving : Leaving) (task : Nat)
  /-- Close the adapter. -/
  | releasing (leaving : Leaving)
  /-- Begin to close the queue; `replaced` says that replacing the program is behind us, or that there is no
  plan for it. -/
  | closing (leaving : Leaving) (replaced : Bool)
  /-- Wait for the pump of the queue, then take what is ready for the cursor. -/
  | awaiting (leaving : Leaving) (replaced : Bool)
  /-- Finish closing, with what has been taken. -/
  | ending (leaving : Leaving) (replaced : Bool) (ready : Option Nat)
  /-- Replace the program. -/
  | replacing (cause : RelayError)
  /-- Nothing more. -/
  | done (result : Except RelayError Exit)

/-- What a relay is given. -/
structure RelaySettings where
  /-- The devices, in order. -/
  devices : List UInt8
  /-- The restarts left. -/
  budget : UInt32
  /-- The program that is restarted. -/
  program : Program
  /-- Replacing the program works. -/
  replaceable : Bool
  /-- How the link replaces its handle. -/
  policy : LinkPolicy

/-- A relay in a run, and all that it works on. -/
structure Relay (σ : Type) where
  /-- The queue and its disk. -/
  live : Live
  /-- The link and the adapter. -/
  hardware : Hardware σ
  /-- Somebody has asked to stop; the tasks see it too. -/
  cancelled : Bool := false
  /-- The tasks that run beside the relay. -/
  tasks : List TaskStatus := []
  /-- What the relay does next. -/
  stage : Stage := .choosing
  /-- The lane of keys has not ended. -/
  keysOpen : Bool := true
  /-- The lane of power events has not ended. -/
  powerOpen : Bool := true
  /-- The events received, in order. -/
  received : List Event := []
  /-- The codes given to the key handler, in order. -/
  pressed : List UInt8 := []
  /-- The plans carried out to replace the program. -/
  plans : List RestartPlan := []
  /-- What others who close the queue have taken for the cursor and not yet written. -/
  taken : List Nat := []

/-- The command that a power event asks for. -/
def PowerEvent.command (p : PowerEvent) : PowerCommand := if p.wakes then .powerOn else .standby

namespace Relay

variable {σ : Type} (a : Adapter σ) (s : RelaySettings)

/-- The stage in which a command is sent to the devices in order. -/
def poweringStage (command : PowerCommand) : List UInt8 → Stage
  | [] => .choosing
  | address :: rest => .powering (.first command address) command rest

/-- The codes that a key gives to the key handler. -/
def codesOf (k : KeyPress) : List UInt8 := if k.isRelease then [] else [k.code]

/-- The relay after it has received a power event. -/
def takePower (r : Relay σ) (p : PowerEvent) (live : Live) : Relay σ :=
  { r with
    live := live
    received := r.received ++ [.power p]
    stage := poweringStage p.command s.devices }

/-- The relay after it has received a key. -/
def takeKey (r : Relay σ) (k : KeyPress) (live : Live) : Relay σ :=
  { r with
    live := live
    received := r.received ++ [.key k]
    pressed := r.pressed ++ codesOf k }

/-- The end of a run: the receiving ends of the lanes are given up. -/
def finish (r : Relay σ) (result : Except RelayError Exit) : Relay σ :=
  { r with live := r.live.deafen, stage := .done result }

/-- Looks for a request to stop, then for a power event, then for a key. -/
def choose? (r : Relay σ) : Option (Relay σ) :=
  if !r.keysOpen && !r.powerOpen then some (r.finish (.ok .drained))
  else if r.cancelled then some { r with stage := .stopping .graceful 0 }
  else match (if r.powerOpen then r.live.receivePower? else none) with
    | some (p, live) => some (r.takePower s p live)
    | none =>
      if r.powerOpen && r.live.ended then some { r with powerOpen := false }
      else match (if r.keysOpen then r.live.receiveKey? else none) with
        | some (k, live) => some (r.takeKey k live)
        | none => if r.keysOpen && r.live.ended then some { r with keysOpen := false } else none

/-- The result of a run in which replacing the program has not worked. -/
def failure (cause : RelayError) : RelayError :=
  if s.budget = 0 then .restartBudgetExhausted else .restartFailed cause.message

/-- Finishes closing the queue, with what has been taken for the cursor. -/
def finishClose (r : Relay σ) (leaving : Leaving) (replaced : Bool) (ready : Option Nat) : Relay σ :=
  match leaving with
  | .graceful =>
    match r.live.endClose true ready with
    | (live, .ok ()) => finish { r with live := live } (.ok .shutdown)
    | (live, .error cause) => finish { r with live := live } (.error cause)
  | .escalated cause =>
    let r := { r with live := (r.live.endClose false ready).1 }
    if replaced then r.finish (.error (failure s cause)) else { r with stage := .replacing cause }

/-- Has the program replaced, if there is a plan for that. -/
def replace (r : Relay σ) (cause : RelayError) : Relay σ :=
  match s.program.plan? s.budget with
  | none => { r with stage := .closing (.escalated cause) true }
  | some plan =>
    let r := { r with plans := r.plans ++ [plan] }
    if s.replaceable then r.finish (.ok .restarted)
    else { r with stage := .closing (.escalated cause) true }

/-- The next step of the relay; none while it has to wait. -/
def step? (r : Relay σ) : Option (Relay σ) :=
  match r.stage with
  | .choosing => r.choose? s
  | .powering caller command rest =>
    match caller with
    | .done (.ok ()) => some { r with stage := poweringStage command rest }
    | .done (.error cause) =>
      some { r with cancelled := true, stage := .stopping (.escalated cause) 0 }
    | caller =>
      let (caller, hardware) := caller.step a s.policy r.hardware
      some { r with hardware := hardware, stage := .powering caller command rest }
  | .stopping leaving task =>
    match r.tasks[task]? with
    | none => some { r with stage := .releasing leaving }
    | some .running => none
    | some _ => some { r with stage := .stopping leaving (task + 1) }
  | .releasing leaving =>
    let r := { r with hardware := r.hardware.release a }
    match leaving with
    | .graceful => some { r with stage := .closing .graceful false }
    | .escalated cause =>
      some { r with stage := .closing (.escalated cause) (s.program.plan? s.budget).isNone }
  | .closing leaving replaced =>
    some { r with live := r.live.beginClose, stage := .awaiting leaving replaced }
  | .awaiting leaving replaced =>
    if r.live.ended then
      some { r with live := r.live.takeReady, stage := .ending leaving replaced r.live.queue.ledger.ready }
    else none
  | .ending leaving replaced ready => some (r.finishClose s leaving replaced ready)
  | .replacing cause => some (r.replace s cause)
  | .done _ => none

/-- The time for a task to end is over: it is broken off. -/
def giveUp (r : Relay σ) : Relay σ :=
  match r.stage with
  | .stopping _ task =>
    match r.tasks[task]? with
    | some .running => { r with tasks := r.tasks.set task .aborted }
    | _ => r
  | _ => r

/-- How the run has ended. -/
def result? (r : Relay σ) : Option (Except RelayError Exit) :=
  match r.stage with
  | .done result => some result
  | _ => none

end Relay
end CecRelay
