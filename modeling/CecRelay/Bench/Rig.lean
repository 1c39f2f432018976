import CecRelay.Bench.Session

/-!
# The bench

The bench holds every part of a session and moves them in one fixed order, so that a session always
answers the same. Time passes only when nothing can move (`Rig.settle`); then the clock jumps to the
next moment at which something is due (`Rig.pass`).

A queue that is opened takes the place of the one before it, which goes on by itself, and so does a
relay that is started. A task belongs to the relay that it was started with, and outlives it. All
queues work on one folder. When the name of a log is removed, every queue that has it open keeps it
as an orphan.
-/

namespace CecRelay.Bench

/-- A queue on the bench. -/
structure Bay where
  /-- The queue. -/
  queue : Queue
  /-- Its log, once the name has been removed. -/
  orphan : Option Bytes := none
  /-- The longest wait of its pump, in milliseconds. -/
  poll : Nat
  /-- When the wait of its pump is over. -/
  due : Nat
  deriving Repr

/-- A link on the bench, with the keys that its adapter has pushed. -/
structure Rack where
  /-- The link. -/
  link : Link
  /-- The keys not yet taken, oldest first. -/
  keys : List KeyPress := []
  /-- Somebody may still take them. -/
  listening : Bool := true

/-- A task on the bench. -/
structure Task where
  /-- What it does. -/
  kind : TaskKind
  /-- The relay it was started with. -/
  owner : Nat
  /-- Its number among the tasks of that relay. -/
  number : Nat
  /-- The queue it stores to. -/
  bay : Nat
  /-- The link whose keys it takes. -/
  rack : Nat
  /-- When it ends, once it has been asked to. -/
  due : Option Nat := none
  /-- How far it is. -/
  status : TaskStatus := .running

/-- A relay on the bench. What it works on is kept elsewhere and given to it for each step. -/
structure Runner where
  /-- The relay. -/
  relay : Relay Script
  /-- Its queue. -/
  bay : Nat
  /-- Its link. -/
  rack : Nat
  /-- The task it waits for, and until when. -/
  patience : Option (Nat × Nat) := none
  /-- While it replaces the handle of its link, the attempts that are left, and when the next is due. -/
  reopening : Option (Nat × Nat) := none
  /-- Its end has been reported. -/
  exitReported : Bool := false

/-- The bench. -/
structure Rig where
  /-- What the session was given. -/
  setup : Setup
  /-- The time, in milliseconds. -/
  clock : Nat := 0
  /-- What stands at the queue's path. -/
  place : Place := .missing
  /-- The queues of this life, in the order in which they were opened. -/
  bays : List Bay := []
  /-- The queue in use. -/
  bay : Option Nat := none
  /-- The session holds the receiving ends of its lanes. -/
  streams : Bool := false
  /-- The adapter. -/
  port : Port Script := { inner := {} }
  /-- The links of this life. -/
  racks : List Rack := []
  /-- The link in use. -/
  rack : Option Nat := none
  /-- The link to which the adapter pushes keys. -/
  sink : Option Nat := none
  /-- The tasks. -/
  tasks : List Task := []
  /-- The relays, in the order in which they were started. -/
  runners : List Runner := []
  /-- Everybody has been asked to stop. -/
  cancelled : Bool := false
  /-- The notes of tasks in this step. -/
  notes : List String := []
  /-- The codes given to the key handler in this step. -/
  pressed : List UInt8 := []
  /-- The plans of this step. -/
  plans : List RestartPlan := []

namespace Rig

/-- The time stamp of every event that is stored on the bench. -/
def stamp : Time.Stamp := ⟨⟨2024, 1, 1⟩, 0, 0, 0, 123456789⟩

/-- The path of the queue. -/
def queuePath : String := "$DIR/q"

/-! ### Parts and what they work on -/

/-- The contents of the log in a folder. -/
def logIn : Place → Option Bytes
  | .folder { log := some (.file bytes), .. } => some bytes
  | _ => none

/-- The bench with something else at the queue's path. A log whose name is gone becomes an orphan of
every queue that has it open. -/
def setPlace (r : Rig) (p : Place) : Rig :=
  match logIn r.place, logIn p with
  | some bytes, none =>
    { r with
      place := p
      bays := r.bays.map fun b => { b with orphan := b.orphan.or (some bytes) } }
  | _, _ => { r with place := p }

/-- A queue and its disk. -/
def live? (r : Rig) (i : Nat) : Option Live :=
  (r.bays[i]?).map fun b => ⟨b.queue, ⟨r.place, b.orphan⟩⟩

/-- The bench after something was done to a queue and its disk. -/
def putLive (r : Rig) (i : Nat) (l : Live) : Rig :=
  let bays := r.bays.modify i fun b => { b with queue := l.queue, orphan := l.disk.orphan }
  { r with bays := bays }.setPlace l.disk.place

/-- A link and the adapter. -/
def hardware? (r : Rig) (i : Nat) : Option (Hardware Script) :=
  (r.racks[i]?).map fun k => ⟨k.link, r.port⟩

/-- The call directs keys to the relay. -/
def isAttach : Call → Bool
  | .attached _ => true
  | _ => false

/-- The bench after something was done to a link and the adapter. -/
def putHardware (r : Rig) (i : Nat) (h : Hardware Script) : Rig :=
  let fresh := (h.port.calls.drop r.port.calls.length).any isAttach
  { r with
    racks := r.racks.modify i fun k => { k with link := h.link }
    port := h.port
    sink := if fresh then some i else r.sink }

/-! ### Pumps -/

/-- The events in the lanes of a queue. -/
def load (l : Live) : Nat := l.queue.keys.length + l.queue.power.length

/-- The pump works until it has put an event into a lane or has to wait. -/
def pumpRound : Nat → Live → Live
  | 0, l => l
  | fuel + 1, l =>
    match l.step? with
    | none => l
    | some next => if load l < load next then next else pumpRound fuel next

/-- Enough steps for the pump of a queue. -/
def pumpFuel (l : Live) : Nat := 6 * (l.queue.journal.len - l.queue.journal.read + 4)

/-- One round of a pump. Nothing when it has to wait. -/
def pump? (r : Rig) (i : Nat) : Option Rig := do
  let l ← r.live? i
  let _ ← l.step?
  let next := pumpRound (pumpFuel l) l
  let r := r.putLive i next
  return { r with bays := r.bays.modify i fun b => { b with due := r.clock + b.poll } }

/-- One round of every pump, and whether any has moved. -/
def pumpAll (r : Rig) : Rig × Bool :=
  (List.range r.bays.length).foldl (fun (r, moved) i =>
    match r.pump? i with
    | some r => (r, true)
    | none => (r, moved)) (r, false)

/-- All pumps work until they have to wait. -/
def pumpOut : Nat → Rig → Rig
  | 0, r => r
  | fuel + 1, r =>
    match r.pumpAll with
    | (r, true) => pumpOut fuel r
    | (r, false) => r

/-- Numbers added up. -/
def total (ns : List Nat) : Nat := ns.foldl Nat.add 0

/-- More rounds than all pumps together can make before they wait. -/
def pumpOutFuel (r : Rig) : Nat :=
  total (r.bays.map fun b => 2 * b.queue.journal.len + 8) + 8

/-! ### Tasks -/

/-- Stores an event in a queue. -/
def enqueueIn (r : Rig) (i : Nat) (e : Event) : Rig × Option UInt64 :=
  match r.live? i with
  | none => (r, none)
  | some l =>
    let (l, seq) := l.enqueue stamp e
    (r.putLive i l, seq)

/-- The wording of a note. -/
def noteText (number : Nat) (text : String) : String := "task " ++ toString number ++ " " ++ text

/-- A note of a task. -/
def note (r : Rig) (i : Nat) (text : String) : Rig :=
  { r with notes := r.notes ++ (r.tasks[i]?).toList.map fun t => noteText t.number text }

/-- The bench with a task gone, noted unless it is a forwarder. -/
def dropTask (r : Rig) (i : Nat) (status : TaskStatus) : Rig :=
  let r := { r with tasks := r.tasks.modify i fun t => { t with status := status } }
  r.note i "dropped"

/-- The key that a storing task stores. -/
def farewell : Event := .key (.pressed 238)

/-- The number of a stored event in a note. -/
def seqNote : Option UInt64 → String
  | some seq => "enqueued Some(" ++ toString seq ++ ")"
  | none => "enqueued None"

/-- What a task does that has been asked to stop. -/
def wind? (r : Rig) (i : Nat) (t : Task) : Option Rig :=
  match t.kind with
  | .forwarder =>
    some { r with
      tasks := r.tasks.modify i fun t => { t with status := .ended }
      racks := r.racks.modify t.rack fun k => { k with listening := false, keys := [] } }
  | .stuck => none
  | .slow =>
    match t.due with
    | some _ => none
    | none =>
      some { r with tasks := r.tasks.modify i fun t => { t with due := some (r.clock + 1500) } }
  | .breaking => some (r.dropTask i .ended)
  | .storing =>
    let (r, seq) := r.enqueueIn t.bay farewell
    some ((r.note i (seqNote seq)).dropTask i .ended)

/-- What a forwarder does with the next key. -/
def forward? (r : Rig) (t : Task) : Option Rig :=
  match t.kind, (r.racks[t.rack]?).map Rack.keys with
  | .forwarder, some (k :: keys) =>
    let r := { r with racks := r.racks.modify t.rack fun rack => { rack with keys := keys } }
    some (r.enqueueIn t.bay (.key k)).1
  | _, _ => none

/-- The next move of a task. -/
def task? (r : Rig) (i : Nat) : Option Rig := do
  let t ← r.tasks[i]?
  if t.status ≠ .running then none
  else if r.cancelled then r.wind? i t else r.forward? t

/-- One move of every task, and whether any has moved. -/
def taskAll (r : Rig) : Rig × Bool :=
  (List.range r.tasks.length).foldl (fun (r, moved) i =>
    match r.task? i with
    | some r => (r, true)
    | none => (r, moved)) (r, false)

/-! ### The relay -/

/-- What a relay is given on the bench. -/
def relaySettings (s : Setup) : RelaySettings :=
  { devices := s.devices
    budget := s.budget
    program := s.program
    replaceable := s.replaceable
    policy := s.policy }

/-- The tasks of a relay, each with its place among all tasks. -/
def tasksOf (r : Rig) (i : Nat) : List (Nat × Task) :=
  (List.range r.tasks.length).filterMap fun k => do
    let t ← r.tasks[k]?
    if t.owner = i then return (k, t) else none

/-- A relay with what it works on. -/
def loaded? (r : Rig) (i : Nat) : Option (Relay Script) := do
  let u ← r.runners[i]?
  let l ← r.live? u.bay
  let h ← r.hardware? u.rack
  return { u.relay with
    live := l
    hardware := h
    cancelled := r.cancelled
    tasks := (r.tasksOf i).map fun (_, t) => t.status }

/-- The relay sends commands. -/
def isPowering : Stage → Bool
  | .powering _ _ _ => true
  | _ => false

/-- The bench after a step of a relay. -/
def putRelay (r : Rig) (i : Nat) (u : Runner) (before after : Relay Script) : Rig :=
  let r := (r.putLive u.bay after.live).putHardware u.rack after.hardware
  { r with
    runners := r.runners.modify i fun u => { u with relay := after }
    cancelled := after.cancelled
    pressed := r.pressed ++ after.pressed.drop before.pressed.length
    plans := r.plans ++ after.plans.drop before.plans.length }

/-- Another relay is replacing the handle of a link, and everybody else has to wait for it. -/
def isHeld (r : Rig) (i rack : Nat) : Bool :=
  r.runners.zipIdx.any fun (u, k) => k ≠ i ∧ u.rack = rack ∧ u.reopening.isSome

/-- A stage that works on the link. -/
def usesLink : Stage → Bool
  | .powering (.done _) _ _ => false
  | .powering _ _ _ | .releasing _ => true
  | _ => false

/-- The handle of generation `observed` will be replaced, with pauses between the attempts. -/
def pauses (policy : LinkPolicy) (observed : Nat) (h : Hardware Script) : Bool :=
  h.link.health ≠ .failed ∧ (h.link.generation = observed ∨ h.link.health ≠ .connected) ∧
    1 < policy.attempts ∧ 0 < policy.delay.millis

/-- The link while its handle is being replaced. -/
def reconnecting (h : Hardware Script) : Hardware Script :=
  { h with link := { h.link with health := .reconnecting } }

/-- The next step of a relay, and how it goes on replacing the handle of its link if it does. Between two
attempts it pauses; nothing else takes time. -/
def advance? (r : Rig) (u : Runner) (before : Relay Script) : Option (Relay Script × Option (Nat × Nat)) :=
  let s := relaySettings r.setup
  match before.stage, u.reopening with
  | .powering (.replacing _ _ observed) _ _, none =>
    if pauses s.policy observed before.hardware then
      some ({ before with hardware := (reconnecting before.hardware).release Script.adapter },
        some (s.policy.attempts.toNat, r.clock))
    else (before.step? Script.adapter s).map (·, none)
  | .powering (.replacing own address _) command rest, some (left, due) =>
    if r.clock < due then none
    else match Hardware.reopen Script.adapter s.policy 1 before.hardware with
      | (true, h) =>
        some ({ before with hardware := h, stage := .powering (.second own address) command rest }, none)
      | (false, h) =>
        if 1 < left then
          some ({ before with hardware := reconnecting h }, some (left - 1, r.clock + s.policy.delay.millis))
        else
          some ({ before with
            hardware := h
            stage := .powering (.done (.error (.reconnectExhausted s.policy.attempts))) command rest }, none)
  | _, _ => (before.step? Script.adapter s).map (·, none)

/-- The next step of a relay. While it waits for the adapter all pumps work. -/
def relay? (r : Rig) (i : Nat) : Option Rig := do
  let u ← r.runners[i]?
  let before ← r.loaded? i
  if usesLink before.stage && r.isHeld i u.rack then none
  else
    let (after, reopening) ← r.advance? u before
    let r := r.putRelay i u before after
    let r := { r with runners := r.runners.modify i fun u => { u with reopening := reopening } }
    return if isPowering before.stage then pumpOut r.pumpOutFuel r else r

/-- A relay works until it has to wait. -/
def relayOut (i : Nat) : Nat → Rig × Bool → Rig × Bool
  | 0, result => result
  | fuel + 1, (r, moved) =>
    match r.relay? i with
    | some r => relayOut i fuel (r, true)
    | none => (r, moved)

/-- More steps than a relay can make before it waits. -/
def relayFuel (r : Rig) : Nat :=
  let loads := total (r.bays.map fun b => b.queue.keys.length + b.queue.power.length +
    b.queue.journal.len + 4)
  8 * (loads + 2) * (r.setup.devices.length + 2) + 2 * r.tasks.length + 16

/-- Every relay works until it has to wait, and whether any has moved. -/
def relayAll (r : Rig) : Rig × Bool :=
  (List.range r.runners.length).foldl (fun (r, moved) i => relayOut i r.relayFuel (r, moved))
    (r, false)

/-! ### Rest -/

/-- One round of everything, and whether anything has moved. -/
def round (r : Rig) : Rig × Bool :=
  let (r, a) := r.taskAll
  let (r, b) := r.relayAll
  let (r, c) := r.pumpAll
  (r, a || b || c)

/-- Everything moves until nothing can, for at most `fuel` rounds. -/
def rounds : Nat → Rig → Rig
  | 0, r => r
  | fuel + 1, r =>
    match r.round with
    | (r, true) => rounds fuel r
    | (r, false) => r

/-- Everything moves until nothing can. -/
def settle (r : Rig) : Rig :=
  rounds (r.pumpOutFuel + total (r.racks.map fun k => 300 * (k.keys.length + 1)) +
    300 * (r.tasks.length + 1)) r

/-- Something that happens at a time. -/
inductive Alarm
  /-- The wait of a pump is over. -/
  | poll (bay : Nat)
  /-- A task ends. -/
  | finish (task : Nat)
  /-- A relay has waited for a task long enough. -/
  | patience (task : Nat)
  /-- A relay tries again to open the adapter. -/
  | reopening

/-- The alarms that are set, with their times. -/
def alarms (r : Rig) : List (Nat × Alarm) :=
  let polls := (List.range r.bays.length).filterMap fun i =>
    match r.bays[i]? with
    | some b => if b.queue.phase = .idle then some (b.due, .poll i) else none
    | none => none
  let ends := (List.range r.tasks.length).filterMap fun i =>
    match r.tasks[i]? with
    | some t => if t.status = .running then t.due.map fun due => (due, .finish i) else none
    | none => none
  let patience := (r.runners.filterMap Runner.patience).map fun (task, due) =>
    (due, Alarm.patience task)
  let reopenings := (r.runners.filterMap Runner.reopening).map fun (_, due) => (due, Alarm.reopening)
  ends ++ patience ++ reopenings ++ polls

/-- The earliest of alarms. -/
def earliest : List (Nat × Alarm) → Option (Nat × Alarm)
  | [] => none
  | a :: rest =>
    match earliest rest with
    | some b => if b.1 < a.1 then some b else some a
    | none => some a

/-- The task that a relay waits for. -/
def awaited? (r : Rig) (i : Nat) : Option Nat := do
  let u ← r.runners[i]?
  match u.relay.stage with
  | .stopping _ task =>
    let (k, t) ← (r.tasksOf i)[task]?
    if t.status = .running then some k else none
  | _ => none

/-- How long a relay goes on waiting for a task that it waits for. -/
def patience (clock : Nat) (before : Option (Nat × Nat)) (task : Nat) : Nat × Nat :=
  match before with
  | some (same, due) => if task = same then (same, due) else (task, clock + 2000)
  | none => (task, clock + 2000)

/-- Sets the patience of every relay that begins to wait for a task. -/
def setPatience (r : Rig) : Rig :=
  (List.range r.runners.length).foldl (fun r i =>
    let awaited := r.awaited? i
    { r with runners := r.runners.modify i fun u =>
      { u with patience := awaited.map (patience r.clock u.patience) } }) r

/-- The wait of a pump is over. When that has changed nothing it may as well go on waiting until
`target`. -/
def poll (r : Rig) (i target : Nat) : Rig :=
  match r.live? i, r.bays[i]? with
  | some l, some b =>
    let next := l.tick.settle
    let r := r.putLive i next
    let waits := if next = l then (target - r.clock) / max b.poll 1 + 1 else 1
    { r with bays := r.bays.modify i fun b => { b with due := r.clock + waits * max b.poll 1 } }
  | _, _ => r

/-- What an alarm does. -/
def ring (r : Rig) (target : Nat) : Alarm → Rig
  | .poll i => r.poll i target
  | .finish i => (r.note i "finished").dropTask i .ended
  | .patience i => r.dropTask i .aborted
  | .reopening => r

/-- Time passes until `target`, with at most `fuel` alarms on the way. -/
def passUntil : Nat → Nat → Rig → Rig
  | 0, target, r => { r.settle with clock := target }
  | fuel + 1, target, r =>
    let r := r.settle.setPatience
    match earliest r.alarms with
    | none => { r with clock := target }
    | some (due, alarm) =>
      if target < due then { r with clock := target }
      else passUntil fuel target (ring { r with clock := max due r.clock } target alarm)

/-- More attempts to open the adapter than there can be in so many milliseconds. -/
def reopeningFuel (r : Rig) (millis : Nat) : Nat :=
  r.runners.length * (millis / max r.setup.policy.delay.millis 1 + 1)

/-- Time passes, in milliseconds. -/
def pass (r : Rig) (millis : Nat) : Rig :=
  passUntil (4 * (r.bays.length + r.tasks.length + 4) + r.reopeningFuel millis) (r.clock + millis) r

/-- How long everything rests after a step, in milliseconds. -/
def restMillis : Nat := 100000

/-- Everything moves until nothing can, for a while. -/
def rest (r : Rig) : Rig := r.pass restMillis

/-- Time passes until the link in use is free, after at most `fuel` attempts to open the adapter. -/
def freed : Nat → Rig → Rig
  | 0, r => r
  | fuel + 1, r =>
    match r.runners.find? fun u => r.rack = some u.rack ∧ u.reopening.isSome with
    | some { reopening := some (_, due), .. } => freed fuel (r.pass (due - r.clock))
    | _ => r

end Rig
end CecRelay.Bench
