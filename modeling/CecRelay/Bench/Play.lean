import CecRelay.Bench.Rig

/-!
# Playing a session

Each step acts on a bench at rest, and after it the bench comes to rest again. Storing several
events and receiving several items comes to rest after each of them.
-/

namespace CecRelay.Bench

namespace Rig

/-- The answer to a step that makes no sense. -/
def senseless (lack : Lack) (r : Rig) : Result × Rig := (.senseless lack, r)

/-- Opens the queue in the place of the one before it. -/
def openQueue (r : Rig) (capacity poll : Option Nat) : Result × Rig :=
  match Queue.open? queuePath (capacity.getD r.setup.capacity) r.place with
  | (place, .error .broken) => (.broken, r.setPlace place)
  | (place, .error (.error cause)) => (.outcome (.error cause), r.setPlace place)
  | (place, .ok q) =>
    let r := r.setPlace place
    let r := match r.bay, r.streams with
      | some old, true =>
        { r with bays := r.bays.modify old fun b =>
            { b with queue := (Live.deafen ⟨b.queue, ⟨r.place, b.orphan⟩⟩).queue } }
      | _, _ => r
    let poll := poll.getD r.setup.poll
    (.path queuePath,
      { r with
        bays := r.bays ++ [⟨q, none, poll, r.clock + poll⟩]
        bay := some r.bays.length
        streams := true })

/-- Stores events, with a rest after each. -/
def storeAll (i : Nat) : List Event → Rig → List (Option UInt64) × Rig
  | [], r => ([], r)
  | e :: es, r =>
    let (r, seq) := r.enqueueIn i e
    let (seqs, r) := storeAll i es r.rest
    (seq :: seqs, r)

/-- Receives the oldest item of a stream. -/
def receive? (l : Live) : Stream → Option (Event × Live)
  | .keys => l.receiveKey?.map fun (k, l) => (.key k, l)
  | .power => l.receivePower?.map fun (p, l) => (.power p, l)

/-- Receives up to `max` items, with a rest after each. -/
def receiveAll (i : Nat) (stream : Stream) : Nat → Rig → List Item × Rig
  | 0, r => ([], r)
  | max + 1, r =>
    match r.live? i with
    | none => ([], r)
    | some l =>
      match receive? l stream with
      | some (e, l) =>
        let (items, r) := receiveAll i stream max (r.putLive i l).rest
        (.event e :: items, r)
      | none => ([if l.ended then .closed else .pending], r)

/-- Closes the queue in use. -/
def closeQueue (r : Rig) (i : Nat) (delete : Bool) : Except RelayError Unit × Rig :=
  match r.live? i with
  | none => (.ok (), r)
  | some l =>
    let (l, result) := l.close delete
    (result, r.putLive i l)

/-- Everything dies but the folder and the adapter. -/
def crash (r : Rig) : Rig :=
  { setup := r.setup, clock := r.clock, place := r.place, port := r.port }

/-- Restarts the program. -/
def restart (r : Rig) (i : Nat) (budget : UInt32) : Result × Rig :=
  match r.setup.program.plan? budget with
  | none => (.flag false, r)
  | some plan =>
    let (_, r) := r.closeQueue i false
    (.flag r.setup.replaceable, { r with plans := r.plans ++ [plan] })

/-- Changes the script. -/
def changeScript (s : Script) (c : ScriptChange) : Script :=
  { opens := c.opens.getD s.opens
    answers := c.answers.getD s.answers
    laterOpen := c.laterOpen.getD s.laterOpen
    laterAnswer := c.laterAnswer.getD s.laterAnswer }

/-- Somebody takes the keys of a link for good. -/
def isForwarded (tasks : List Task) (rack : Nat) : Bool :=
  tasks.any fun t => t.kind = .forwarder ∧ t.rack = rack

/-- Opens a link. -/
def connect (r : Rig) : Result × Rig :=
  match Hardware.connect Script.adapter r.port with
  | (.error cause, port) => (.outcome (.error cause), { r with port := port })
  | (.ok link, port) =>
    let i := r.racks.length
    let racks := match r.rack with
      | some old =>
        if isForwarded r.tasks old then r.racks
        else r.racks.modify old fun k => { k with listening := false }
      | none => r.racks
    (.outcome (.ok ()),
      { r with
        racks := racks ++ [{ link := link }]
        rack := some i
        sink := some i
        port := port })

/-- The milliseconds of the pauses among calls. -/
def pausedMillis (calls : List Call) : Nat :=
  total (calls.map fun
    | .paused span => span.millis
    | _ => 0)

/-- A number of milliseconds to the nearest ten. -/
def nearestTen (n : Nat) : Nat := (n + 5) / 10 * 10

/-- Does something to a link, and tells how long it took. -/
def timed {α : Type} (r : Rig) (i : Nat) (act : Hardware Script → α × Hardware Script)
    (answer : α → Nat → Result) : Result × Rig :=
  match r.hardware? i with
  | none => (.none, r)
  | some h =>
    let (result, next) := act h
    let waited := pausedMillis (next.port.calls.drop h.port.calls.length)
    (answer result (nearestTen waited), { r.putHardware i next with clock := r.clock + waited })

/-- One step of every caller, in order. -/
def callAll (policy : LinkPolicy) : List Caller → Hardware Script → List Caller × Hardware Script
  | [], h => ([], h)
  | c :: cs, h =>
    let (c, h) := c.step Script.adapter policy h
    let (cs, h) := callAll policy cs h
    (c :: cs, h)

/-- Carries out a command on several addresses at once: every caller takes its first step, then
every caller its second, then every caller its third. -/
def callTogether (policy : LinkPolicy) (command : PowerCommand) (addresses : List UInt8)
    (h : Hardware Script) : List (Except RelayError Unit) × Hardware Script :=
  let (cs, h) := callAll policy (addresses.map (Caller.first command)) h
  let (cs, h) := callAll policy cs h
  let (cs, h) := callAll policy cs h
  (cs.filterMap Caller.result?, h)

/-- The adapter pushes a key. -/
def pushKey (r : Rig) (k : KeyPress) : Result × Rig :=
  match r.sink with
  | none => (.none, r)
  | some i =>
    match (r.racks[i]?).map Rack.listening with
    | some true =>
      (.flag true,
        { r with racks := r.racks.modify i fun rack => { rack with keys := rack.keys ++ [k] } })
    | _ => (.flag false, r)

/-- Takes the keys that nobody else takes. -/
def takeKeys (r : Rig) : Result × Rig :=
  match r.rack with
  | none => (.keys [], r)
  | some i =>
    if isForwarded r.tasks i then (.keys [], r)
    else (.keys (((r.racks[i]?).map Rack.keys).getD []),
      { r with racks := r.racks.modify i fun rack => { rack with keys := [] } })

/-- The bench with one more task of the relay to come. The keys of a link are taken by one forwarder
only; another finds none to take. -/
def addTask (bay rack : Nat) (r : Rig) (kind : TaskKind) (number : Nat) : Rig :=
  let late := kind = .forwarder ∧ isForwarded r.tasks rack
  let task : Task :=
    { kind := kind
      owner := r.runners.length
      number := number
      bay := bay
      rack := rack
      status := if late then .ended else .running }
  { r with
    tasks := r.tasks ++ [task]
    notes := r.notes ++ if kind = .forwarder then [noteText number "dropped"] else [] }

/-- Starts a relay. -/
def start (r : Rig) (kinds : List TaskKind) : Result × Rig :=
  match r.rack, r.bay, r.streams with
  | some rack, some bay, true =>
    match r.live? bay, r.hardware? rack with
    | some l, some h =>
      let r := kinds.zipIdx.foldl (fun r (kind, number) => addTask bay rack r kind number) r
      (.none,
        { r with
          streams := false
          runners := r.runners ++
            [{ relay := { live := l, hardware := h }, bay := bay, rack := rack }] })
    | _, _ => r.senseless .parts
  | _, _, _ => r.senseless .parts

/-- Changes the folder from outside. -/
def change (r : Rig) (next : Option Place) : Result × Rig :=
  match next with
  | some place => (.flag true, r.setPlace place)
  | none => (.flag false, r)

/-- With the queue in use. -/
def withQueue (r : Rig) (act : Nat → Result × Rig) : Result × Rig :=
  match r.bay with
  | some i => act i
  | none => r.senseless .queue

/-- With the link in use. -/
def withLink (r : Rig) (act : Nat → Result × Rig) : Result × Rig :=
  match r.rack with
  | some i => act i
  | none => r.senseless .link

/-- What a step does, before the bench comes to rest. -/
def act (r : Rig) : Step → Result × Rig
  | .write spot bytes anew => r.change (writeFile spot bytes anew r.place)
  | .makeFolder spot => r.change (makeFolder spot r.place)
  | .remove spot => r.change (removeEntry spot r.place)
  | .open capacity poll => r.openQueue capacity poll
  | .enqueue events => r.withQueue fun i =>
    let (seqs, r) := storeAll i events r
    (.stored seqs, r)
  | .receive stream max =>
    match r.bay, r.streams with
    | some i, true =>
      let (items, r) := receiveAll i stream max r
      (.items items, r)
    | _, _ => r.senseless .streams
  | .close delete => r.withQueue fun i =>
    let (result, r) := r.closeQueue i delete
    (.outcome result, r)
  | .dropStreams =>
    match r.bay, r.streams with
    | some i, true =>
      match r.live? i with
      | some l => (.flag true, { r.putLive i l.deafen with streams := false })
      | none => (.flag false, r)
    | _, _ => (.flag false, r)
  | .crash => (.none, r.crash)
  | .wait millis => (.none, r.pass millis)
  | .restart budget => r.withQueue fun i => r.restart i budget
  | .script c => (.none, { r with port := { r.port with inner := changeScript r.port.inner c } })
  | .connect => r.connect
  | .issue command address => r.withLink fun i =>
    r.timed i (Hardware.issue Script.adapter r.setup.policy command address) .timed
  | .broadcast command addresses => r.withLink fun i =>
    r.timed i (Hardware.broadcast Script.adapter r.setup.policy command addresses) .timed
  | .reconnect => r.withLink fun i =>
    r.timed i (Hardware.replace Script.adapter r.setup.policy) .timed
  | .closeAdapter => r.withLink fun i =>
    r.timed i (fun h => (.ok (), h.release Script.adapter)) .timed
  | .parallel command addresses => r.withLink fun i =>
    r.timed i (callTogether r.setup.policy command addresses) .results
  | .adapterKey k => r.pushKey k
  | .takeKeys => r.takeKeys
  | .start kinds => r.start kinds
  | .cancel => (.none, { r with cancelled := true })

/-! ### Reports -/

/-- A call in a report. -/
def callText (i : Identity) : Call → Option String
  | .opened handle => some ("open " ++ i.display ++ " @" ++ toString handle)
  | .refused => some ("open " ++ i.display ++ " refused")
  | .broken => some ("open " ++ i.display ++ " panic")
  | .attached handle => some ("attach @" ++ toString handle)
  | .sent command address handle _ =>
    some (command.name ++ " " ++ toString address ++ " @" ++ toString handle)
  | .closed handle => some ("close @" ++ toString handle)
  | .paused _ => none

/-- The calls of a step in a report; those of several callers are sorted. -/
def busOf (r : Rig) : Step → List String
  | .parallel _ _ => (r.port.calls.filterMap (callText r.setup.identity)).mergeSort
  | _ => r.port.calls.filterMap (callText r.setup.identity)

/-- What the key handler makes of codes. -/
def keyNotes (s : Setup) (codes : List UInt8) : List KeyNote :=
  match s.table with
  | none => codes.map .code
  | some table => (table.strokes codes).map .stroke

/-- The report after a step. -/
def report (r : Rig) (s : Step) (result : Result) : Report :=
  { result := result
    bus := r.busOf s
    keys := keyNotes r.setup r.pressed
    tasks := r.notes.mergeSort
    plans := r.plans
    link := r.rack.bind fun i => (r.racks[i]?).map fun k => (k.link.health, k.link.generation)
    exit := r.runners.getLast?.bind fun u =>
      if u.exitReported then none else u.relay.result?.map (·, r.cancelled)
    disk := DiskView.ofPlace r.place }

/-- The bench with everything reported. -/
def reported (r : Rig) : Rig :=
  { r with
    port := { r.port with calls := [] }
    notes := []
    pressed := []
    plans := []
    runners := r.runners.map fun u => { u with exitReported := u.relay.result?.isSome } }

/-- A step and the rest after it. A link that is being replaced shows its health when that is over. -/
def play (r : Rig) (s : Step) : Report × Rig :=
  let (result, r) := r.act s
  let r := r.rest
  let r := freed r.setup.policy.attempts.toNat r
  (r.report s result, r.reported)

/-- The reports of steps in order. None when the program breaks off. -/
def playAll : List Step → Rig → Option (List Report)
  | [], _ => some []
  | s :: steps, r =>
    match r.play s with
    | ({ result := .broken, .. }, _) => none
    | (report, r) => (playAll steps r).map (report :: ·)

end Rig
end CecRelay.Bench
