import CecRelay.Bench.DiskView
import CecRelay.Bench.StandIn
import CecRelay.Bench.Tree
import CecRelay.CommandLine.Help
import CecRelay.CommandLine.Options
import CecRelay.Config.File
import CecRelay.Dispatch.Launch
import CecRelay.Dispatch.Run
import CecRelay.Log.Record

/-!
# The whole program on a machine

The program is run on a machine whose files, environment and other programs are given. Stand-ins take
the place of the client, the monitor and the program that makes strokes. The machine moves everything
that can move until nothing can; then, if what was awaited has come, the program gets a signal to
stop. A program that replaces itself starts over, with the variables it hands to itself put over the
environment.
-/

namespace CecRelay.Bench

/-- A part of what the monitor prints, and when. -/
structure MonitorPart where
  /-- What is printed. -/
  bytes : Bytes
  /-- The client has got so many lines. -/
  afterLines : Nat := 0
  /-- The client does not run any more. -/
  afterExit : Bool := false
  deriving DecidableEq, Repr

/-- What is awaited before the program gets a signal to stop. -/
structure Awaited where
  /-- Starts of the client. -/
  clients : Nat := 0
  /-- Starts of the monitor. -/
  monitors : Nat := 0
  /-- Lines that clients have got. -/
  lines : Nat := 0
  /-- Strokes. -/
  strokes : Nat := 0
  deriving DecidableEq, Repr

/-- What the program is run with. -/
structure MachineSetup where
  /-- Its arguments. -/
  args : List String
  /-- Its environment. -/
  env : List (String × String)
  /-- The files, the stand-ins among them. -/
  tree : Tree
  /-- What the client does. -/
  client : ClientScript := {}
  /-- What the monitor prints. -/
  monitor : List MonitorPart := []
  /-- What is awaited before the program is stopped. -/
  awaited : Option Awaited := none

/-- A machine. -/
structure Machine where
  /-- What the program is run with. -/
  setup : MachineSetup
  /-- The environment of the program that runs now. -/
  env : List (String × String)
  /-- The files. -/
  tree : Tree
  /-- The client. -/
  client : Port StandIn
  /-- The arguments of every start of a client. -/
  clientArgs : List (List String) := []
  /-- The starts of monitors. -/
  monitors : Nat := 0
  /-- The strokes made, as the arguments of the program that makes them. -/
  strokes : List (List String) := []
  /-- The records written to the log. -/
  records : List Log.Record := []
  /-- Everything that was awaited has come. -/
  settled : Bool := false

/-- How a program ends. -/
structure Outcome where
  /-- The number it exits with; none if it still runs. -/
  exit : Option Nat
  /-- What it has printed. -/
  output : String := ""
  /-- What it has printed on its error output. -/
  complaint : String := ""

/-- The program at work. -/
structure Image where
  /-- The relay. -/
  relay : Relay StandIn
  /-- The adapter. -/
  identity : Identity
  /-- What the relay is given. -/
  settings : RelaySettings
  /-- The path of the queue. -/
  queueDir : String
  /-- The key table. -/
  table : KeyTable
  /-- How strokes are made. -/
  injector : Injector
  /-- The reader of the monitor. -/
  monitor : Power.Monitor := {}
  /-- What the monitor has not printed yet. -/
  parts : List MonitorPart
  /-- How many codes have been made into strokes. -/
  struck : Nat := 0
  /-- Which records are written. -/
  writes : Log.Record → Bool

namespace Machine

/-- The time of everything on the machine. -/
def now : Time.Stamp := ⟨⟨2024, 1, 1⟩, 0, 0, 0, 0⟩

/-- The environment of the program that runs now. -/
def environment (m : Machine) : Environment := fun name => m.env.lookup name

/-- The folders in which programs are looked for. -/
def searchPath (m : Machine) : Option (List String) := (m.environment "PATH").map (Text.pieces ':')

/-- What is in the way of starting a program with arguments. -/
def startFault? (m : Machine) (args : List String) (name : String) : Option Fault :=
  m.tree.startFault? (m.searchPath.getD ["/bin", "/usr/bin"]) name args

/-- The file of the client, which it removes when it exits by itself. -/
def clientPath : Path := Tree.home ++ ["bin", "cec-client"]

/-- Writes a record, if it is one that is written. -/
def record (m : Machine) (writes : Log.Record → Bool) (r : Log.Record) : Machine :=
  if writes r then { m with records := m.records ++ [r] } else m

/-! ### Starting -/

/-- What stands where a configuration file is looked for. -/
def configAt (m : Machine) (path : String) : Except Failure Config :=
  match m.tree.find path with
  | .error fault => .error (.error (.cannotReadConfig path fault))
  | .ok p =>
    ConfigFile.ofSource path (match m.tree.node? p with
      | none => .missing
      | some .folder => .folder
      | some (.file bytes) => .file bytes
      | some .program => .file [])

/-- What the configuration file says. -/
def fileConfig (m : Machine) (o : Options) : Except Failure Config :=
  match o.config with
  | some path => m.configAt path
  | none =>
    if m.tree.isFile ConfigFile.defaultPath then m.configAt ConfigFile.defaultPath else .ok {}

/-- What is in the way of starting the client for an adapter. -/
def obstacle (m : Machine) (i : Identity) (binary : String) : Option RelayError :=
  (m.startFault? (Client.arguments i) binary).map (RelayError.cannotStartClient binary)

/-- The machine without the client. -/
def withoutClient (m : Machine) : Machine := { m with tree := m.tree.remove clientPath }

/-- The machine with the client made ready for an adapter. -/
def withClient (m : Machine) (i : Identity) (binary : String) : Machine :=
  { m with client := { m.client with inner :=
    { m.client.inner with
      obstacle := m.obstacle i binary
      laterObstacle := m.withoutClient.obstacle i binary } } }

/-- The result of starting the monitor. -/
def monitorStart (m : Machine) : Except RelayError Unit :=
  match m.startFault? Power.monitorArguments Power.monitorProgram with
  | none => .ok ()
  | some fault => .error (Power.cannotStart Power.monitorProgram fault)

/-- The machine with new starts of the client noted. -/
def noteClients (m : Machine) (i : Identity) (port : Port StandIn) : Machine :=
  let fresh := port.inner.starts - m.client.inner.starts
  { m with
    client := port
    clientArgs := m.clientArgs ++ List.replicate fresh (Client.arguments i) }

/-- The records that are written with a configuration; none when the program breaks off before it
writes any. -/
def writes? (m : Machine) (c : Config) (debug : Bool) : Option (Log.Record → Bool) :=
  (Log.filterOf? c.log debug m.environment).map fun filter r =>
    Log.isJson c.log m.environment && filter.passes r

/-- Starts the relay with a configuration. -/
def launch (m : Machine) (c : Config) (writes : Log.Record → Bool) :
    Machine × Except Failure Image :=
  let s : Startup := .ofConfig c m.environment "*" now
  let queueDir := s.queueDir
  let m := (m.record writes (.starting c queueDir s.fresh)).withClient s.identity c.adapter.client
  let (tree, place) := m.tree.queueAt queueDir
  let l := Launched.start StandIn.adapter s m.monitorStart place m.client
  let m := { m.noteClients s.identity l.port with tree := tree.putQueue queueDir l.place }
  match l.relay with
  | .error .broken => (m, .error .broken)
  | .error (.error cause) => (m.record writes (.failed cause), .error (.error cause))
  | .ok relay =>
    let active := c.power.active
    let m := if active then { m with monitors := m.monitors + 1 } else m
    (m, .ok
      { relay := relay
        identity := s.identity
        settings := s.settings "cec-controller" m.setup.args
        queueDir := queueDir
        table := (KeyTable.ofOverrides c.keymap.overrides).1
        injector := (Injector.build m.tree.isFile m.searchPath c.keymap.injector).1
        parts := if active then m.setup.monitor else []
        writes := writes })

/-! ### Work -/

/-- A part of what the monitor prints is due. -/
def isDue (s : StandIn) (p : MonitorPart) : Bool :=
  p.afterLines ≤ s.received.length && (!p.afterExit || (0 < s.starts && !s.running))

/-- The monitor prints the next part. -/
def printed (i : Image) : Image :=
  match i.parts with
  | p :: parts =>
    let (events, monitor) := i.monitor.push p.bytes
    { i with
      relay := i.relay.stored now (events.map .power)
      monitor := monitor
      parts := parts }
  | [] => i

/-- The keys that the client has reported are stored. -/
def forwarded (i : Image) : Image :=
  let port := i.relay.hardware.port
  let relay := i.relay.stored now (port.inner.keys.map .key)
  let port := { port with inner := { port.inner with keys := [] } }
  { i with relay := { relay with hardware := { relay.hardware with port := port } } }

/-- The relay works until it has to wait. -/
def atRest (i : Image) : Image := { i with relay := i.relay.worked StandIn.adapter i.settings }

/-- Something that comes to the relay from beside it: keys if there are any, else what the monitor
prints. Keys are there at once, while the monitor looks only now and then whether a part is due. -/
def arrival? (i : Image) : Option Image :=
  let s := i.relay.hardware.port.inner
  if i.relay.cancelled then none
  else if !s.keys.isEmpty then some (forwarded i)
  else match i.parts with
    | p :: _ => if isDue s p then some (printed i) else none
    | [] => none

/-- Everything works until nothing moves, with at most `fuel` arrivals. -/
def rounds : Nat → Image → Image
  | 0, i => atRest i
  | fuel + 1, i =>
    let i := atRest i
    match arrival? i with
    | some i => rounds fuel i
    | none => i

/-- More arrivals than there can be: every one is a part, or the keys of lines that a part or a stored
event has brought about. -/
def roundFuel (i : Image) : Nat := 2 * i.parts.length + i.relay.live.queue.journal.len + 16

/-- The machine with what the program has done on it. -/
def absorb (m : Machine) (i : Image) : Machine × Image :=
  let codes := i.relay.pressed.drop i.struck
  let made := (i.table.strokes codes).filterMap fun stroke =>
    (i.injector.make (m.startFault? (Injector.arguments stroke)) true stroke).1
  let m := m.noteClients i.identity i.relay.hardware.port
  let m := if m.client.inner.exited then m.withoutClient else m
  ({ m with
      tree := m.tree.putQueue i.queueDir i.relay.live.disk.place
      strokes := m.strokes ++ made },
    { i with struck := i.relay.pressed.length })

/-- What was awaited has come. -/
def hasCome (m : Machine) (a : Awaited) : Bool :=
  a.clients ≤ m.client.inner.starts && a.monitors ≤ m.monitors &&
    a.lines ≤ m.client.inner.received.length && a.strokes ≤ m.strokes.length

/-- How a run of the program goes on. -/
inductive Next
  /-- It has ended. -/
  | ended (o : Outcome)
  /-- It has been replaced. -/
  | replaced (own : List (String × String))

/-- What follows the end of a relay. -/
def ending (m : Machine) (i : Image) (result : Except RelayError Exit) : Machine × Next :=
  match result with
  | .ok .restarted =>
    (m, .replaced ((i.relay.plans.getLast?.map RestartPlan.env).getD []))
  | .ok e => (m.record i.writes (.stopped e), .ended { exit := some 0 })
  | .error cause => (m.record i.writes (.failed cause), .ended { exit := some 1 })

/-- Runs the program until it ends, is replaced or waits for good. -/
def work (m : Machine) (i : Image) : Machine × Next :=
  let (m, i) := m.absorb (rounds (roundFuel i) i)
  match i.relay.result? with
  | some result => m.ending i result
  | none =>
    match m.setup.awaited with
    | none => (m, .ended { exit := none })
    | some a =>
      if m.hasCome a then
        let i := rounds (roundFuel i) { i with relay := i.relay.asked }
        let (m, i) := { m with settled := true }.absorb i
        match i.relay.result? with
        | some result => m.ending i result
        | none => (m, .ended { exit := none })
      else (m, .ended { exit := none })

/-- The complaint about an error before the log is open. -/
def complaint (cause : RelayError) : String := CommandLine.programName ++ ": " ++ cause.message

/-- The number with which a program exits that breaks off. -/
def brokenExit : Nat := 101

/-- Runs the program once, until it ends or is replaced. -/
def image (m : Machine) : Machine × Next :=
  match Request.ofArguments m.environment m.setup.args with
  | .help =>
    let config := (m.environment Request.configVariable).getD ""
    (m, .ended { exit := some 0, output := CommandLine.help m.environment config })
  | .version => (m, .ended { exit := some 0, output := CommandLine.version })
  | .misuse _ => (m, .ended { exit := some 2 })
  | .run o =>
    match m.fileConfig o with
    | .error (.error cause) => (m, .ended { exit := some 1, complaint := complaint cause })
    | .error .broken => (m, .ended { exit := some brokenExit })
    | .ok file =>
      let (c, _) := file.assemble m.environment (m.environment Config.hostVariable) o
      match m.writes? c o.debug with
      | none => (m, .ended { exit := some brokenExit })
      | some writes =>
        match m.launch c writes with
        | (m, .error .broken) => (m, .ended { exit := some brokenExit })
        | (m, .error (.error _)) => (m, .ended { exit := some 1 })
        | (m, .ok i) => m.work i

/-- Runs the program and those that replace it, at most `fuel` of them. -/
def lineage : Nat → Machine → Machine × Outcome
  | 0, m => (m, { exit := none })
  | fuel + 1, m =>
    match m.image with
    | (m, .ended o) => (m, o)
    | (m, .replaced own) =>
      let others := m.env.filter fun e => (own.lookup e.1).isNone
      lineage fuel { m with env := own ++ others }

/-- The machine before the program runs. -/
def ofSetup (s : MachineSetup) : Machine :=
  { setup := s, env := s.env, tree := s.tree, client := { inner := { script := s.client } } }

/-- Runs the program on a machine. The program is replaced only when the client is gone for good, so
the one that replaces it is the last. -/
def run (s : MachineSetup) : Machine × Outcome := lineage 4 (ofSetup s)

/-- What is seen of a queue's folder. -/
def diskAt (m : Machine) (path : String) : DiskView :=
  match m.tree.find path with
  | .ok p => DiskView.ofPlace (m.tree.placeAt p)
  | .error _ => .missing

end Machine
end CecRelay.Bench
