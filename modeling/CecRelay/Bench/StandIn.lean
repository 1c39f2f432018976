import CecRelay.Adapter.Client
import CecRelay.Adapter.Port

/-!
# A stand-in for the client

The stand-in does what a script says: on every line it gets it prints something, and on one of them
it exits. Its keys reach the relay once the relay has asked for them. When the relay has stopped
reading, what the stand-in prints is lost.
-/

namespace CecRelay.Bench

/-- What a stand-in for the client does. -/
structure ClientScript where
  /-- What it prints on each line it gets. -/
  prints : List Bytes := []
  /-- The line on which it exits. -/
  lastLine : Option Nat := none
  deriving DecidableEq, Repr

/-- A stand-in for the client. -/
structure StandIn where
  /-- What it does. -/
  script : ClientScript
  /-- Why it cannot be started. -/
  obstacle : Option RelayError := none
  /-- Why it cannot be started again after it has exited. -/
  laterObstacle : Option RelayError := none
  /-- It has exited by itself. -/
  exited : Bool := false
  /-- It runs. -/
  running : Bool := false
  /-- The lines it has got since it was started. -/
  count : Nat := 0
  /-- The reader of what it prints. -/
  reader : LineStream.Reader := {}
  /-- The relay has asked for its keys. -/
  attached : Bool := false
  /-- Somebody takes the keys. -/
  listening : Bool := true
  /-- The keys that nobody has taken yet. -/
  keys : List KeyPress := []
  /-- All lines that were got. -/
  received : List String := []
  /-- How often it was started. -/
  starts : Nat := 0
  deriving DecidableEq, Repr

namespace StandIn

/-- Keys go to whoever takes them. -/
def pushKeys (s : StandIn) (lines : List (List Char)) : StandIn :=
  if s.attached && s.listening then { s with keys := s.keys ++ Client.keysOfLines lines } else s

/-- The stand-in ends, and with it its output. -/
def stop (s : StandIn) : StandIn :=
  if s.running then { s.pushKeys s.reader.finish with running := false, reader := {} } else s

/-- The stand-in prints something. -/
def print (s : StandIn) (bytes : Bytes) : StandIn :=
  let (lines, reader) := s.reader.push bytes
  { s.pushKeys lines with reader := reader }

/-- The stand-in exits by itself. -/
def exit (s : StandIn) : StandIn := { s.stop with exited := true, obstacle := s.laterObstacle }

/-- The stand-in gets a line. -/
def getLine (s : StandIn) (line : String) : StandIn :=
  let n := s.count + 1
  let s := { s with count := n, received := s.received ++ [line] }
  let s := s.print ((s.script.prints[n - 1]?).getD [])
  if s.script.lastLine = some n then s.exit else s

/-- The stand-in is started. -/
def begin (s : StandIn) : StandIn :=
  { s with running := true, count := 0, reader := {}, attached := false, starts := s.starts + 1 }

/-- The adapter behind the stand-in. -/
def adapter : Adapter StandIn where
  tryOpen s :=
    match s.obstacle with
    | some cause => (.refused cause, s)
    | none => (.opened, s.begin)
  attach s := { s with attached := true }
  send command address s :=
    if s.running then
      let line := Client.line command address
      (.reply (some line), s.getLine line)
    else (.reply none, s)
  close s := s.stop

/-- A step of a session with a stand-in. -/
inductive Step
  /-- The relay asks for keys. -/
  | attach
  /-- Nobody takes the keys any more. -/
  | deafen
  /-- The handle is closed. -/
  | close
  /-- A command is sent. -/
  | send (command : PowerCommand) (address : UInt8)

/-- A step, and whether the command has gone through. -/
def play (s : StandIn) : Step → Option Bool × StandIn
  | .attach => (none, adapter.attach s)
  | .deafen => (none, { s with listening := false })
  | .close => (none, adapter.close s)
  | .send command address =>
    let (answer, s) := adapter.send command address s
    (some answer.accepts, s)

/-- Steps in order, and which commands have gone through. In the end the handle is closed. -/
def playAll : List Step → StandIn → List Bool × StandIn
  | [], s => ([], adapter.close s)
  | step :: steps, s =>
    let (accepted, s) := s.play step
    let (replies, s) := playAll steps s
    (accepted.toList ++ replies, s)

end StandIn
end CecRelay.Bench
