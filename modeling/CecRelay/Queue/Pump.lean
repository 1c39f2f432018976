import CecRelay.Queue.Journal
import CecRelay.Queue.Ledger

/-!
# The queue at work

A queue in use is a journal, a ledger and two lanes of bounded length. Producers append to the
journal; the pump reads the journal line by line and puts each event into the lane of its stream;
the consumer takes events out of the lanes, which marks them in the ledger; and the pump moves the
cursor on disk past what the ledger has settled.

The pump works in small steps (`Live.step?`). Between two of them anything else may happen: an
append, a receipt, the start of closing, the death of the process. When the pump finds nothing to
read it waits for a wake-up, of which one is kept while it is busy (`Queue.wake`).
-/

namespace CecRelay

/-- What the pump does next. -/
inductive Phase
  /-- Look whether it is to stop, and what is ready to be committed. -/
  | top
  /-- Move the cursor on disk to an offset. -/
  | committing (stop : Nat)
  /-- Read the next line. -/
  | reading
  /-- Put an event into its lane, as soon as there is room. -/
  | handing (e : Event) (stop : Nat)
  /-- Move on behind a line. -/
  | moving (stop : Nat)
  /-- Wait for a wake-up. -/
  | idle
  /-- Nothing more, ever. -/
  | stopped
  deriving DecidableEq, Repr

/-- A queue in use. -/
structure Queue where
  /-- The journal. -/
  journal : Journal
  /-- The lines handed out and not yet settled. -/
  ledger : Ledger := {}
  /-- The lane of keys, oldest first. -/
  keys : List KeyPress := []
  /-- The lane of power events, oldest first. -/
  power : List PowerEvent := []
  /-- The length of each lane. -/
  capacity : Nat
  /-- Somebody holds the receiving ends of the lanes. -/
  listening : Bool := true
  /-- What the pump does next. -/
  phase : Phase := .top
  /-- A wake-up is kept for the pump. -/
  wake : Bool := false
  /-- No event is accepted any more. -/
  closed : Bool := false
  /-- The pump is to stop. -/
  cancelled : Bool := false
  deriving DecidableEq, Repr

/-- A queue in use and the disk it works on. -/
structure Live where
  /-- The queue. -/
  queue : Queue
  /-- The disk. -/
  disk : Disk
  deriving DecidableEq, Repr

namespace Queue

/-- A queue on a journal just opened. -/
def ofJournal (j : Journal) (capacity : Nat) : Queue := { journal := j, capacity := max capacity 1 }

/-- There is room in the lane of an event. -/
def hasRoom (q : Queue) : Event → Bool
  | .key _ => q.keys.length < q.capacity
  | .power _ => q.power.length < q.capacity

/-- The event goes to the end of its lane. -/
def push (q : Queue) : Event → Queue
  | .key k => { q with keys := q.keys ++ [k] }
  | .power p => { q with power := q.power ++ [p] }

/-- Wakes the pump, or keeps the wake-up for when it next waits. -/
def notify (q : Queue) : Queue := { q with wake := true }

end Queue

namespace Live

/-! ### The pump -/

/-- One step of the pump; none while it has to wait. -/
def step? (l : Live) : Option Live :=
  let q := l.queue
  match q.phase with
  | .top =>
    if q.cancelled then some { l with queue := { q with phase := .stopped } }
    else match q.ledger.takeReady with
      | (some stop, ledger) =>
        some { l with queue := { q with ledger := ledger, phase := .committing stop } }
      | (none, _) => some { l with queue := { q with phase := .reading } }
  | .committing stop =>
    let (journal, disk, fault) := q.journal.commit stop l.disk
    let ledger := if fault.isSome then q.ledger.putBack stop else q.ledger
    some ⟨{ q with journal := journal, ledger := ledger, phase := .reading }, disk⟩
  | .reading =>
    match q.journal.peek l.disk with
    | none => some { l with queue := { q with phase := .idle } }
    | some (line, stop) =>
      match Envelope.decode? line with
      | none =>
        some { l with queue := { q with ledger := q.ledger.passedOver stop, phase := .moving stop } }
      | some (_, e) =>
        some { l with
          queue := { q with ledger := q.ledger.handedOut e.stream stop, phase := .handing e stop } }
  | .handing e stop =>
    if q.cancelled || !q.listening then some { l with queue := { q with phase := .stopped } }
    else if q.hasRoom e then some { l with queue := { q.push e with phase := .moving stop } }
    else none
  | .moving stop =>
    some { l with queue := { q with journal := q.journal.advance stop, phase := .top } }
  | .idle =>
    if q.cancelled then some { l with queue := { q with phase := .stopped } }
    else if q.wake then some { l with queue := { q with wake := false, phase := .top } }
    else none
  | .stopped => none

/-- At most `fuel` steps of the pump. -/
def steps : Nat → Live → Live
  | 0, l => l
  | fuel + 1, l =>
    match l.step? with
    | some l => steps fuel l
    | none => l

/-- The pump works until it has to wait. Between two lines it takes at most five steps, and every
line takes a byte of the log. -/
def settle (l : Live) : Live := steps (6 * (l.queue.journal.len - l.queue.journal.read + 4)) l

/-- The longest wait of the pump is over. -/
def tick (l : Live) : Live :=
  match l.queue.phase with
  | .idle => { l with queue := { l.queue with phase := .top } }
  | _ => l

/-! ### Producers -/

/-- Appends an event, unless the queue is closed. -/
def append (l : Live) (now : Time.Stamp) (e : Event) : Live × Except Failure (Option UInt64) :=
  if l.queue.closed then (l, .ok none)
  else
    match l.queue.journal.append now e l.disk with
    | (journal, disk, result) => (⟨{ l.queue with journal := journal }, disk⟩, result.map some)

/-- Stores an event and wakes the pump. When the program has broken off behind the line nobody is told
the number, nor is the pump woken. -/
def enqueue (l : Live) (now : Time.Stamp) (e : Event) : Live × Option UInt64 :=
  match l.append now e with
  | (l, .ok (some seq)) => ({ l with queue := l.queue.notify }, some seq)
  | (l, _) => (l, none)

/-! ### The consumer -/

/-- Takes the oldest key out of its lane. -/
def takeKey? (l : Live) : Option (KeyPress × Live) :=
  match l.queue.keys with
  | [] => none
  | k :: keys => some (k, { l with queue := { l.queue with keys := keys } })

/-- Takes the oldest power event out of its lane. -/
def takePower? (l : Live) : Option (PowerEvent × Live) :=
  match l.queue.power with
  | [] => none
  | p :: power => some (p, { l with queue := { l.queue with power := power } })

/-- Marks an item of a stream as received and wakes the pump. -/
def acknowledge (l : Live) (stream : Stream) : Live :=
  { l with queue := { l.queue with ledger := l.queue.ledger.received stream }.notify }

/-- Receives the oldest key. -/
def receiveKey? (l : Live) : Option (KeyPress × Live) :=
  l.takeKey?.map fun (k, l) => (k, l.acknowledge .keys)

/-- Receives the oldest power event. -/
def receivePower? (l : Live) : Option (PowerEvent × Live) :=
  l.takePower?.map fun (p, l) => (p, l.acknowledge .power)

/-- Nothing more will ever be put into the lanes. -/
def ended (l : Live) : Bool := l.queue.phase = .stopped

/-- The receiving ends of the lanes are given up, with what is in the lanes. -/
def deafen (l : Live) : Live :=
  { l with queue := { l.queue with listening := false, keys := [], power := [] } }

/-! ### Closing -/

/-- From now on no event is accepted, and the pump is to stop. -/
def beginClose (l : Live) : Live :=
  { l with queue := { l.queue with closed := true, cancelled := true } }

/-- The pump goes on to its end. Once it is to stop it takes at most five steps. -/
def awaitPump (l : Live) : Live := steps 5 l

/-- Removes the folder with all that is in it; what is missing counts as removed. -/
def removeFolder (l : Live) : Live × Except RelayError Unit :=
  match l.disk.place with
  | .folder f =>
    match f.removal with
    | .whole => ({ l with disk := ⟨.missing, some l.disk.log⟩ }, .ok ())
    | .emptied fault =>
      ({ l with disk := ⟨.folder { removal := f.removal }, some l.disk.log⟩ }, .error (.io fault))
    | .unfound => (l, .ok ())
  | .missing => (l, .ok ())
  | .file _ => (l, .error (.io .notFolder))
  | .blocked fault => (l, .error (.io fault))

/-- What was ready for the cursor has been taken. -/
def takeReady (l : Live) : Live :=
  { l with queue := { l.queue with ledger := l.queue.ledger.takeReady.2 } }

/-- The end of closing, with what has been taken. The folder is removed, or the cursor moved; that
this may fail makes no difference to the closing. -/
def endClose (l : Live) (delete : Bool) (ready : Option Nat) : Live × Except RelayError Unit :=
  if delete then l.removeFolder
  else
    match ready with
    | none => (l, .ok ())
    | some stop =>
      let (journal, disk, _) := l.queue.journal.commit stop l.disk
      (⟨{ l.queue with journal := journal }, disk⟩, .ok ())

/-- The end of closing, once the pump has stopped: what is ready is taken, and then the closing ends. -/
def finishClose (l : Live) (delete : Bool) : Live × Except RelayError Unit :=
  l.takeReady.endClose delete l.queue.ledger.ready

/-- Stops the queue. The folder is deleted or the log kept for the next queue on it. -/
def close (l : Live) (delete : Bool) : Live × Except RelayError Unit :=
  l.beginClose.awaitPump.finishClose delete

end Live

/-- The greatest length of a lane. -/
def Queue.longest : Nat := 0x1FFFFFFFFFFFFFFF

/-- Opens the queue at a path. Lanes of a length that cannot be had break the program off, once the
journal has been opened. -/
def Queue.open? (path : String) (capacity : Nat) (place : Place) : Place × Except Failure Queue :=
  match Journal.open place with
  | (place, .ok j) =>
    (place, if capacity ≤ longest then .ok (.ofJournal j capacity) else .error .broken)
  | (place, .error (.error cause)) => (place, .error (.error (.cannotOpenQueue path cause)))
  | (place, .error .broken) => (place, .error .broken)

end CecRelay
