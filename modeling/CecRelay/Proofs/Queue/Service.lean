import CecRelay.Proofs.Queue.Journal
import CecRelay.Proofs.Queue.Ledger
import CecRelay.Queue.Pump

/-!
# A queue in service

A queue in service takes its steps in any order: producers append, the pump works, consumers receive,
somebody closes it (`Service.Step`). Beside the queue a `Service` keeps what has happened: the lines
found at opening and appended since, and which of their events have been put into the lanes, taken out
and received, each with the position of its line.

Several may close the queue at a time. Whoever does so takes what is ready for the cursor and then, in another
step, moves the cursor; in between the offset is with the closer (`Service.closers`).

What holds at all times is `Service.Sound`. The lines of the log are told in three parts (`View`): those
in front of the ledger, those in the ledger, and those not yet read. The cursor on disk and the offsets
that are ready for it or with a closer are marks of the first part, and everything in the first part has been
received. Behind the lines the log may have what an append has left that broke off, at most one line
(`Service.left`).
-/

namespace CecRelay

open Lines

/-! ### Lanes -/

/-- What is in the lane of a stream. -/
def Queue.lane (q : Queue) : Stream → List Event
  | .keys => q.keys.map .key
  | .power => q.power.map .power

namespace Live

/-- Takes the oldest event out of the lane of a stream. -/
def take? (l : Live) : Stream → Option (Event × Live)
  | .keys => l.takeKey?.map fun (k, l) => (.key k, l)
  | .power => l.takePower?.map fun (p, l) => (.power p, l)

/-- The pump moves the cursor, which cannot be written. -/
def commitFailing (n k : Nat) (l : Live) (stop : Nat) : Live :=
  let (journal, disk) := l.queue.journal.commitFailing n k stop l.disk
  ⟨{ l.queue with journal := journal, ledger := l.queue.ledger.putBack stop, phase := .reading }, disk⟩

/-- The end of closing, when the cursor cannot be written. -/
def endCloseFailing (n k : Nat) (l : Live) (stop : Nat) : Live :=
  let (journal, disk) := l.queue.journal.commitFailing n k stop l.disk
  ⟨{ l.queue with journal := journal }, disk⟩

end Live

/-! ### Steps -/

/-- A queue in service and what has happened to it. The events go by the positions of their lines. -/
structure Service where
  /-- The queue and its disk. -/
  live : Live
  /-- The lines that were to be handed out at opening, and those appended since. -/
  lines : List Bytes
  /-- How many of the lines the pump has read. -/
  count : Nat := 0
  /-- What has been put into the lane of a stream. -/
  handed : Stream → List (Nat × Event) := fun _ => []
  /-- What a consumer has taken out of the lane and not yet marked as received. -/
  held : Stream → List (Nat × Event) := fun _ => []
  /-- What has been received. -/
  got : Stream → List (Nat × Event) := fun _ => []
  /-- Those who close the queue and have taken an offset that was ready for the cursor: whether they remove the
  folder, and the offset. -/
  closers : List (Bool × Nat) := []
  /-- The folder has been removed. -/
  gone : Bool := false

/-- What a step shows to the outside. -/
inductive Happening
  /-- Nothing. -/
  | silent
  /-- An event is accepted under a number. -/
  | accepted (seq : UInt64) (e : Event)
  /-- An event is stored under a number that is told to nobody. -/
  | untold (seq : UInt64) (e : Event)
  /-- An event is received; its line is at a position. -/
  | received (i : Nat) (e : Event)

namespace Service

/-- A queue that has just been opened. -/
def start (l : Live) : Service := { live := l, lines := l.queue.journal.handOut l.disk }

/-- The lines in the log behind those of the queue: at most one, of an append that has broken off. -/
def left (v : Service) : List Bytes := Lines.lines (v.live.disk.log.drop v.live.queue.journal.len)

/-- The position of the line whose event is next in the lane. -/
def position (v : Service) (s : Stream) : Nat :=
  (((v.handed s).drop (v.got s ++ v.held s).length).head?.map Prod.fst).getD 0

/-- The service after a step of the pump: it may have read a line, or put the event of the line it has
read last into its lane. -/
def pumped (v : Service) (l : Live) : Service :=
  match v.live.queue.phase with
  | .reading => { v with live := l, count := if l.queue.phase = .idle then v.count else v.count + 1 }
  | .handing e _ =>
    if l.queue.phase = .stopped then { v with live := l }
    else
      { v with
        live := l
        handed := Function.update v.handed e.stream (v.handed e.stream ++ [(v.count - 1, e)]) }
  | _ => { v with live := l }

/-- The queue is closed and its pump has stopped. -/
def Quiet (v : Service) : Prop := v.live.queue.closed = true ∧ v.live.queue.phase = .stopped

theorem Quiet.not_committing {v : Service} (h : v.Quiet) (stop : Nat) : v.live.queue.phase ≠ .committing stop := by
  intro hphase
  rw [h.2] at hphase
  cases hphase

/-- The steps of a queue in service. Appending and moving the cursor may break off at any point of their
changes, and what they have done by then stays. -/
inductive Step : Service → Happening → Service → Prop
  /-- An event is appended, under a stamp that a clock can show. -/
  | accepted {v : Service} {l : Live} {now : Time.Stamp} {e : Event} {seq : UInt64} : now.Valid →
    v.live.append now e = (l, .ok (some seq)) →
    Step v (.accepted seq e) { v with live := l, lines := v.lines ++ [Envelope.body seq now e] }
  /-- An event is appended, and the program breaks off behind its line. -/
  | untold {v : Service} {l : Live} {now : Time.Stamp} {e : Event} : now.Valid →
    v.live.append now e = (l, .error .broken) →
    Step v (.untold v.live.queue.journal.nextSeq e)
      { v with live := l, lines := v.lines ++ [Envelope.body v.live.queue.journal.nextSeq now e] }
  /-- An event comes to a queue that is closed. -/
  | turnedAway {v : Service} : v.live.queue.closed = true → Step v .silent v
  /-- An event is refused. -/
  | refused {v : Service} {l : Live} {now : Time.Stamp} {e : Event} {cause : RelayError} :
    v.live.append now e = (l, .error (.error cause)) → Step v .silent { v with live := l }
  /-- An append breaks off, and what has been written stays: any part of the line, or all of it. -/
  | refusedPartly {v : Service} {now : Time.Stamp} {e : Event} (n k : Nat) : now.Valid →
    v.live.queue.closed = false →
    Step v .silent
      { v with
        live.disk := Effect.crash n k (v.live.queue.journal.appendEffects v.live.disk.log
          (Envelope.line v.live.queue.journal.nextSeq now e)) v.live.disk }
  /-- The pump is woken. -/
  | notified {v : Service} : Step v .silent { v with live := { v.live with queue := v.live.queue.notify } }
  /-- The pump takes a step. -/
  | pumped {v : Service} {l : Live} : v.live.step? = some l → Step v .silent (v.pumped l)
  /-- The pump moves the cursor, which cannot be written. -/
  | pumpedFailing {v : Service} {stop : Nat} (n k : Nat) : v.live.queue.phase = .committing stop →
    Step v .silent { v with live := v.live.commitFailing n k stop }
  /-- The pump has waited as long as it waits. -/
  | waited {v : Service} : Step v .silent { v with live := v.live.tick }
  /-- A consumer takes an event out of its lane. -/
  | took {v : Service} {l : Live} {s : Stream} {e : Event} : v.live.take? s = some (e, l) →
    Step v .silent
      { v with live := l, held := Function.update v.held s (v.held s ++ [(v.position s, e)]) }
  /-- The consumer marks it as received. -/
  | received {v : Service} {s : Stream} {i : Nat} {e : Event} {rest : List (Nat × Event)} :
    v.held s = (i, e) :: rest →
    Step v (.received i e)
      { v with
        live := v.live.acknowledge s
        held := Function.update v.held s rest
        got := Function.update v.got s (v.got s ++ [(i, e)]) }
  /-- The consumers give up their ends of the lanes. -/
  | deafened {v : Service} : Step v .silent { v with live := v.live.deafen }
  /-- Closing begins. -/
  | closing {v : Service} : Step v .silent { v with live := v.live.beginClose }
  /-- Somebody who closes the queue takes what is ready for the cursor. -/
  | takes {v : Service} (delete : Bool) : v.Quiet →
    Step v .silent
      { v with
        live := v.live.takeReady
        closers := v.live.queue.ledger.ready.toList.map (delete, ·) ++ v.closers }
  /-- The closing ends, and the cursor moves. -/
  | closed {v : Service} {stop : Nat} : (false, stop) ∈ v.closers →
    Step v .silent
      { v with live := (v.live.endClose false (some stop)).1, closers := v.closers.erase (false, stop) }
  /-- The closing ends, and the cursor cannot be written. -/
  | closedFailing {v : Service} {stop : Nat} (n k : Nat) : (false, stop) ∈ v.closers →
    Step v .silent
      { v with live := v.live.endCloseFailing n k stop, closers := v.closers.erase (false, stop) }
  /-- The closing ends, and the folder is removed. -/
  | removed {v : Service} : v.Quiet →
    Step v .silent { v with live := v.live.removeFolder.1, gone := true }

/-- Any number of steps. -/
inductive Reaches (v₀ : Service) : Service → Prop
  /-- None. -/
  | refl : Reaches v₀ v₀
  /-- One more. -/
  | step {v v' : Service} {a : Happening} : Reaches v₀ v → Step v a v' → Reaches v₀ v'

/-! ### What holds at all times -/

/-- What a queue in service started from. -/
structure Origin where
  /-- The lines in front of the cursor. -/
  before : List Bytes
  /-- What was in the cursor's place. -/
  head : Option Entry
  /-- The cursor was not on a mark, and counted as zero. -/
  refused : Prop

/-- What is found at opening. -/
def Origin.found (f : Folder) (log : Bytes) (c : Cursor) : Origin :=
  ⟨Lines.lines (log.take (Journal.startOffset log c)), f.head, Journal.startOffset log c ≠ c.offset⟩

/-- The disk and the log, told as lines. -/
structure View where
  /-- What is in the cursor's place. -/
  head : Option Entry
  /-- The lines of the log in front of those in the ledger. -/
  front : List Bytes
  /-- The lines in the ledger. -/
  opens : List Bytes
  /-- The lines not yet read. -/
  unread : List Bytes
  /-- What is left behind the lines. -/
  extra : Bytes
  /-- The lines read since opening that are no longer in the ledger. -/
  past : List Bytes
  /-- How many events of a stream have been received of those in the ledger. -/
  owed : Stream → Nat
  /-- The line where the journal is. -/
  line : Nat

/-- The lines of the log that are the queue's. -/
def View.lines (w : View) : List Bytes := w.front ++ (w.opens ++ w.unread)

/-- The contents of the log. -/
def View.log (w : View) : Bytes := joined w.lines ++ w.extra

/-- The cursor on disk is the mark of a line in front of the ledger, or it is the one that opening has
refused, and then every line since is still in the log. -/
def View.CursorHolds (w : View) (o : Origin) : Prop :=
  ∃ c, Cursor.ofEntry w.head = .ok c ∧
    ((∃ i ≤ w.front.length, c.offset = mark w.front i) ∨
      o.refused ∧ w.head = o.head ∧ o.before = [] ∧ w.front = w.past)

/-- What is left behind the lines: nothing, or what has been written of a line under the next number. -/
def Leftover (seq : UInt64) (extra : Bytes) : Prop :=
  extra = [] ∨ ∃ now e m, now.Valid ∧ extra = (Envelope.line seq now e).take m

/-- What the journal, the ledger and the disk say in a view. -/
structure Standing (o : Origin) (v : Service) (w : View) : Prop where
  /-- The disk. -/
  disk : v.live.disk.Stands w.log w.head
  /-- The lines of the log. -/
  unbroken : Unbroken w.lines
  /-- What is left behind them. -/
  extra : Leftover v.live.queue.journal.nextSeq w.extra
  /-- The journal. -/
  journal : v.live.queue.journal.At w.lines w.line
  /-- The lines since opening. -/
  whole : v.lines = w.past ++ (w.opens ++ w.unread)
  /-- The pump has read what is not unread. -/
  count : v.count = (w.past ++ w.opens).length
  /-- The log still holds the last lines in front of the ledger, or none of them. -/
  front : w.front <:+ o.before ++ w.past
  /-- The ledger. -/
  slots : v.live.queue.ledger.slots = Ledger.slotsOf w.owed (joined w.front).length w.opens
  /-- No more has been received than was there. -/
  owed : ∀ s, w.owed s ≤ (events s w.opens).length
  /-- Everything in the lines that are no longer in the ledger has been received. -/
  got : ∀ s, (v.got s).length = (events s w.past).length + w.owed s
  /-- What is ready for the cursor is a mark in front of the ledger. -/
  ready : ∀ stop, v.live.queue.ledger.ready = some stop → ∃ i ≤ w.front.length, stop = mark w.front i
  /-- So is the cursor. -/
  cursor : w.CursorHolds o

/-- What those have taken who close the queue. -/
structure Closers (v : Service) (w : View) : Prop where
  /-- There are some only once the pump has stopped. -/
  quiet : v.closers ≠ [] → v.Quiet
  /-- Their offsets are marks in front of the ledger, unless the log is shorter by now. What has become ready
  since is behind them. -/
  taken : ∀ x ∈ v.closers, ∃ i ≤ w.front.length, min x.2 v.live.queue.journal.len = mark w.front i ∧
    (v.live.queue.ledger.ready ≠ none → i < w.front.length)

/-- What has been put into the lanes are the events of all lines read. -/
def View.AllHanded (w : View) (v : Service) : Prop := ∀ s, v.handed s = items s 0 (w.past ++ w.opens)

/-- Where the pump is. -/
def View.InPhase (w : View) (v : Service) : Phase → Prop
  | .top | .reading | .idle => w.AllHanded v ∧ w.line = (w.front ++ w.opens).length
  | .committing stop =>
    w.AllHanded v ∧ w.line = (w.front ++ w.opens).length ∧
      ∃ i ≤ w.front.length, stop = mark w.front i ∧
        (v.live.queue.ledger.ready ≠ none → i < w.front.length)
  | .handing e stop =>
    (∀ s, items s 0 (w.past ++ w.opens) = v.handed s ++ if e.stream = s then [(v.count - 1, e)] else []) ∧
      w.line + 1 = (w.front ++ w.opens).length ∧ stop = (joined (w.front ++ w.opens)).length
  | .moving stop =>
    w.AllHanded v ∧ w.line + 1 = (w.front ++ w.opens).length ∧ stop = (joined (w.front ++ w.opens)).length
  | .stopped => ∀ s, v.handed s <+: items s 0 (w.past ++ w.opens)

/-- What is in the lanes: what has been put there and not been taken. -/
structure Lanes (v : Service) : Prop where
  /-- What has been taken was put there first. -/
  taken : ∀ s, v.got s ++ v.held s <+: v.handed s
  /-- The rest is still there. -/
  lane : v.live.queue.listening = true →
    ∀ s, ((v.handed s).drop (v.got s ++ v.held s).length).map Prod.snd = v.live.queue.lane s
  /-- Nothing is there once the ends have been given up. -/
  deaf : v.live.queue.listening = false → ∀ s, v.live.queue.lane s = []

/-- What holds at all times. -/
inductive Sound (o : Origin) (v : Service) : Prop
  /-- The folder is there. -/
  | standing (w : View) (there : v.gone = false) (core : Standing o v w)
      (phase : w.InPhase v v.live.queue.phase) (lanes : Lanes v) (closers : Closers v w)
  /-- The folder has been removed, and only receipts go on. -/
  | gone (removed : v.gone = true) (quiet : v.Quiet) (put : ∀ s, v.handed s <+: items s 0 v.lines)
      (lanes : Lanes v)

end Service
end CecRelay
