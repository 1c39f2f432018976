import CecRelay.Queue.Cursor
import CecRelay.Queue.Disk
import CecRelay.Queue.Envelope

/-!
# The journal: a log with a cursor

A journal appends events to a log, reads its lines in order and moves the cursor on disk past those
that have been delivered. The new cursor is written beside the old one and then takes its place, so
a crash leaves one of the two. When all lines have been delivered the log is emptied, and the cursor
goes back to the start *before* that: a crash in between replays lines and skips none.

Opening repairs what a crash has left: a line without its end is cut off, and a cursor that is not
on a line boundary of the log counts as zero.

The events are numbered one by one. There is no number after the greatest, and where one is asked for
the program breaks off: when a journal is opened on a log whose last line has the greatest number, and
when that line has just been appended.
-/

namespace CecRelay

/-- A journal in use. What it knows of the disk is kept here; the disk itself is `Disk`. -/
structure Journal where
  /-- The cursor, as last written or tried to write. -/
  head : Cursor
  /-- The offset of the next line to read. -/
  read : Nat
  /-- The length of the log; bytes behind it are left over from an append that failed. -/
  len : Nat
  /-- The number of the next event. -/
  nextSeq : UInt64
  deriving DecidableEq, Repr

namespace Journal

/-! ### Opening -/

/-- The path with a folder in it. -/
def madeFolder : Place → Except Fault Folder
  | .missing => .ok {}
  | .file _ => .error .exists
  | .blocked fault => .error fault
  | .folder f => .ok f

/-- The folder with a log in it, and the contents of the log. -/
def madeLog (f : Folder) : Except Fault (Folder × Bytes) :=
  match f.log with
  | none => .ok ({ f with log := some (.file []) }, [])
  | some (.file bytes) => .ok (f, bytes)
  | some (.folder _) => .error .isFolder

/-- The number of the last line that can be read. -/
def lastSeq? (ls : List Bytes) : Option UInt64 :=
  (ls.filterMap fun line => (Envelope.ofBytes? line).map Envelope.seq).getLast?

/-- The offset where reading starts: that of the cursor, if it is on a line boundary. -/
def startOffset (log : Bytes) (head : Cursor) : Nat :=
  if head.offset ≤ log.length ∧ Lines.onBoundary log head.offset then head.offset else 0

/-- The number after one; none after the greatest. -/
def succ? (seq : UInt64) : Option UInt64 := if seq.toNat + 1 < UInt64.size then some (seq + 1) else none

/-- The first number behind these lines; none when the last of them has the greatest. -/
def fresh? (ls : List Bytes) : Option UInt64 :=
  match lastSeq? ls with
  | none => some 0
  | some seq => succ? seq

/-- A journal on a log from which the torn end has been cut, and on a cursor. -/
def ofLog (log : Bytes) (head : Cursor) : Except Failure Journal :=
  let start := startOffset log head
  match fresh? (Lines.lines (log.drop start)) with
  | none => .error .broken
  | some fresh =>
    .ok
      { head := { head with offset := start }
        read := start
        len := log.length
        nextSeq := max fresh head.nextSeq }

/-- Opens the journal at a path, making what is missing. -/
def «open» (place : Place) : Place × Except Failure Journal :=
  match madeFolder place with
  | .error fault => (place, .error (.error (.io fault)))
  | .ok f =>
    match madeLog f with
    | .error fault => (.folder f, .error (.error (.io fault)))
    | .ok (f, log) =>
      match Cursor.ofEntry f.head with
      | .error fault => (.folder f, .error (.error (.io fault)))
      | .ok head =>
        let whole := Lines.complete log
        (.folder { f with log := some (.file whole) },
          ofLog whole { head with offset := startOffset log head })

/-! ### Appending -/

/-- The changes that put a line at the end of the log. -/
def appendEffects (j : Journal) (log line : Bytes) : List Effect :=
  (if j.len < log.length then [.cutLog j.len] else []) ++ [.extendLog line]

/-- Appends an event and tells its number. When that is the greatest the program breaks off behind the
line, and its number is not told and stays the next one. -/
def append (j : Journal) (now : Time.Stamp) (e : Event) (d : Disk) :
    Journal × Disk × Except Failure UInt64 :=
  let line := Envelope.line j.nextSeq now e
  match Effect.run (j.appendEffects d.log line) d with
  | (d, none) =>
    let longer := { j with len := j.len + line.length }
    match succ? j.nextSeq with
    | some next => ({ longer with nextSeq := next }, d, .ok j.nextSeq)
    | none => (longer, d, .error .broken)
  | (d, some fault) => (j, (Effect.run [.cutLog j.len] d).1, .error (.error (.io fault)))

/-! ### Reading -/

/-- The next line, without its newline, and the offset behind it. -/
def peek (j : Journal) (d : Disk) : Option (Bytes × Nat) :=
  if j.len ≤ j.read then none
  else (Lines.firstLine? (d.log.drop j.read)).map fun (line, _) =>
    (line, j.read + line.length + 1)

/-- Moves on behind a line that has been read. -/
def advance (j : Journal) (stop : Nat) : Journal := { j with read := max j.read (min stop j.len) }

/-! ### Moving the cursor -/

/-- The changes that replace the cursor on disk. -/
def headEffects (head : Cursor) : List Effect := [.openTmp, .fillTmp head.bytes, .publishTmp]

/-- The changes that empty the log. -/
def compactEffects (j : Journal) : List Effect := headEffects ⟨0, j.nextSeq⟩ ++ [.cutLog 0]

/-- Every line is before `stop`. -/
def delivered (j : Journal) (stop : Nat) : Prop := j.len ≤ stop ∧ 0 < j.len

instance (j : Journal) (stop : Nat) : Decidable (j.delivered stop) :=
  inferInstanceAs (Decidable (_ ∧ _))

/-- Marks everything before `stop` as delivered and moves the cursor on disk. -/
def commit (j : Journal) (stop : Nat) (d : Disk) : Journal × Disk × Option Fault :=
  let j := j.advance stop
  if j.delivered stop then
    match Effect.run j.compactEffects d with
    | (d, none) => ({ j with head := ⟨0, j.nextSeq⟩, len := 0, read := 0 }, d, none)
    | (d, some fault) => (j, d, some fault)
  else
    let head : Cursor := ⟨min stop j.len, j.nextSeq⟩
    let (d, fault) := Effect.run (headEffects head) d
    ({ j with head := head }, d, fault)

/-- The number of bytes not yet delivered. -/
def backlog (j : Journal) : Nat := j.len - j.head.offset

end Journal
end CecRelay
