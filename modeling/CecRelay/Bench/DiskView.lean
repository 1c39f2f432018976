import CecRelay.Json.Value
import CecRelay.Queue.Disk

/-!
# What is seen of a queue's folder

A view of the folder that does not depend on the time of day: the log as its lines, with the times
at which events were stored left out, and the cursor as a line and a column of the log.
-/

namespace CecRelay.Bench

/-- A line of a log as seen. -/
inductive LineView
  /-- A line that is closed. -/
  | line (bytes : Bytes)
  /-- What comes after the last newline. -/
  | torn (bytes : Bytes)
  deriving DecidableEq, Repr

/-- A log as seen. -/
inductive LogView
  /-- Its lines. -/
  | lines (ls : List LineView)
  /-- A folder stands in its place. -/
  | folder
  deriving DecidableEq, Repr

/-- A cursor as seen. -/
inductive HeadView
  /-- On a line, so many bytes behind its start. -/
  | at (line col nextSeq : Nat)
  /-- Behind the end of the log. -/
  | pastEnd (nextSeq : Nat)
  /-- No cursor. -/
  | raw (bytes : Bytes)
  /-- A folder stands in its place. -/
  | folder
  deriving DecidableEq, Repr

/-- What stands at a queue's path, as seen. -/
inductive DiskView
  /-- Nothing. -/
  | missing
  /-- A file. -/
  | file
  /-- A folder. -/
  | folder (log : Option LogView) (head : Option HeadView) (others : List String)
  deriving DecidableEq, Repr

namespace DiskView

/-- The bytes in front of the time at which an event was stored. -/
def timeMark : Bytes := Utf8.ofString "\"enqueued_at\":\""

/-- The bytes behind it. -/
def timeEnd : Bytes := Utf8.ofString "\"\x7d"

/-- The byte of a quote. -/
def quote : UInt8 := 0x22

/-- A line with the time at its end replaced by a star. -/
def starred (line : Bytes) : Bytes :=
  let reversed := line.reverse
  if timeEnd.reverse.isPrefixOf reversed then
    let rest := reversed.drop timeEnd.length
    let before := rest.dropWhile (· != quote)
    if timeMark.reverse.isPrefixOf before then before.reverse ++ [0x2A] ++ timeEnd else line
  else line

/-- The lines of a log as seen. -/
def linesOf (log : Bytes) : List LineView :=
  ((Lines.lines log).map fun line => .line (starred line)) ++
    (match Lines.torn log with
      | [] => []
      | bytes => [.torn bytes])

/-- The two numbers of a cursor, if it is nothing else. -/
def cursor? (bytes : Bytes) : Option (Nat × Nat) :=
  match Json.Value.ofBytes? bytes with
  | some (.record [("next_seq", .number (.nat nextSeq)), ("offset", .number (.nat offset))]) =>
    some (offset, nextSeq)
  | _ => none

/-- A cursor as seen. -/
def headOf (log bytes : Bytes) : HeadView :=
  match cursor? bytes with
  | none => .raw bytes
  | some (offset, nextSeq) =>
    if log.length < offset then .pastEnd nextSeq
    else
      let before := log.take offset
      .at (before.count newline) (Lines.torn before).length nextSeq

/-- The contents of a file. -/
def bytesOf : Option Entry → Bytes
  | some (.file bytes) => bytes
  | _ => []

/-- What is seen of a place. -/
def ofPlace : Place → DiskView
  | .missing | .blocked _ => .missing
  | .file _ => .file
  | .folder f =>
    .folder
      (f.log.map fun
        | .folder _ => .folder
        | .file bytes => .lines (linesOf bytes))
      (f.head.map fun
        | .folder _ => .folder
        | .file bytes => headOf (bytesOf f.log) bytes)
      ((if f.tmp.isSome then ["queue.head.tmp"] else []) ++ f.others.map (·.1)).mergeSort

end DiskView
end CecRelay.Bench
