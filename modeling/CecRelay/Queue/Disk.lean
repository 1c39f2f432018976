import CecRelay.Error
import CecRelay.Queue.Lines

/-!
# The queue's folder and what is done to it

The queue keeps a log, a cursor and, while the cursor is replaced, the cursor to come. What may
stand in their place after a crash, or after somebody else has been there, is an `Entry`. Every
change the queue makes is one of a few effects on the file system (`Effect`); an operation is a
list of them, and a crash leaves the work of a first part of that list behind.

A log that is open stays open when its name is removed. Such a log is an orphan: it is still
written, and nobody will ever find it.
-/

namespace CecRelay

/-- What is in a folder, by the names that lead to it: files with their contents, and folders. -/
abbrev Inside := List (List String × Option Bytes)

/-- Something that has a name in a folder. -/
inductive Entry
  /-- A file with its contents. -/
  | file (bytes : Bytes)
  /-- A folder and what is in it. -/
  | folder (inside : Inside)
  deriving DecidableEq, Repr

/-- What becomes of a folder that is removed with all that is in it. It hangs on the path by which the
folder is named. -/
inductive Removal
  /-- The folder is removed. -/
  | whole
  /-- The folder is emptied; removing it is refused, as its path ends in a dot or two. -/
  | emptied (fault : Fault)
  /-- Nothing; the path is empty, and so nothing is found by it. -/
  | unfound
  deriving DecidableEq, Repr

/-- The folder of a queue. -/
structure Folder where
  /-- The log. -/
  log : Option Entry := none
  /-- The cursor. -/
  head : Option Entry := none
  /-- The cursor to come. -/
  tmp : Option Entry := none
  /-- Anything else, by name. -/
  others : List (String × Entry) := []
  /-- What becomes of the folder when it is removed. -/
  removal : Removal := .whole
  deriving DecidableEq, Repr

/-- What stands at the queue's path. -/
inductive Place
  /-- Nothing. -/
  | missing
  /-- A file. -/
  | file (bytes : Bytes)
  /-- Nothing, and something is in the way of making a folder there. -/
  | blocked (fault : Fault)
  /-- A folder. -/
  | folder (f : Folder)
  deriving DecidableEq, Repr

/-- What a queue that has its log open finds on disk. -/
structure Disk where
  /-- What stands at the path. -/
  place : Place
  /-- The contents of the open log, once its name has been removed. -/
  orphan : Option Bytes := none
  deriving DecidableEq, Repr

/-- The largest size of a file. -/
def maxFileSize : Nat := 0x7FFFFFFFFFFFFFFF

/-- A change to the file system. -/
inductive Effect
  /-- The log is cut to a length. -/
  | cutLog (length : Nat)
  /-- Bytes are put at the end of the log. -/
  | extendLog (bytes : Bytes)
  /-- The cursor to come is made, or emptied. -/
  | openTmp
  /-- Bytes are put at the end of the cursor to come. -/
  | fillTmp (bytes : Bytes)
  /-- The cursor to come takes the place of the cursor. -/
  | publishTmp
  deriving DecidableEq, Repr

namespace Disk

/-- The contents of the open log. -/
def log (d : Disk) : Bytes :=
  match d.orphan, d.place with
  | some bytes, _ => bytes
  | none, .folder { log := some (.file bytes), .. } => bytes
  | none, _ => []

/-- The disk with other contents of the open log. -/
def setLog (d : Disk) (bytes : Bytes) : Disk :=
  match d.orphan, d.place with
  | some _, _ => { d with orphan := some bytes }
  | none, .folder f => { d with place := .folder { f with log := some (.file bytes) } }
  | none, _ => d

/-- The folder at the path. -/
def folder? (d : Disk) : Except Fault Folder :=
  match d.place with
  | .folder f => .ok f
  | .missing => .error .missing
  | .file _ => .error .notFolder
  | .blocked fault => .error fault

end Disk

namespace Effect

/-- The contents of a file cut to a length, or filled up to it with zeros. -/
def resized (length : Nat) (bytes : Bytes) : Bytes :=
  bytes.take length ++ List.replicate (length - bytes.length) 0

/-- The disk after a change. -/
def apply (e : Effect) (d : Disk) : Except Fault Disk :=
  match e with
  | cutLog length => .ok (d.setLog (resized length d.log))
  | extendLog bytes =>
    if d.log.length + bytes.length ≤ maxFileSize then .ok (d.setLog (d.log ++ bytes))
    else .error .tooLarge
  | openTmp => do
    let f ← d.folder?
    match f.tmp with
    | some (.folder _) => .error .isFolder
    | _ => .ok { d with place := .folder { f with tmp := some (.file []) } }
  | fillTmp bytes => do
    let f ← d.folder?
    match f.tmp with
    | some (.file old) =>
      .ok { d with place := .folder { f with tmp := some (.file (old ++ bytes)) } }
    | _ => .error .missing
  | publishTmp => do
    let f ← d.folder?
    match f.head with
    | some (.folder _) => .error .isFolder
    | _ => .ok { d with place := .folder { f with head := f.tmp, tmp := none } }

/-- The disk after a list of changes, up to the first that is refused. -/
def run : List Effect → Disk → Disk × Option Fault
  | [], d => (d, none)
  | e :: es, d =>
    match e.apply d with
    | .ok d => run es d
    | .error fault => (d, some fault)

@[simp] theorem run_nil (d : Disk) : run [] d = (d, none) := rfl

/-- Two lists of changes one after the other. -/
theorem run_append (es fs : List Effect) (d : Disk) :
    run (es ++ fs) d =
      match run es d with
      | (d, none) => run fs d
      | (d, some fault) => (d, some fault) := by
  induction es generalizing d with
  | nil => rfl
  | cons e es ih =>
    simp only [List.cons_append, run]
    split
    · exact ih _
    · rfl

end Effect
end CecRelay
