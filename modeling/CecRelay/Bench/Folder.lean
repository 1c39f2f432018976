import CecRelay.Queue.Disk
import CecRelay.Text.NameTable
import CecRelay.Text.Search

/-!
# Changes to a queue's folder from outside

Somebody else may write, make and remove what stands in the folder of a queue or deeper in it. Each
of these either works or is refused. Folders that are missing on the way to what is written or made
are made too.
-/

namespace CecRelay.Bench

/-- A name in the folder of a queue. -/
inductive Name
  /-- The folder's own path. -/
  | self
  /-- The log. -/
  | log
  /-- The cursor. -/
  | head
  /-- The cursor to come. -/
  | tmp
  /-- Any other name. -/
  | other (name : String)
  deriving DecidableEq, Repr

namespace Name

/-- The name that a text is. -/
def ofString (s : String) : Name :=
  if s = "queue.log" then .log
  else if s = "queue.head" then .head
  else if s = "queue.head.tmp" then .tmp
  else .other s

/-- What has a name in a folder. -/
def entry? (n : Name) (f : Folder) : Option Entry :=
  match n with
  | .self => some (.folder [])
  | .log => f.log
  | .head => f.head
  | .tmp => f.tmp
  | .other name => f.others.lookup name

/-- The folder with something else under a name. -/
def setEntry (n : Name) (f : Folder) (e : Option Entry) : Folder :=
  match n with
  | .self => f
  | .log => { f with log := e }
  | .head => { f with head := e }
  | .tmp => { f with tmp := e }
  | .other name =>
    let others := f.others.filter (·.1 != name)
    { f with others := match e with
      | none => others
      | some e => NameTable.insert name e others }

end Name

/-- A spot in the folder of a queue: a name, and names that lead on from it. -/
structure Spot where
  /-- The name in the folder. -/
  name : Name
  /-- The names below that. -/
  below : List String := []
  deriving DecidableEq, Repr

/-- The spot that a path leads to. -/
def Spot.ofString (s : String) : Spot :=
  match (Text.pieces '/' s).filter fun name => name != "" && name != "." with
  | [] => ⟨.self, []⟩
  | name :: below => ⟨.ofString name, below⟩

/-! ### In a folder -/

namespace Inside

/-- The ways to a path and to every folder above it. -/
def waysTo (path : List String) : List (List String) :=
  (List.range path.length).map fun n => path.take (n + 1)

/-- A folder, made if nothing is there. None when a file is in the way. -/
def madeFolder (inside : Inside) (path : List String) : Option Inside :=
  match inside.lookup path with
  | some (some _) => none
  | some none => some inside
  | none => some ((path, none) :: inside)

/-- A folder and those above it, made if they are not there. -/
def makeFolder (inside : Inside) (path : List String) : Option Inside :=
  (waysTo path).foldlM madeFolder inside

/-- The contents of a file after writing over it or at its end. -/
def written (anew : Bool) (before bytes : Bytes) : Bytes := if anew then bytes else before ++ bytes

/-- Writes a file, over its contents or at its end. None when that is refused. -/
def write (inside : Inside) (path : List String) (anew : Bool) (bytes : Bytes) : Option Inside := do
  let inside ← makeFolder inside path.dropLast
  match inside.lookup path with
  | some none => none
  | some (some before) =>
    return (path, some (written anew before bytes)) :: inside.filter (·.1 != path)
  | none => return (path, some bytes) :: inside

/-- Removes what a path leads to, with all that is in it. None when nothing is there. -/
def remove (inside : Inside) (path : List String) : Option Inside :=
  match inside.lookup path with
  | none => none
  | some _ => some (inside.filter fun e => !path.isPrefixOf e.1)

end Inside

/-! ### At a queue's path -/

/-- The folder at a place, made if nothing is there. -/
def folderAt? : Place → Option Folder
  | .missing => some {}
  | .folder f => some f
  | .file _ | .blocked _ => none

/-- An entry after writing a file there or below it. None when that is refused. -/
def writtenEntry (old : Option Entry) (below : List String) (bytes : Bytes) (anew : Bool) :
    Option Entry :=
  match old, below with
  | none, [] => some (.file bytes)
  | some (.file before), [] => some (.file (Inside.written anew before bytes))
  | some (.folder _), [] => none
  | none, below => (Inside.write [] below anew bytes).map .folder
  | some (.file _), _ => none
  | some (.folder inside), below => (Inside.write inside below anew bytes).map .folder

/-- Writes a file, over its contents or at its end. None when that is refused. -/
def writeFile (s : Spot) (bytes : Bytes) (anew : Bool) (p : Place) : Option Place :=
  match s.name, p with
  | .self, .missing => some (.file bytes)
  | .self, .file before => some (.file (Inside.written anew before bytes))
  | .self, _ => none
  | name, p => do
    let f ← folderAt? p
    let e ← writtenEntry (name.entry? f) s.below bytes anew
    return .folder (name.setEntry f (some e))

/-- An entry after making a folder there or below it. None when that is refused. -/
def madeEntry (old : Option Entry) (below : List String) : Option Entry :=
  match old with
  | none => (Inside.makeFolder [] below).map .folder
  | some (.file _) => none
  | some (.folder inside) => (Inside.makeFolder inside below).map .folder

/-- Makes a folder; one that is there already will do. -/
def makeFolder (s : Spot) (p : Place) : Option Place := do
  let f ← folderAt? p
  let e ← madeEntry (s.name.entry? f) s.below
  return .folder (s.name.setEntry f (some e))

/-- Removes what a spot holds, with all that is in it. -/
def removeEntry (s : Spot) (p : Place) : Option Place :=
  match s.name, p with
  | .self, .missing | .self, .blocked _ => none
  | .self, _ => some .missing
  | name, .folder f =>
    match name.entry? f, s.below with
    | none, _ => none
    | some _, [] => some (.folder (name.setEntry f none))
    | some (.file _), _ => none
    | some (.folder inside), below =>
      (Inside.remove inside below).map fun inside =>
        .folder (name.setEntry f (some (.folder inside)))
  | _, _ => none

end CecRelay.Bench
