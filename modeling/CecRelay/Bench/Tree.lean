import CecRelay.Queue.Disk
import CecRelay.Text.NameTable
import CecRelay.Text.Search

/-!
# Folders, files and programs of a machine

A machine's file system is a list of paths with what stands there. A path is followed name by name;
on the way everything must be a folder, and no name and no path may be too long. A folder is made
together with those above it, in the way in which one tries the whole path first and what is above it
only if that is missing. A program is a file that can be run; one whose name is no path is looked for
in the folders of a search path.
-/

namespace CecRelay.Bench

/-- A path, name by name from the root. -/
abbrev Path := List String

/-- What stands at a path. -/
inductive Node
  /-- A folder. -/
  | folder
  /-- A file that cannot be run. -/
  | file (bytes : Bytes)
  /-- A file that can be run. -/
  | program
  deriving DecidableEq, Repr

/-- A file system. -/
abbrev Tree := List (Path × Node)

namespace Tree

/-- The folder in which all that belongs to a session lies. -/
def home : Path := ["tmp", "relay-home"]

/-- Folders that every machine has. -/
def commonFolders : List Path :=
  [["bin"], ["boot"], ["dev"], ["etc"], ["home"], ["lib"], ["mnt"], ["opt"], ["proc"], ["root"],
   ["run"], ["sbin"], ["srv"], ["sys"], ["tmp"], ["usr"], ["usr", "bin"], ["usr", "lib"],
   ["usr", "local"], ["usr", "local", "bin"], ["usr", "sbin"], ["usr", "share"], ["var"],
   ["var", "lib"], ["var", "log"], ["var", "tmp"]]

/-- Files that every machine has. -/
def commonFiles : List (Path × String) :=
  [(["dev", "null"], ""), (["dev", "full"], ""), (["dev", "tty"], ""), (["dev", "urandom"], ""),
   (["dev", "zero"], ""), (["etc", "group"], "root:x:0:\n"), (["etc", "hostname"], "localhost\n"),
   (["etc", "hosts"], "127.0.0.1 localhost\n"), (["etc", "os-release"], "NAME=Linux\n"),
   (["etc", "passwd"], "root:x:0:0:root:/root:/bin/sh\n")]

/-- What every machine has. -/
def common : Tree :=
  commonFolders.map (·, .folder) ++
    commonFiles.map fun (path, text) => (path, .file (Utf8.ofString text))

/-- What stands at a path. -/
def node? (t : Tree) (p : Path) : Option Node := if p = [] then some .folder else t.lookup p

/-- The file system with something at a path, in folders that are made if they are not there. -/
def put (t : Tree) (p : Path) (n : Node) : Tree :=
  let parents := (List.range p.length).map p.take
  let missing := parents.filter fun q => (t.node? q).isNone
  missing.map (·, .folder) ++ (p, n) :: t.filter (·.1 != p)

/-- The file system without a path and all that is below it. -/
def remove (t : Tree) (p : Path) : Tree := t.filter fun (q, _) => !p.isPrefixOf q

/-! ### Following a path -/

/-- A path with the mark that stands for home spelled out. -/
def spelled : List Char → List Char
  | '$' :: 'D' :: 'I' :: 'R' :: s => (String.join (home.map ("/" ++ ·))).toList ++ spelled s
  | c :: s => c :: spelled s
  | [] => []

/-- The greatest length of a name, in bytes. -/
def longestName : Nat := 255

/-- The greatest length of a path, in bytes. -/
def longestPath : Nat := 4095

/-- A path as it is followed. -/
structure Way where
  /-- Where it starts. -/
  start : Path
  /-- The names in it; there is an empty one between two slashes, and before or behind one at an
  end. -/
  names : List String
  deriving DecidableEq, Repr

/-- The way that a text spells; one that does not start at the root starts at home. -/
def Way.ofString (s : String) : Way :=
  let s := spelled s.toList
  ⟨if s.head? = some '/' then [] else home, (Text.splitAt '/' s).map String.ofList⟩

/-- The path with one name more. -/
def extended (p : Path) (name : String) : Path :=
  if name = "" ∨ name = "." then p else if name = ".." then p.dropLast else p ++ [name]

/-- One name further, from a folder. -/
def follow (t : Tree) (p : Path) (name : String) : Except Fault Path :=
  match t.node? p with
  | some .folder =>
    if name.utf8ByteSize ≤ longestName then .ok (extended p name) else .error .nameTooLong
  | none => .error .missing
  | some _ => .error .notFolder

/-- The path that a way leads to. Nothing needs to stand there. -/
def followAll (t : Tree) (w : Way) : Except Fault Path := w.names.foldlM t.follow w.start

/-- The text holds a zero byte. -/
def holdsZero (s : String) : Bool := s.toList.contains '\x00'

/-- What is wrong with a path whatever stands there. -/
def flaw? (s : String) : Option Fault :=
  if holdsZero s then some .zeroByteInPath
  else if s = "" then some .missing
  else if longestPath < (String.ofList (spelled s.toList)).utf8ByteSize then some .nameTooLong
  else none

/-- The path that a text leads to. Nothing needs to stand there. -/
def find (t : Tree) (s : String) : Except Fault Path :=
  match flaw? s with
  | some fault => .error fault
  | none => t.followAll (.ofString s)

/-- A file stands at the path that a text leads to. -/
def isFile (t : Tree) (s : String) : Bool :=
  match t.find s with
  | .error _ => false
  | .ok p =>
    match t.node? p with
    | some (.file _) | some .program => true
    | _ => false

/-! ### Making folders -/

/-- The names without the empty ones behind the last. -/
def withoutTail (names : List String) : List String := (names.reverse.dropWhile (· = "")).reverse

/-- The file system with a folder at the end of a way; everything above must be there. -/
def makeFolder (t : Tree) (w : Way) : Except Fault Tree := do
  let names := withoutTail w.names
  let above ← t.followAll ⟨w.start, names.dropLast⟩
  let name := names.getLast?.getD "."
  let p ← t.follow above name
  if name = "." ∨ name = ".." ∨ (t.node? p).isSome then .error .exists else .ok (t.put p .folder)

/-- A folder stands at the end of a way. -/
def isFolder (t : Tree) (w : Way) : Bool :=
  match t.followAll w with
  | .ok p => t.node? p = some .folder
  | .error _ => false

/-- The way to what is above, without what makes no difference to it. -/
def Way.above (w : Way) : Way :=
  { w with names := (w.names.filter fun name => name != "" && name != ".").dropLast }

/-- The file system with a folder at the end of a way, made unless it is there already. -/
def folderMade (t : Tree) (w : Way) : Tree × Option Fault :=
  match t.makeFolder w with
  | .ok t => (t, none)
  | .error fault => (t, if t.isFolder w then none else some fault)

/-- The file system with a folder at the end of a way, and with those above it made that are missing;
or what is in the way, with what has been made before. A way has at most `fuel` names above it. -/
def makeFolders : Nat → Tree → Way → Tree × Option Fault
  | 0, t, w => t.folderMade w
  | fuel + 1, t, w =>
    match t.makeFolder w with
    | .error .missing =>
      match makeFolders fuel t w.above with
      | (t, none) => t.folderMade w
      | (t, some fault) => (t, some fault)
    | _ => t.folderMade w

/-- The file system with a folder at a path, made together with those above it that are missing; or
what is in the way, with what has been made before. At the empty path there is nothing to make. -/
def makeAll (t : Tree) (s : String) : Tree × Option Fault :=
  match flaw? s with
  | some .missing => (t, none)
  | some fault => (t, some fault)
  | none =>
    let w := Way.ofString s
    makeFolders w.names.length t w

/-! ### The folder of a queue -/

/-- What is below a path. -/
def inside (t : Tree) (p : Path) : Inside :=
  t.filterMap fun (q, n) =>
    if p.isPrefixOf q && p != q then
      some (q.drop p.length, match n with
        | .folder => none
        | .file bytes => some bytes
        | .program => some [])
    else none

/-- What stands at a path, for the folder it is in. -/
def entryOf (t : Tree) (p : Path) : Node → Entry
  | .folder => .folder (t.inside p)
  | .file bytes => .file bytes
  | .program => .file []

/-- The names in a folder, with what they stand for. -/
def entries (t : Tree) (p : Path) : List (String × Entry) :=
  t.filterMap fun (q, n) =>
    if q ≠ [] ∧ q.dropLast = p then q.getLast?.map (·, t.entryOf q n) else none

/-- The names of a queue's own files. -/
def queueNames : List String := ["queue.log", "queue.head", "queue.head.tmp"]

/-- The folder at a path, for a queue. -/
def folderAt (t : Tree) (p : Path) (removal : Removal) : Folder :=
  let es := t.entries p
  { log := es.lookup "queue.log"
    head := es.lookup "queue.head"
    tmp := es.lookup "queue.head.tmp"
    others := NameTable.ofList (es.filter fun e => !queueNames.contains e.1)
    removal := removal }

/-- What stands at a path, for a queue. -/
def placeAt (t : Tree) (p : Path) : Place :=
  match t.node? p with
  | none => .missing
  | some (.file bytes) => .file bytes
  | some .program => .file []
  | some .folder => .folder (t.folderAt p .whole)

/-- What becomes of a folder that is removed by a path. -/
def removalBy (s : String) : Removal :=
  if s = "" then .unfound
  else match (withoutTail (Text.pieces '/' s)).getLast? with
    | some "." => .emptied .invalid
    | some ".." => .emptied .notEmpty
    | _ => .whole

/-- The path of a queue's folder; that of the empty text is home. -/
def queuePath (t : Tree) (s : String) : Except Fault Path :=
  if s = "" then .ok home else t.find s

/-- What a queue finds at the path that a text spells, once the folder has been made. -/
def queueAt (t : Tree) (s : String) : Tree × Place :=
  match t.makeAll s with
  | (t, some fault) => (t, .blocked fault)
  | (t, none) =>
    match flaw? (s ++ "/queue.log"), t.queuePath s with
    | some fault, _ => (t, .blocked fault)
    | none, .error fault => (t, .blocked fault)
    | none, .ok p => (t, .folder (t.folderAt p (removalBy s)))

/-- The names in the folder of a queue. -/
def namesIn (f : Folder) : List String :=
  (if f.log.isSome then ["queue.log"] else []) ++ (if f.head.isSome then ["queue.head"] else []) ++
    (if f.tmp.isSome then ["queue.head.tmp"] else []) ++ f.others.map (·.1)

/-- The file system with a queue's file in a folder. -/
def putFile (t : Tree) (p : Path) (name : String) : Option Entry → Tree
  | some (.file bytes) => t.put (p ++ [name]) (.file bytes)
  | _ => t

/-- The file system after a queue has worked at a path. What is not the queue's own is as it was, if
it is still there. -/
def putPlace (t : Tree) (p : Path) : Place → Tree
  | .missing => t.remove p
  | .blocked _ | .file _ => t
  | .folder f =>
    let gone := ((t.entries p).map (·.1)).filter fun name => !(namesIn f).contains name
    let t := gone.foldl (fun t name => t.remove (p ++ [name])) t
    ((t.putFile p "queue.log" f.log).putFile p "queue.head" f.head).putFile p "queue.head.tmp" f.tmp

/-- The file system after a queue has worked at the path that a text spells. -/
def putQueue (t : Tree) (s : String) (place : Place) : Tree :=
  match t.queuePath s with
  | .ok p => t.putPlace p place
  | .error _ => t

/-! ### Running programs -/

/-- The program that a path leads to, or what is in the way of running it. -/
def runnable (t : Tree) (s : String) : Except Fault Path :=
  match t.find s with
  | .error fault => .error fault
  | .ok p =>
    match t.node? p with
    | none => .error .missing
    | some .program => .ok p
    | some _ => .error .denied

/-- The program of a name in the first folder that has it. A refusal counts for more than that there
is nothing, and other faults end the search. -/
def lookThrough (t : Tree) (name : String) (found : Fault) : List String → Except Fault Path
  | [] => .error found
  | dir :: dirs =>
    match t.runnable (if dir = "" then name else dir ++ "/" ++ name) with
    | .ok p => .ok p
    | .error .denied => lookThrough t name .denied dirs
    | .error .missing => lookThrough t name (if found = .denied then found else .missing) dirs
    | .error .notFolder => lookThrough t name (if found = .denied then found else .notFolder) dirs
    | .error fault => .error fault

/-- The program of a name, looked for in the folders of a search path if the name is no path. -/
def program (t : Tree) (search : List String) (name : String) : Except Fault Path :=
  if name = "" then .error .missing
  else if name.toList.contains '/' then t.runnable name
  else if longestName < name.utf8ByteSize then .error .nameTooLong
  else t.lookThrough name .missing search

/-- The greatest length of an argument, in bytes. -/
def longestArgument : Nat := 131071

/-- What is in the way of starting any program with arguments. -/
def faultOf? (args : List String) : Option Fault :=
  if args.any holdsZero then some .zeroByte
  else if args.any fun s => longestArgument < s.utf8ByteSize then some .argumentTooLong
  else none

/-- What is in the way of starting a program with arguments. A zero byte is noticed before the
program is looked for, and the length of an argument after that. -/
def startFault? (t : Tree) (search : List String) (name : String) (args : List String) :
    Option Fault :=
  if holdsZero name ∨ faultOf? args = some .zeroByte then some .zeroByte
  else match t.program search name with
    | .error fault => some fault
    | .ok _ => faultOf? args

end Tree

/-- What is in the way of starting a program on a machine that does not have it. -/
def startFault? (name : String) (args : List String) : Option Fault :=
  (Tree.common.put Tree.home .folder).startFault? ["/usr/bin", "/bin"] name args

end CecRelay.Bench
