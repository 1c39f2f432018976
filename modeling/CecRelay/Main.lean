import CecRelay.CommandLine.Console
import CecRelay.CommandLine.Help
import CecRelay.CommandLine.Misuse
import CecRelay.Config.File
import CecRelay.Log.Text

/-!
# The program

The program reads its command line, its environment and its configuration. Then it relays: lines of
the client and the monitor come on its standard input, and lines for the client and strokes go to its
standard output, until the input ends. The log goes to the error output.
-/

namespace CecRelay.Main

/-- The refusal that an error stands for. -/
def faultOf : IO.Error → Fault
  | .permissionDenied _ _ _ => .denied
  | .alreadyExists _ _ _ => .exists
  | .inappropriateType _ code _ => if code = 20 then .notFolder else .isFolder
  | _ => .missing

/-- The contents of a file. -/
def readFile (path : String) : IO (Except Fault Bytes) := do
  try return .ok (← IO.FS.readBinFile path).toList
  catch e => return .error (faultOf e)

/-- What stands at a path. -/
def readEntry (path : String) : IO (Option Entry) := do
  match ← readFile path with
  | .ok bytes => return some (.file bytes)
  | .error .isFolder => return some (.folder [])
  | .error _ => return none

/-- What stands at the path of a queue. -/
def readPlace (dir : String) : IO Place := do
  match ← readFile dir with
  | .ok bytes => return .file bytes
  | .error .notFolder => return .blocked .notFolder
  | .error .isFolder =>
    return .folder
      { log := ← readEntry (dir ++ "/queue.log")
        head := ← readEntry (dir ++ "/queue.head")
        tmp := ← readEntry (dir ++ "/queue.head.tmp") }
  | .error _ => return .missing

/-- Writes a file that is to have other contents. The contents come beside the old file first and
then take its place. -/
def writeEntry (path : String) (old new : Option Entry) : IO Unit := do
  match new with
  | some (.file bytes) =>
    if old ≠ new then
      IO.FS.writeBinFile (path ++ ".tmp") (ByteArray.mk bytes.toArray)
      IO.FS.rename (path ++ ".tmp") path
  | _ => return

/-- Makes what stands at the path of a queue what it is to be. -/
def writePlace (dir : String) (old new : Place) : IO Unit := do
  match old, new with
  | .folder before, .folder after =>
    writeEntry (dir ++ "/queue.log") before.log after.log
    writeEntry (dir ++ "/queue.head") before.head after.head
  | _, .folder after =>
    IO.FS.createDirAll dir
    writeEntry (dir ++ "/queue.log") none after.log
    writeEntry (dir ++ "/queue.head") none after.head
  | .folder _, .missing => IO.FS.removeDirAll dir
  | _, _ => return

/-- The time, which is that of a file just made. -/
def now : IO Time.Stamp := do
  let (_, path) ← IO.FS.createTempFile
  let made := (← path.metadata).modified
  IO.FS.removeFile path
  return .ofClock made.sec.toNat made.nsec.toNat

/-- The variables that matter. -/
def watched : List String :=
  [Request.configVariable, queueDirVariable, budgetVariable, Log.filterVariable,
   Log.formatVariable, Config.hostVariable, Config.temporaryVariable,
   CommandLine.plainVariable, CommandLine.colorfulVariable]

/-- The environment. -/
def readEnvironment : IO Environment := do
  let found ← watched.filterMapM fun name => do
    return (← IO.getEnv name).map fun value => (name, value)
  return fun name => found.lookup name

/-- What the configuration file says. -/
def readConfig (o : Options) : IO (Except Failure Config) := do
  let path := o.config.getD ConfigFile.defaultPath
  match ← readFile path with
  | .ok bytes => return ConfigFile.ofSource path (.file bytes)
  | .error fault =>
    if o.config.isNone && fault == .missing then return .ok {}
    else return .error (.error (.cannotReadConfig path fault))

/-- The name of the host, as far as it is told. -/
def readHost (env : Environment) : IO (Option String) := do
  match env Config.hostVariable with
  | some name => return some name
  | none => return (← readFile "/etc/hostname").toOption.bind Utf8.toString?

/-- Writes a record to the log. -/
def log (filter : Log.Filter) (json : Bool) (r : Log.Record) : IO Unit :=
  if filter.passes r then
    IO.eprintln (if json then r.json.print else r.line)
  else return

/-- Writes the lines that are to be written, and brings the disk up to date. -/
def flush (dir : String) (before : Place) (c : Console) : IO Console := do
  let output ← IO.getStdout
  for line in c.output do output.putStrLn line
  output.flush
  writePlace dir before c.relay.live.disk.place
  return c.written

/-- A line without its end. -/
def withoutEnd (line : String) : List Char :=
  (line.toList.reverse.dropWhile fun c => c == '\n' || c == '\x0d').reverse

/-- Relays lines until the input ends. -/
partial def relay (dir : String) (input : IO.FS.Stream) (c : Console) : IO Console := do
  let line ← input.getLine
  let before := c.relay.live.disk.place
  if line.isEmpty then flush dir before c.stop
  else relay dir input (← flush dir before (c.getLine (← now) (withoutEnd line)))

/-- The number with which the program exits when it breaks off. -/
def brokenExit : UInt32 := 101

/-- Runs the relay with a configuration. -/
def run (env : Environment) (filter : Log.Filter) (c : Config) (warnings : List Warning) :
    IO UInt32 := do
  let tag := (← IO.getRandomBytes 8).toList.map fun b => Text.hexText b.toNat
  let s : Startup := .ofConfig c env (String.join tag) (← now)
  let dir := s.queueDir
  let write := log filter (Log.isJson c.log env)
  let (table, more) := KeyTable.ofOverrides c.keymap.overrides
  for w in warnings ++ more do write (.ofWarning w)
  write (.starting c dir s.fresh)
  let before ← readPlace dir
  let launched := Launched.start Wire.adapter s (.ok ()) before { inner := [] }
  match launched.relay with
  | .error failure =>
    writePlace dir before launched.place
    match failure with
    | .error cause => write (.failed cause); return 1
    | .broken => return brokenExit
  | .ok r =>
    let settings := s.settings CommandLine.programName []
    let console : Console := { relay := r, settings := settings, table := table }
    let console ← flush dir before console.worked
    let console ← relay dir (← IO.getStdin) console
    match console.relay.result? with
    | some (.error cause) => write (.failed cause); return 1
    | some (.ok e) => write (.stopped e); return 0
    | none => return 0

/-- Does what the command line asks for. -/
def answer (args : List String) : IO UInt32 := do
  let env ← readEnvironment
  match Request.ofArguments env args with
  | .help => IO.print (CommandLine.help env ((env Request.configVariable).getD "")); return 0
  | .version => IO.print CommandLine.version; return 0
  | .misuse m => IO.eprintln ("error: " ++ m.message); return 2
  | .run o =>
    match ← readConfig o with
    | .error (.error cause) =>
      IO.eprintln (CommandLine.programName ++ ": " ++ cause.message)
      return 1
    | .error .broken => return brokenExit
    | .ok file =>
      let (c, warnings) := file.assemble env (← readHost env) o
      match Log.filterOf? c.log o.debug env with
      | none => return brokenExit
      | some filter => run env filter c warnings

end CecRelay.Main

/-- The program. -/
def main (args : List String) : IO UInt32 := CecRelay.Main.answer args
