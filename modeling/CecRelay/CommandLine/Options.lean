import CecRelay.Config.Environment
import CecRelay.Config.Lists

/-!
# The command line

The program takes options and nothing else. An option that takes a value has it behind an equals sign
or as the next argument, which must not look like an option itself. Two options may be given more
than once. The arguments are read from left to right, and the first that asks for help, asks for the
version or cannot be read decides what happens (`Request`).
-/

namespace CecRelay

/-- An option of the command line. -/
inductive Flag
  /-- The configuration file. -/
  | config
  /-- The adapter's port. -/
  | adapter
  /-- The name shown on the bus. -/
  | name
  /-- Write more to the log. -/
  | debug
  /-- Power events are not handled. -/
  | powerOff
  /-- The devices. -/
  | devices
  /-- An override of the key table. -/
  | keymap
  /-- The attempts to open the adapter again. -/
  | retries
  /-- Show the options. -/
  | help
  /-- Show the version. -/
  | version
  deriving DecidableEq, Repr

namespace Flag

/-- The options by name. -/
def byName : List (String × Flag) :=
  [("config", .config), ("cec-adapter", .adapter), ("device-name", .name), ("debug", .debug),
   ("no-power-events", .powerOff), ("devices", .devices), ("keymap", .keymap),
   ("retries", .retries), ("help", .help), ("version", .version)]

/-- The options by letter. -/
def byLetter : List (Char × Flag) := [('h', .help), ('V', .version)]

/-- The option takes a value. -/
def takesValue : Flag → Bool
  | .config | .adapter | .name | .devices | .keymap | .retries => true
  | .debug | .powerOff | .help | .version => false

end Flag

/-- What the command line says. -/
structure Options where
  /-- The configuration file. -/
  config : Option String := none
  /-- The adapter's port. -/
  adapter : Option String := none
  /-- The name shown on the bus. -/
  name : Option String := none
  /-- More is written to the log. -/
  debug : Bool := false
  /-- Power events are not handled. -/
  powerOff : Bool := false
  /-- Entries with devices. -/
  devices : List String := []
  /-- Entries with overrides of the key table. -/
  keymap : List String := []
  /-- The attempts to open the adapter again. -/
  retries : Option UInt32 := none
  deriving DecidableEq, Repr

/-- Why a command line cannot be read. -/
inductive Misuse
  /-- An argument is no option. -/
  | unknown (arg : String)
  /-- An option lacks its value. -/
  | missingValue (flag : Flag)
  /-- An option has a value that it does not take. -/
  | unwantedValue (flag : Flag)
  /-- A value is not one of those that the option takes. -/
  | wrongValue (flag : Flag) (value : String)
  /-- An option is given twice. -/
  | repeated (flag : Flag)
  deriving DecidableEq, Repr

/-- What a command line asks for. -/
inductive Request
  /-- Run. -/
  | run (o : Options)
  /-- Show the options. -/
  | help
  /-- Show the version. -/
  | version
  /-- Nothing, for it cannot be read. -/
  | misuse (m : Misuse)
  deriving DecidableEq, Repr

namespace Options

/-- A decimal number with an optional sign, from zero to the largest of thirty-two bits. -/
def count? (value : String) : Option UInt32 :=
  match value.toList with
  | '-' :: digits =>
    match Text.readNumeral 10 0 digits with
    | .ok _ => if digits.head? = some '+' then none else some 0
    | .error _ => none
  | digits => (Text.readUInt32 digits).toOption

/-- The options with a value for one that may be given once. -/
def once {α : Type} (flag : Flag) (old : Option α) (o : Options) : Except Misuse Options :=
  if old.isSome then .error (.repeated flag) else .ok o

/-- The options with the value of one that takes a value. -/
def setValue (o : Options) (flag : Flag) (value : String) : Except Misuse Options :=
  match flag with
  | .config =>
    if value = "" then .error (.wrongValue flag value)
    else once flag o.config { o with config := some value }
  | .adapter => once flag o.adapter { o with adapter := some value }
  | .name => once flag o.name { o with name := some value }
  | .devices => .ok { o with devices := o.devices ++ [value] }
  | .keymap => .ok { o with keymap := o.keymap ++ [value] }
  | .retries =>
    match count? value with
    | some n => once flag o.retries { o with retries := some n }
    | none => .error (.wrongValue flag value)
  | .debug | .powerOff | .help | .version => .error (.unwantedValue flag)

/-- The options with one that takes no value. -/
def setSwitch (o : Options) (flag : Flag) : Except Misuse Options :=
  match flag with
  | .debug => if o.debug then .error (.repeated flag) else .ok { o with debug := true }
  | .powerOff => if o.powerOff then .error (.repeated flag) else .ok { o with powerOff := true }
  | _ => .error (.missingValue flag)

end Options

/-- What an argument is. -/
inductive Argument
  /-- Two dashes alone: no options follow. -/
  | stop
  /-- An option by name, perhaps with a value. -/
  | long (name : String) (value : Option String)
  /-- An option by letter. -/
  | short (letter : Char)
  /-- Anything else. -/
  | word (text : String)
  deriving DecidableEq, Repr

/-- What an argument is. -/
def Argument.ofString (s : String) : Argument :=
  match s.toList with
  | ['-', '-'] => .stop
  | '-' :: '-' :: body =>
    match Text.cutAt? '=' body with
    | some (name, value) => .long (String.ofList name) (some (String.ofList value))
    | none => .long (String.ofList body) none
  | '-' :: letter :: _ => .short letter
  | _ => .word s

namespace Request

/-- What follows a request for something else than a run. -/
def ofSwitch (o : Options) (flag : Flag) : Options ⊕ Request :=
  match flag with
  | .help => .inr .help
  | .version => .inr .version
  | flag =>
    match o.setSwitch flag with
    | .ok o => .inl o
    | .error m => .inr (.misuse m)

/-- Reads arguments on top of options. -/
def read (o : Options) : List String → Request
  | [] => .run o
  | arg :: rest =>
    match Argument.ofString arg with
    | .stop =>
      match rest with
      | [] => .run o
      | extra :: _ => .misuse (.unknown extra)
    | .word text => .misuse (.unknown text)
    | .short letter =>
      match Flag.byLetter.lookup letter with
      | some .help => .help
      | some .version => .version
      | _ => .misuse (.unknown arg)
    | .long name value =>
      match Flag.byName.lookup name, value with
      | none, _ => .misuse (.unknown arg)
      | some flag, some value =>
        match o.setValue flag value with
        | .ok o => read o rest
        | .error m => .misuse m
      | some flag, none =>
        if flag.takesValue then
          match rest with
          | [] => .misuse (.missingValue flag)
          | value :: rest =>
            match Argument.ofString value with
            | .word value =>
              match o.setValue flag value with
              | .ok o => read o rest
              | .error m => .misuse m
            | _ => .misuse (.missingValue flag)
        else
          match ofSwitch o flag with
          | .inl o => read o rest
          | .inr request => request

/-- The variable that names the configuration file. -/
def configVariable : String := "CEC_CONTROLLER_CONFIG"

/-- A run with the configuration file that the environment names, unless the options name one. -/
def withEnvironment (env : Environment) : Request → Request
  | .run o =>
    match o.config, env configVariable with
    | none, some path =>
      match o.setValue .config path with
      | .ok o => .run o
      | .error m => .misuse m
    | _, _ => .run o
  | request => request

/-- What a command line asks for in an environment. -/
def ofArguments (env : Environment) (args : List String) : Request :=
  (read {} args).withEnvironment env

end Request

namespace Config

/-- The configuration with what the command line says, and the warnings about it. An empty name says
nothing; devices replace those of the configuration, and without any there are no power events. -/
def withOptions (c : Config) (o : Options) : Config × List Warning :=
  let adapter :=
    { c.adapter with
      port := o.adapter.getD c.adapter.port
      name := match o.name with
        | none | some "" => c.adapter.name
        | some name => name
      retries := o.retries.getD c.adapter.retries }
  let (devices, aboutDevices) :=
    if o.devices.isEmpty then (c.power.devices, []) else Devices.ofEntries o.devices
  let (overrides, aboutKeys) := Overrides.ofEntries o.keymap
  ({ c with
      adapter := adapter
      power :=
        { c.power with
          devices := devices
          enabled := c.power.enabled && !o.powerOff && !devices.isEmpty }
      keymap := { c.keymap with overrides := c.keymap.overrides.extend overrides } },
    aboutDevices ++ aboutKeys)

/-- The configuration of a run: what the file says, then the environment, the host and the command
line. -/
def assemble (file : Config) (env : Environment) (host : Option String) (o : Options) :
    Config × List Warning :=
  let (c, aboutEnvironment) := file.withEnvironment env
  let (c, aboutOptions) := (c.withHost host).withOptions o
  (c, aboutEnvironment ++ aboutOptions)

end Config
end CecRelay
