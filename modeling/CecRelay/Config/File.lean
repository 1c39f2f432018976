import CecRelay.Config.Basic
import CecRelay.Error
import CecRelay.Text.Utf8
import CecRelay.Toml.Document

/-!
# The configuration file

The file is a TOML document with a table for each section. A section may also be a list of its
values in order; what it does not say keeps its default, and what it says beyond its members is
passed over. A section that nobody knows is a fault.
-/

namespace CecRelay.ConfigFile

open Toml (Item Entries)

/-! ### Values -/

/-- What cannot be taken from the document. -/
def malformed {α : Type} : Except Failure α := .error (.error .malformedConfig)

/-- A text. -/
def text : Item → Except Failure String
  | .text s => .ok s
  | _ => malformed

/-- A truth value. -/
def bool : Item → Except Failure Bool
  | .bool b => .ok b
  | _ => malformed

/-- A natural number of at most `max`. -/
def nat (max : Nat) : Item → Except Failure Nat
  | .integer i => if 0 ≤ i ∧ i ≤ max then .ok i.toNat else malformed
  | _ => malformed

/-- A length of time. The program breaks off where the sum of its parts passes the bound unseen. -/
def span (item : Item) : Except Failure Time.Span := do
  match Time.Span.read (← text item).toList with
  | .ok t => return t
  | .error .malformed => malformed
  | .error .carry => .error .broken

/-- A list, each item read by `read`. -/
def list {α : Type} (read : Item → Except Failure α) : Item → Except Failure (List α)
  | .list items => items.mapM read
  | _ => malformed

/-- The item has nothing in it. -/
def isEmpty : Item → Bool
  | .list [] | .table _ [] | .tables [] => true
  | _ => false

/-- The choice that an item names: by a text, or by the name of the only entry of a table, with
nothing in it. -/
def choice {α : Type} (choices : List (String × α)) : Item → Except Failure α
  | .text s => named s
  | .table _ [(s, content)] => if isEmpty content then named s else malformed
  | _ => malformed
where
  /-- The choice of a name. -/
  named (s : String) : Except Failure α :=
    match choices.lookup s with
    | some a => .ok a
    | none => malformed

/-- Input codes by key name. -/
def overrides : Item → Except Failure (NameTable Stroke)
  | .table _ es => do
    let entries ← es.mapM fun (name, item) =>
      (list (nat 0xFFFF) item).map fun codes => (name, codes.map UInt16.ofNat)
    return .ofList entries
  | _ => malformed

/-! ### Sections -/

/-- A member of a section: its name, and how its value changes the section. -/
structure Member (α : Type) where
  /-- The name. -/
  name : String
  /-- The section with a value for the member. -/
  set : Item → α → Except Failure α

/-- A member whose value is read by `read` and put in place by `put`. -/
def member {α β : Type} (name : String) (read : Item → Except Failure β) (put : β → α → α) :
    Member α :=
  ⟨name, fun item a => (read item).map (put · a)⟩

/-- The member of a name. -/
def find? {α : Type} (members : List (Member α)) (name : String) : Option (Member α) :=
  members.find? (·.name == name)

/-- A section as an item says it, on top of its defaults. Its entries are taken in their order. -/
def sectionOf {α : Type} (members : List (Member α)) (default : α) : Item → Except Failure α
  | .table _ es =>
    es.foldlM (fun a (name, item) =>
      match find? members name with
      | none => .ok a
      | some m => m.set item a) default
  | .list items => inOrder items
  | .tables ts => inOrder (ts.map (.table .defined))
  | .date => .ok default
  | _ => malformed
where
  /-- A section as a list of values in order. -/
  inOrder (items : List Item) : Except Failure α :=
    (members.zip items).foldlM (fun a (m, item) => m.set item a) default

/-- The members of the adapter's section. -/
def adapterMembers : List (Member AdapterConfig) :=
  [member "adapter" text fun s c => { c with port := s },
   member "device_name" text fun s c => { c with name := s },
   member "connection_retries" (nat 0xFFFFFFFF) fun n c => { c with retries := UInt32.ofNat n },
   member "reconnect_delay" span fun t c => { c with delay := t },
   member "client_binary" text fun s c => { c with client := s }]

/-- The members of the section on power events. -/
def powerMembers : List (Member PowerConfig) :=
  [member "enabled" bool fun b c => { c with enabled := b },
   member "devices" (list (nat 0xFF)) fun ns c => { c with devices := ns.map UInt8.ofNat },
   member "startup_power_on" bool fun b c => { c with wakeAtStart := b }]

/-- The members of the queue's section. -/
def queueMembers : List (Member QueueConfig) :=
  [member "dir" text fun s c => { c with dir := some s },
   member "capacity" (nat 0xFFFFFFFFFFFFFFFF) fun n c => { c with capacity := n },
   member "poll_interval" span fun t c => { c with poll := t }]

/-- The members of the section on restarts. -/
def restartMembers : List (Member UInt32) :=
  [member "budget" (nat 0xFFFFFFFF) fun n _ => UInt32.ofNat n]

/-- The members of the section on keys. -/
def keymapMembers : List (Member KeymapConfig) :=
  [member "overrides" overrides fun t c => { c with overrides := t },
   member "injector" (choice InjectorKind.byName) fun k c => { c with injector := k }]

/-- The members of the section on the log. -/
def logMembers : List (Member LogConfig) :=
  [member "log_level" text fun s c => { c with level := s },
   member "json_logs" bool fun b c => { c with json := b }]

/-- The sections. -/
def sections : List (Member Config) :=
  [member "cec" (sectionOf adapterMembers {}) fun s c => { c with adapter := s },
   member "power" (sectionOf powerMembers {}) fun s c => { c with power := s },
   member "queue" (sectionOf queueMembers {}) fun s c => { c with queue := s },
   member "restart" (sectionOf restartMembers 3) fun s c => { c with budget := s },
   member "keymap" (sectionOf keymapMembers {}) fun s c => { c with keymap := s },
   member "observability" (sectionOf logMembers {}) fun s c => { c with log := s }]

/-- The configuration that the entries of a document say. A section that nobody knows is refused. -/
def ofEntries (es : Entries) : Except Failure Config :=
  es.foldlM (fun c (name, item) =>
    match find? sections name with
    | some s => s.set item c
    | none => malformed) {}

/-- The configuration that a text says. -/
def ofText (text : String) : Except Failure Config :=
  match Toml.Document.read? text with
  | some es => ofEntries es
  | none => malformed

/-- The file that is read when none is named; it need not be there. -/
def defaultPath : String := "/etc/cec-controller.toml"

/-- What stands where the file is looked for. -/
inductive Source
  /-- Nothing. -/
  | missing
  /-- A folder. -/
  | folder
  /-- A file. -/
  | file (bytes : Bytes)

/-- The configuration in a file, which must be there. -/
def ofSource (path : String) : Source → Except Failure Config
  | .missing => .error (.error (.cannotReadConfig path .missing))
  | .folder => .error (.error (.cannotReadConfig path .isFolder))
  | .file bytes =>
    match Utf8.toString? bytes with
    | some text => ofText text
    | none => .error (.error (.cannotReadConfig path .notText))

end CecRelay.ConfigFile
