import CecRelay.Keymap.Table
import CecRelay.Text.Blank
import CecRelay.Text.Search
import CecRelay.Warning

/-!
# Lists on the command line

Device addresses come in entries that may hold several, separated by commas; overrides of the key
table come one in an entry, `name:code+code`. What cannot be read is passed over with a warning. A
later override of a name wins over an earlier one.
-/

namespace CecRelay

namespace Devices

/-- The address in a part of an entry, or the warning about it; an empty part says nothing. -/
def ofPart (part : List Char) : List UInt8 × List Warning :=
  let part := Text.trim part
  if part = [] then ([], [])
  else match Text.readByte 10 part with
    | .ok address => ([address], [])
    | .error cause => ([], [.deviceAddress (String.ofList part) cause])

/-- The parts of an entry. -/
def parts (entry : String) : List (List Char) := Text.splitAt ',' entry.toList

/-- The addresses in entries, and the warnings about the others. -/
def ofEntries (entries : List String) : List UInt8 × List Warning :=
  let read := (entries.flatMap parts).map ofPart
  (read.flatMap (·.1), read.flatMap (·.2))

end Devices

namespace Overrides

/-- The code in a part of an entry, or the warning about it. -/
def ofPart (part : List Char) : List UInt16 × List Warning :=
  match Text.readUInt16 (Text.trim part) with
  | .ok code => ([code], [])
  | .error cause => ([], [.keyCode (String.ofList part) cause])

/-- The name and the text of the codes in an entry with exactly one colon. -/
def cut? (entry : String) : Option (String × List Char) :=
  match Text.splitAt ':' entry.toList with
  | [name, codes] => some (String.ofList (Text.trim name), codes)
  | _ => none

/-- The override in an entry, if it is one, and the warnings about it. -/
def ofEntry (entry : String) : Option (String × Stroke) × List Warning :=
  match cut? entry with
  | none => (none, [.keymapEntry entry])
  | some (name, codes) =>
    let read := (Text.splitAt '+' codes).map ofPart
    (some (name, read.flatMap (·.1)), read.flatMap (·.2))

/-- The overrides in entries, and the warnings about the others. -/
def ofEntries (entries : List String) : NameTable Stroke × List Warning :=
  let read := entries.map ofEntry
  (.ofList (read.filterMap (·.1)), read.flatMap (·.2))

end Overrides
end CecRelay
