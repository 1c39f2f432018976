import CecRelay.Event
import CecRelay.Text.Blank
import CecRelay.Text.Numeral
import CecRelay.Text.Search

/-!
# Key lines

The program that drives the adapter reports keys among its log lines:
`key pressed: select (0) current(ff) duration(0)` and `key released: up (1) D:120ms`. The code is
the hexadecimal number in the first brackets after the marker. A release tells how long the key was
held; a duration that cannot be read counts as zero.
-/

namespace CecRelay.KeyLine

/-- The marker of a press. -/
def pressMarker : List Char := "key pressed: ".toList

/-- The marker of a release. -/
def releaseMarker : List Char := "key released: ".toList

/-- The marker of a hold duration. -/
def durationMarker : List Char := ['D', ':']

/-- The text inside the first brackets. -/
def bracketed? (s : List Char) : Option (List Char) := do
  let (_, s) ← Text.cutAt? '(' s
  let (inside, _) ← Text.cutAt? ')' s
  return inside

/-- The hexadecimal code inside the first brackets. -/
def code? (s : List Char) : Option UInt8 := do
  let inside ← bracketed? s
  (Text.readByte 16 (Text.trim inside)).toOption

/-- The hold duration after its marker, up to the end of the line. -/
def hold? (s : List Char) : Option UInt32 := do
  let s ← Text.after? durationMarker s
  let number ← Text.beforeTail? ['m', 's'] (Text.trim s)
  (Text.readUInt32 (Text.trim number)).toOption

/-- The key that a line reports. -/
def read? (line : List Char) : Option KeyPress :=
  match Text.after? pressMarker line with
  | some s => (code? s).map KeyPress.pressed
  | none => do
    let s ← Text.after? releaseMarker line
    let code ← code? s
    return ⟨code, (hold? s).getD 0⟩

/-- The key that a line of bytes reports; a line that is no text reports none. -/
def ofBytes? (line : Bytes) : Option KeyPress := (Utf8.decode? line).bind read?

end CecRelay.KeyLine
