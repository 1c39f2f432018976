import CecRelay.Keymap.KeyName
import CecRelay.Text.NameTable
import CecRelay.Warning

/-!
# The table of keys

The table says which input codes a key on the bus stands for. It starts from a fixed table
(`baseTable`) and takes overrides by name, in the order of the names; the last override of a code
wins. A name that no key has is passed over with a warning. An override without codes silences the
key.
-/

namespace CecRelay

/-- Input codes that are pressed together. -/
abbrev Stroke := List UInt16

/-- The input codes of a key on the bus, by its code. -/
abbrev KeyTable := List (UInt8 × Stroke)

namespace KeyTable

/-- The table without overrides. -/
def baseTable : KeyTable :=
  [(0x00, [28]), (0x2B, [28]), (0x01, [103]), (0x02, [108]), (0x03, [105]), (0x04, [106]),
   (0x0D, [1]), (0x44, [200]), (0x46, [201]), (0x45, [166]), (0x09, [172]),
   (0x20, [11]), (0x21, [2]), (0x22, [3]), (0x23, [4]), (0x24, [5]), (0x25, [6]), (0x26, [7]),
   (0x27, [8]), (0x28, [9]), (0x29, [10])]

/-- The table with another entry for a code. -/
def put (t : KeyTable) (code : UInt8) (stroke : Stroke) : KeyTable := (code, stroke) :: t

/-- The entry of a code. -/
def stroke? (t : KeyTable) (code : UInt8) : Option Stroke := t.lookup code

/-- The table after one override, and the warning about it. -/
def override (t : KeyTable) (name : String) (stroke : Stroke) : KeyTable × List Warning :=
  match KeyName.code? name with
  | some code => (t.put code stroke, [])
  | none => (t, [.keyName name])

/-- The table after overrides in order, and the warnings about them. -/
def withOverrides (t : KeyTable) : List (String × Stroke) → KeyTable × List Warning
  | [] => (t, [])
  | (name, stroke) :: rest =>
    let (t, warnings) := t.override name stroke
    let (t, more) := withOverrides t rest
    (t, warnings ++ more)

/-- The base table with overrides. -/
def ofOverrides (overrides : NameTable Stroke) : KeyTable × List Warning :=
  baseTable.withOverrides overrides

/-- What a press makes: a stroke, if the key has one that is not empty, or a warning. -/
def press (t : KeyTable) (code : UInt8) : Option Stroke × List Warning :=
  match t.stroke? code with
  | none => (none, [.unmappedKey code])
  | some [] => (none, [])
  | some stroke => (some stroke, [])

/-- The strokes of presses in order. -/
def strokes (t : KeyTable) (codes : List UInt8) : List Stroke :=
  codes.filterMap fun code => (t.press code).1

/-- The warnings of presses in order. -/
def pressWarnings (t : KeyTable) (codes : List UInt8) : List Warning :=
  codes.flatMap fun code => (t.press code).2

@[simp] theorem stroke?_put (t : KeyTable) (code other : UInt8) (stroke : Stroke) :
    (t.put code stroke).stroke? other = if other = code then some stroke else t.stroke? other := by
  by_cases h : other = code
  · simp [put, stroke?, h]
  · simp [put, stroke?, List.lookup_cons, h, beq_eq_false_iff_ne.2 h]

end KeyTable
end CecRelay
