import CecRelay.Text.Blank
import CecRelay.Text.Numeral
import CecRelay.Text.Search

/-!
# Names of keys on the bus

A key is named as the bus names it, whatever the case of the letters and with blanks, underscores
and hyphens counting the same, or by its code in decimal or, after `0x`, in hexadecimal.
-/

namespace CecRelay.KeyName

/-- The keys by name. -/
def codes : List (String × UInt8) :=
  [("select", 0x00), ("up", 0x01), ("down", 0x02), ("left", 0x03), ("right", 0x04),
   ("root menu", 0x09), ("home", 0x09), ("exit", 0x0D),
   ("0", 0x20), ("1", 0x21), ("2", 0x22), ("3", 0x23), ("4", 0x24),
   ("5", 0x25), ("6", 0x26), ("7", 0x27), ("8", 0x28), ("9", 0x29),
   ("enter", 0x2B), ("play", 0x44), ("stop", 0x45), ("pause", 0x46)]

/-- A character of a name in the one spelling used here. -/
def plain (c : Char) : Char := if c = '_' ∨ c = '-' then ' ' else c.toLower

/-- A name in the one spelling used here. -/
def normal (name : List Char) : List Char := (Text.trim name).map plain

/-- The code that a name in the one spelling stands for. -/
def codeOfNormal? (name : List Char) : Option UInt8 :=
  match codes.lookup (String.ofList name) with
  | some code => some code
  | none =>
    match Text.afterLead? ['0', 'x'] name with
    | some digits => (Text.readByte 16 digits).toOption
    | none => (Text.readByte 10 name).toOption

/-- The code of a key name. -/
def code? (name : String) : Option UInt8 := codeOfNormal? (normal name.toList)

end CecRelay.KeyName
