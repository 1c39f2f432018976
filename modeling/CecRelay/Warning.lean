import CecRelay.Text.Numeral
import CecRelay.Error

/-!
# Warnings

What is passed over with a warning instead of an error: a wrong entry on the command line, in the
environment or in the table of keys, and a key stroke that could not be made. A warning has a
message and named fields (`Warning.message`, `Warning.fields`).
-/

namespace CecRelay

/-- A warning. -/
inductive Warning
  /-- A part of a device list is no address. -/
  | deviceAddress (part : String) (cause : Text.NumeralError)
  /-- An entry of the key table has no colon or more than one. -/
  | keymapEntry (entry : String)
  /-- A code in an entry of the key table is no number. -/
  | keyCode (code : String) (cause : Text.NumeralError)
  /-- The restart budget in the environment is no number. -/
  | restartBudget (value : String) (cause : Text.NumeralError)
  /-- The key table names a key that does not exist. -/
  | keyName (name : String)
  /-- A pressed key has no entry in the key table. -/
  | unmappedKey (code : UInt8)
  /-- The program that makes key strokes is not there. -/
  | injectorMissing
  /-- The program that makes key strokes could not be started. -/
  | strokeFailed (binary : String) (cause : Fault)
  /-- A key stroke was asked for outside the running program. -/
  | strokeOutsideRun
  deriving DecidableEq, Repr

namespace Warning

/-- The message of a warning. -/
def message : Warning → String
  | deviceAddress _ _ => "Invalid device address"
  | keymapEntry _ => "Invalid keymap entry"
  | keyCode _ _ => "Invalid linux key code"
  | restartBudget _ _ => "Invalid restart budget in environment"
  | keyName _ => "Invalid CEC key name in overrides"
  | unmappedKey _ => "Unmapped CEC key code"
  | injectorMissing => "ydotool not found on PATH, key presses will only be logged"
  | strokeFailed _ _ => "Failed to send key event"
  | strokeOutsideRun => "ydotool injection needs a tokio runtime"

/-- The fields of a warning. -/
def fields : Warning → List (String × String)
  | deviceAddress part cause => [("device", part), ("error", cause.message)]
  | keymapEntry entry => [("entry", entry)]
  | keyCode code cause => [("code", code), ("error", cause.message)]
  | restartBudget value cause => [("value", value), ("error", cause.message)]
  | keyName name => [("key", name)]
  | unmappedKey code => [("cec_key_code", toString code)]
  | injectorMissing => []
  | strokeFailed binary cause => [("binary", binary), ("error", cause.message)]
  | strokeOutsideRun => []

end Warning
end CecRelay
