import CecRelay.CommandLine.Options

/-!
# Complaints about the command line
-/

namespace CecRelay

/-- The name of an option, as it is given. -/
def Flag.text (f : Flag) : String :=
  match Flag.byName.find? (·.2 == f) with
  | some (text, _) => "--" ++ text
  | none => ""

/-- The complaint about a command line that cannot be read. -/
def Misuse.message : Misuse → String
  | .unknown arg => "unexpected argument: " ++ arg
  | .missingValue flag => "a value is required for " ++ flag.text
  | .unwantedValue flag => "no value is expected for " ++ flag.text
  | .wrongValue flag value => "invalid value for " ++ flag.text ++ ": " ++ value
  | .repeated flag => flag.text ++ " cannot be used more than once"

end CecRelay
