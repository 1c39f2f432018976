import CecRelay.Text.Blank

/-!
# Which adapter, and under which name

An adapter is named by its port, or found by itself when no port is given. The relay shows itself
on the bus under a name.
-/

namespace CecRelay

/-- An adapter and the name shown on the bus. -/
structure Identity where
  /-- The port; none to find the adapter by itself. -/
  port : Option String
  /-- The name shown on the bus. -/
  name : String
  deriving DecidableEq, Repr

namespace Identity

/-- The identity with a port as it was configured: blanks around it do not count, and an empty port
is none. -/
def ofPort (port name : String) : Identity :=
  let port := Text.trimmed port
  ⟨if port = "" then none else some port, name⟩

/-- The identity in messages. -/
def display (i : Identity) : String := i.port.getD "autodetect" ++ " (" ++ i.name ++ ")"

end Identity
end CecRelay
