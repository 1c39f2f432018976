import CecRelay.Adapter.Identity
import CecRelay.Adapter.KeyLine
import CecRelay.Error
import CecRelay.Text.LineStream

/-!
# The client that drives the adapter

The adapter is driven by a program that runs as long as the handle is open. It is told on its command
line which adapter to use and under which name to show itself; every command is a line on its
standard input, and the keys it notices are among the lines that it prints. A command has gone
through when its line has reached the program, and the reply is that line.
-/

namespace CecRelay.Client

/-- What the client prints: errors, warnings and notices, the keys among them. -/
def logMask : String := "19"

/-- The client's arguments. -/
def arguments (i : Identity) : List String :=
  ["-t", "p", "-o", i.name, "-d", logMask] ++ i.port.toList

/-- The word for a command. -/
def word : PowerCommand → String
  | .powerOn => "on"
  | .standby => "standby"

/-- The line that carries a command. -/
def line (command : PowerCommand) (address : UInt8) : String :=
  word command ++ " " ++ Text.hexText address.toNat

/-- The keys that lines report. -/
def keysOfLines (lines : List (List Char)) : List KeyPress := lines.filterMap KeyLine.read?

/-- The keys that a client's output reports. -/
def keysOf (stream : Bytes) : List KeyPress := keysOfLines (LineStream.textLines stream)

end CecRelay.Client
