import CecRelay.Adapter.Client
import CecRelay.Adapter.Port

/-!
# The client at the other end of a wire

When somebody else has started the client, all that is left to do is to write lines to it. The wire
keeps the lines that are still to be written, and a command that has been put there has gone through.
-/

namespace CecRelay

/-- The lines that are still to be written to the client, in order. -/
abbrev Wire := List String

namespace Wire

/-- The adapter at the other end of a wire. -/
def adapter : Adapter Wire where
  tryOpen w := (.opened, w)
  attach w := w
  send command address w :=
    let line := Client.line command address
    (.reply (some line), w ++ [line])
  close w := w

end Wire
end CecRelay
