import CecRelay.Error
import CecRelay.Time.Span

/-!
# The adapter as the relay sees it

An adapter is anything that can be opened, takes commands and can be closed (`Adapter σ`, where `σ`
is whatever it keeps). It answers a command with a reply: a text says that the command went through,
an empty or missing text that it did not. A call may also break off without any answer.

`Port` is an adapter together with a record of every call made on it. Handles are numbered in the
order in which they are opened.
-/

namespace CecRelay

/-- A reply to a command. -/
abbrev Reply := Option String

/-- The reply says that the command went through: there is a text, and it is not empty. -/
def Reply.accepts : Reply → Bool
  | some text => text != ""
  | none => false

/-- The wording for a command that did not go through. -/
def rejection : String := "adapter rejected the command"

/-- How an attempt to open an adapter ends. -/
inductive Opening
  /-- The adapter is open. -/
  | opened
  /-- The adapter could not be opened. -/
  | refused (cause : RelayError)
  /-- The call broke off. -/
  | broken
  deriving DecidableEq, Repr

/-- How a command ends. -/
inductive Answer
  /-- The adapter has replied. -/
  | reply (r : Reply)
  /-- The call broke off. -/
  | broken
  deriving DecidableEq, Repr

/-- The command went through. -/
def Answer.accepts : Answer → Bool
  | reply r => r.accepts
  | broken => false

/-- An adapter that keeps a `σ`. -/
structure Adapter (σ : Type) where
  /-- Opens the adapter. -/
  tryOpen : σ → Opening × σ
  /-- From now on keys go to the relay. -/
  attach : σ → σ
  /-- Sends a command to an address. -/
  send : PowerCommand → UInt8 → σ → Answer × σ
  /-- Closes the adapter; that this may break off makes no difference. -/
  close : σ → σ

/-- A call on an adapter. -/
inductive Call
  /-- An adapter was opened. -/
  | opened (handle : Nat)
  /-- An adapter could not be opened. -/
  | refused
  /-- Opening broke off. -/
  | broken
  /-- Keys were directed to the relay. -/
  | attached (handle : Nat)
  /-- A command was sent. -/
  | sent (command : PowerCommand) (address : UInt8) (handle : Nat) (accepted : Bool)
  /-- A handle was closed. -/
  | closed (handle : Nat)
  /-- Nothing was done for a while. -/
  | paused (span : Time.Span)
  deriving DecidableEq, Repr

/-- An adapter's side of the relay. -/
structure Port (σ : Type) where
  /-- What the adapter keeps. -/
  inner : σ
  /-- How many handles have been opened. -/
  handles : Nat := 0
  /-- The calls so far, in order. -/
  calls : List Call := []

namespace Port

variable {σ : Type} (a : Adapter σ)

/-- Notes a call. -/
def note (p : Port σ) (c : Call) : Port σ := { p with calls := p.calls ++ [c] }

/-- Tries to open the adapter. -/
def tryOpen (p : Port σ) : Except RelayError Nat × Port σ :=
  match a.tryOpen p.inner with
  | (.opened, inner) =>
    let handle := p.handles + 1
    (.ok handle, note { p with inner := inner, handles := handle } (.opened handle))
  | (.refused cause, inner) => (.error cause, note { p with inner := inner } .refused)
  | (.broken, inner) =>
    (.error (.connection "adapter open panicked"), note { p with inner := inner } .broken)

/-- Directs the keys of a handle to the relay. -/
def attach (handle : Nat) (p : Port σ) : Port σ :=
  note { p with inner := a.attach p.inner } (.attached handle)

/-- Sends a command on a handle. -/
def send (command : PowerCommand) (address : UInt8) (handle : Nat) (p : Port σ) : Bool × Port σ :=
  let (answer, inner) := a.send command address p.inner
  (answer.accepts, note { p with inner := inner } (.sent command address handle answer.accepts))

/-- Closes a handle. -/
def close (handle : Nat) (p : Port σ) : Port σ :=
  note { p with inner := a.close p.inner } (.closed handle)

/-- Waits. -/
def pause (span : Time.Span) (p : Port σ) : Port σ := note p (.paused span)

end Port
end CecRelay
