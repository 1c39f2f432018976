import CecRelay.Adapter.Port

/-!
# The link: a handle that is replaced when it fails

The link holds the one open handle. A command that is rejected has the handle replaced by a fresh
one and is sent once more. Every handle has a generation, one more than the last; a caller whose
command was rejected says on which generation, and if that one has been replaced in the meantime
nothing is torn down. When no attempt to open the adapter succeeds the link has failed, and stays so
until somebody asks for a new handle in so many words.

A command is carried out in up to three steps (`Caller.step`): the first sending, the replacement of
the handle, the second sending. Each of them runs alone on the link; between them other callers may
take theirs.
-/

namespace CecRelay

/-- The state of health of a link. -/
inductive Health
  /-- There is a handle that works as far as is known. -/
  | connected
  /-- The handle is being replaced. -/
  | reconnecting
  /-- Every attempt to open the adapter has failed. -/
  | failed
  deriving DecidableEq, Repr

/-- How a link replaces its handle. -/
structure LinkPolicy where
  /-- The attempts to open the adapter; none count as one. -/
  budget : UInt32
  /-- The pause between two attempts. -/
  delay : Time.Span
  deriving DecidableEq, Repr

/-- The attempts that are really made. -/
def LinkPolicy.attempts (p : LinkPolicy) : UInt32 := max p.budget 1

/-- A link. -/
structure Link where
  /-- The open handle. -/
  handle : Option Nat
  /-- The number of handles this link has had. -/
  generation : Nat
  /-- Its state of health. -/
  health : Health
  deriving DecidableEq, Repr

/-- A link and the adapter behind it. -/
structure Hardware (σ : Type) where
  /-- The link. -/
  link : Link
  /-- The adapter's side. -/
  port : Port σ

namespace Hardware

variable {σ : Type} (a : Adapter σ) (policy : LinkPolicy)

/-- Opens the adapter for the first time. -/
def connect (p : Port σ) : Except RelayError Link × Port σ :=
  match p.tryOpen a with
  | (.ok handle, p) => (.ok ⟨some handle, 1, .connected⟩, p.attach a handle)
  | (.error cause, p) => (.error cause, p)

/-- Sends a command once. Without a handle it is rejected. -/
def send (command : PowerCommand) (address : UInt8) (h : Hardware σ) : Bool × Hardware σ :=
  match h.link.handle with
  | none => (false, h)
  | some handle =>
    let (accepted, port) := h.port.send a command address handle
    (accepted, { h with port := port })

/-- Gives the handle up and closes it. -/
def release (h : Hardware σ) : Hardware σ :=
  match h.link.handle with
  | none => h
  | some handle => ⟨{ h.link with handle := none }, h.port.close a handle⟩

/-- Takes a handle that has been opened. -/
def adopt (handle : Nat) (h : Hardware σ) : Hardware σ :=
  ⟨⟨some handle, h.link.generation + 1, .connected⟩, h.port.attach a handle⟩

/-- Tries to open the adapter a number of times, with a pause between two attempts. -/
def reopen : Nat → Hardware σ → Bool × Hardware σ
  | 0, h => (false, { h with link := { h.link with health := .failed } })
  | left + 1, h =>
    match h.port.tryOpen a with
    | (.ok handle, port) => (true, adopt a handle { h with port := port })
    | (.error _, port) =>
      reopen left { h with
        port := if left = 0 ∨ policy.delay.nanos = 0 then port else port.pause policy.delay }

/-- Replaces the handle. -/
def replace (h : Hardware σ) : Except RelayError Unit × Hardware σ :=
  let h := release a { h with link := { h.link with health := .reconnecting } }
  match reopen a policy policy.attempts.toNat h with
  | (true, h) => (.ok (), h)
  | (false, h) => (.error (.reconnectExhausted policy.attempts), h)

/-- Replaces the handle of generation `observed`, if it is still there. -/
def replaceFrom (observed : Nat) (h : Hardware σ) : Except RelayError Unit × Hardware σ :=
  if h.link.health = .failed then (.error (.reconnectExhausted policy.attempts), h)
  else if h.link.generation ≠ observed ∧ h.link.health = .connected then (.ok (), h)
  else replace a policy h

end Hardware

/-- A command on its way. -/
inductive Caller
  /-- It is sent for the first time. -/
  | first (command : PowerCommand) (address : UInt8)
  /-- It was rejected on a generation, which is to be replaced. -/
  | replacing (command : PowerCommand) (address : UInt8) (observed : Nat)
  /-- It is sent for the second time. -/
  | second (command : PowerCommand) (address : UInt8)
  /-- It has ended. -/
  | done (result : Except RelayError Unit)

namespace Caller

variable {σ : Type} (a : Adapter σ) (policy : LinkPolicy)

/-- The next step of a command. -/
def step (c : Caller) (h : Hardware σ) : Caller × Hardware σ :=
  match c with
  | first command address =>
    match h.send a command address with
    | (true, h) => (done (.ok ()), h)
    | (false, h) => (replacing command address h.link.generation, h)
  | replacing command address observed =>
    match h.replaceFrom a policy observed with
    | (.ok (), h) => (second command address, h)
    | (.error cause, h) => (done (.error cause), h)
  | second command address =>
    match h.send a command address with
    | (true, h) => (done (.ok ()), h)
    | (false, h) => (done (.error (.commandFailed command address)), h)
  | done result => (done result, h)

/-- How a command has ended. -/
def result? : Caller → Option (Except RelayError Unit)
  | done result => some result
  | _ => none

end Caller

namespace Hardware

variable {σ : Type} (a : Adapter σ) (policy : LinkPolicy)

/-- Carries out a command, without anybody else in between. -/
def issue (command : PowerCommand) (address : UInt8) (h : Hardware σ) :
    Except RelayError Unit × Hardware σ :=
  let (c, h) := Caller.step a policy (.first command address) h
  let (c, h) := c.step a policy h
  let (c, h) := c.step a policy h
  (c.result?.getD (.ok ()), h)

/-- Carries out a command on every address in order, up to the first that fails. -/
def broadcast (command : PowerCommand) : List UInt8 → Hardware σ →
    Except RelayError Unit × Hardware σ
  | [], h => (.ok (), h)
  | address :: addresses, h =>
    match issue a policy command address h with
    | (.ok (), h) => broadcast command addresses h
    | (.error cause, h) => (.error cause, h)

end Hardware
end CecRelay
