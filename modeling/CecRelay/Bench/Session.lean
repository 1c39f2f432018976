import CecRelay.Adapter.Identity
import CecRelay.Adapter.Scripted
import CecRelay.Bench.DiskView
import CecRelay.Bench.Folder
import CecRelay.Dispatch.Stage
import CecRelay.Keymap.Table

/-!
# Sessions on the bench

A session puts the parts of the relay together on a bench with a scripted adapter and a clock of its
own, and takes them through steps. This module holds what a session is given, the steps, what a step
answers and what is reported after it.
-/

namespace CecRelay.Bench

/-- What a session is given. -/
structure Setup where
  /-- The length of the lanes. -/
  capacity : Nat
  /-- The longest wait of the pump, in milliseconds. -/
  poll : Nat
  /-- How the link replaces its handle. -/
  policy : LinkPolicy
  /-- The adapter. -/
  identity : Identity
  /-- The devices, in order. -/
  devices : List UInt8
  /-- The restarts left. -/
  budget : UInt32
  /-- The key table of the key handler; without one the codes are noted. -/
  table : Option KeyTable
  /-- Replacing the program works. -/
  replaceable : Bool
  /-- The program. -/
  program : Program

/-- A task beside the relay. -/
inductive TaskKind
  /-- Stores the keys that the adapter pushes. -/
  | forwarder
  /-- Never ends. -/
  | stuck
  /-- Ends some time after it was asked to stop. -/
  | slow
  /-- Breaks off when it is asked to stop. -/
  | breaking
  /-- Stores a key when it is asked to stop. -/
  | storing
  deriving DecidableEq, Repr

/-- Changes to the adapter's script; what is not given stays. -/
structure ScriptChange where
  /-- How the next attempts to open end. -/
  opens : Option (List Opening)
  /-- How the next commands end. -/
  answers : Option (List Answer)
  /-- How an attempt to open ends after those. -/
  laterOpen : Option Opening
  /-- How a command ends after those. -/
  laterAnswer : Option Answer

/-- A step of a session. -/
inductive Step
  /-- Write a file in the queue's folder. -/
  | write (spot : Spot) (bytes : Bytes) (anew : Bool)
  /-- Make a folder there. -/
  | makeFolder (spot : Spot)
  /-- Remove something there. -/
  | remove (spot : Spot)
  /-- Open the queue. -/
  | «open» (capacity poll : Option Nat)
  /-- Store events, one after the other. -/
  | enqueue (events : List Event)
  /-- Receive up to so many items. -/
  | receive (stream : Stream) (max : Nat)
  /-- Close the queue. -/
  | close (delete : Bool)
  /-- Give up the receiving ends of the lanes. -/
  | dropStreams
  /-- The process dies. -/
  | crash
  /-- Time passes, in milliseconds. -/
  | wait (millis : Nat)
  /-- Restart the program. -/
  | restart (budget : UInt32)
  /-- Change what the adapter does next. -/
  | script (change : ScriptChange)
  /-- Open the link. -/
  | connect
  /-- Send a command. -/
  | issue (command : PowerCommand) (address : UInt8)
  /-- Send a command to several addresses in order. -/
  | broadcast (command : PowerCommand) (addresses : List UInt8)
  /-- Replace the handle. -/
  | reconnect
  /-- Close the adapter. -/
  | closeAdapter
  /-- Send a command to several addresses at once. -/
  | parallel (command : PowerCommand) (addresses : List UInt8)
  /-- The adapter pushes a key. -/
  | adapterKey (key : KeyPress)
  /-- Take the keys that the adapter has pushed. -/
  | takeKeys
  /-- Start the relay. -/
  | start (tasks : List TaskKind)
  /-- Ask everybody to stop. -/
  | cancel

/-- What is received, or why nothing is. -/
inductive Item
  /-- An event. -/
  | event (e : Event)
  /-- There is nothing to receive. -/
  | pending
  /-- There will never be anything more. -/
  | closed
  deriving DecidableEq, Repr

/-- What a step needs and does not find. -/
inductive Lack
  /-- A queue that is open. -/
  | queue
  /-- The receiving ends of the lanes. -/
  | streams
  /-- A link. -/
  | link
  /-- A link, and a queue whose lanes nobody receives from yet. -/
  | parts
  deriving DecidableEq, Repr

/-- The answer to a step. -/
inductive Result
  /-- Nothing. -/
  | none
  /-- Yes or no. -/
  | flag (b : Bool)
  /-- The path of a queue that has been opened. -/
  | path (s : String)
  /-- The numbers of stored events. -/
  | stored (seqs : List (Option UInt64))
  /-- What has been received. -/
  | items (is : List Item)
  /-- Success or an error. -/
  | outcome (r : Except RelayError Unit)
  /-- Success or an error of a command, and the milliseconds it took. -/
  | timed (r : Except RelayError Unit) (waited : Nat)
  /-- The same of several commands. -/
  | results (rs : List (Except RelayError Unit)) (waited : Nat)
  /-- Keys. -/
  | keys (ks : List KeyPress)
  /-- The step makes no sense here. -/
  | senseless (lack : Lack)
  /-- The program has broken off. -/
  | broken

/-- What the key handler has been given. -/
inductive KeyNote
  /-- A code. -/
  | code (c : UInt8)
  /-- A stroke. -/
  | stroke (s : Stroke)
  deriving DecidableEq, Repr

/-- What is reported after a step. -/
structure Report where
  /-- The answer. -/
  result : Result
  /-- The calls on the adapter. -/
  bus : List String
  /-- What the key handler was given. -/
  keys : List KeyNote
  /-- The notes of tasks, sorted. -/
  tasks : List String
  /-- The plans to replace the program. -/
  plans : List RestartPlan
  /-- The health and generation of the link. -/
  link : Option (Health × Nat)
  /-- How the relay has ended, and whether everybody has been asked to stop. -/
  exit : Option (Except RelayError Exit × Bool)
  /-- What is seen of the queue's folder. -/
  disk : DiskView

end CecRelay.Bench
