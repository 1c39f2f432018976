import CecRelay.Adapter.Scripted
import CecRelay.Proofs.Adapter.Calls
import Mathlib.Data.List.Induction
import Mathlib.Logic.Function.Basic

/-!
# Many who use one link

Any number of callers use one link: they issue commands, one by one or for a list of addresses, they ask
for a new handle, and they give the handle up (`Errand`). A `Crew` is all of them with the link that they
share. In each step one of them takes its next part, which runs alone on the link; a schedule says whose
turn it is, and there is a schedule for every way in which they may come between each other (`Crew.run`).
One errand alone does what carrying out its commands does (`Errand.exists_alone_broadcast`).

Whatever the errands, the schedule and the adapter, at most one handle is open at any moment, and nobody
touches a handle that is not (`Crew.exclusive`).
-/

namespace CecRelay

open Call

/-- Something that is asked of a link. -/
inductive Errand
  /-- A command is on its way; then the same goes to the other addresses. -/
  | sending (caller : Caller) (command : PowerCommand) (rest : List UInt8)
  /-- The handle is to be replaced. -/
  | reconnecting
  /-- The handle is to be given up. -/
  | closing
  /-- It has ended. -/
  | done (result : Except RelayError Unit)

namespace Errand

/-- A command to one address. -/
def issue (command : PowerCommand) (address : UInt8) : Errand := sending (.first command address) command []

/-- A command to addresses in order. -/
def broadcast (command : PowerCommand) : List UInt8 → Errand
  | [] => done (.ok ())
  | address :: rest => sending (.first command address) command rest

/-- The errand when one of its commands has come so far: the next address follows a command that has gone
through, and none follows one that has not. -/
def ofCaller (command : PowerCommand) (rest : List UInt8) : Caller → Errand
  | .done (.ok ()) => broadcast command rest
  | .done (.error cause) => done (.error cause)
  | caller => sending caller command rest

variable {σ : Type} (a : Adapter σ) (policy : LinkPolicy)

/-- The next part of an errand. -/
def step (e : Errand) (h : Hardware σ) : Errand × Hardware σ :=
  match e with
  | sending caller command rest =>
    let (caller, h) := caller.step a policy h
    (ofCaller command rest caller, h)
  | reconnecting =>
    let (result, h) := h.replace a policy
    (done result, h)
  | closing => (done (.ok ()), h.release a)
  | done result => (done result, h)

/-- A number of parts of an errand, without anybody else in between. -/
def alone : Nat → Errand × Hardware σ → Errand × Hardware σ
  | 0, x => x
  | n + 1, (e, h) => alone n (e.step a policy h)

theorem alone_add (m n : Nat) (x : Errand × Hardware σ) :
    alone a policy (m + n) x = alone a policy n (alone a policy m x) := by
  induction m generalizing x with
  | zero => rw [Nat.zero_add]; rfl
  | succ m ih => rw [Nat.succ_add]; exact ih _

/-- One command alone is issued, and then the errand goes on as it has ended. -/
theorem exists_alone_first (command : PowerCommand) (address : UInt8) (rest : List UInt8) (h : Hardware σ) :
    ∃ n, alone a policy n (sending (.first command address) command rest, h) =
      (ofCaller command rest (.done (h.issue a policy command address).1), (h.issue a policy command address).2) := by
  rcases hfirst : h.send a command address with ⟨_ | _, h₁⟩
  · rcases hsecond : h₁.replaceFrom a policy h₁.link.generation with ⟨cause | ⟨⟩, h₂⟩
    · exact ⟨2, by simp [alone, step, ofCaller, Caller.step, Hardware.issue, Caller.result?, hfirst, hsecond]⟩
    · rcases hthird : h₂.send a command address with ⟨_ | _, h₃⟩
      · exact ⟨3, by
          simp [alone, step, ofCaller, Caller.step, Hardware.issue, Caller.result?, hfirst, hsecond, hthird]⟩
      · exact ⟨3, by
          simp [alone, step, ofCaller, Caller.step, Hardware.issue, Caller.result?, hfirst, hsecond, hthird]⟩
  · exact ⟨1, by simp [alone, step, ofCaller, Caller.step, Hardware.issue, Caller.result?, hfirst]⟩

/-- Commands to addresses in order, without anybody else in between, are those of `Hardware.broadcast`. -/
theorem exists_alone_broadcast (command : PowerCommand) (addresses : List UInt8) (h : Hardware σ) :
    ∃ n, alone a policy n (broadcast command addresses, h) =
      (done (h.broadcast a policy command addresses).1, (h.broadcast a policy command addresses).2) := by
  induction addresses generalizing h with
  | nil => exact ⟨0, rfl⟩
  | cons address rest ih =>
    obtain ⟨m, hm⟩ := exists_alone_first a policy command address rest h
    rw [Hardware.broadcast]
    rcases hissue : h.issue a policy command address with ⟨cause | ⟨⟩, h₁⟩
    · rw [hissue] at hm
      exact ⟨m, hm⟩
    · rw [hissue] at hm
      obtain ⟨n, hn⟩ := ih h₁
      refine ⟨m + n, ?_⟩
      rw [alone_add, broadcast, hm]
      exact hn

/-- A single command goes on as its steps do. -/
theorem step_ofCaller (command : PowerCommand) (caller : Caller) (h : Hardware σ) :
    (ofCaller command [] caller).step a policy h =
      (ofCaller command [] (caller.step a policy h).1, (caller.step a policy h).2) := by
  cases caller with
  | done result =>
    cases result with
    | ok => rfl
    | error cause => rfl
  | first => rfl
  | replacing => rfl
  | second => rfl

/-- A single command has ended when its steps have. -/
theorem ofCaller_eq_done {command : PowerCommand} {caller : Caller} {result : Except RelayError Unit} :
    ofCaller command [] caller = done result ↔ caller = .done result := by
  cases caller with
  | done r => cases r <;> simp [ofCaller, broadcast]
  | first => simp [ofCaller]
  | replacing => simp [ofCaller]
  | second => simp [ofCaller]

/-- No part of an errand breaks what a link keeps. -/
theorem step_keeps {h : Hardware σ} (hk : h.Keeps) (e : Errand) : (e.step a policy h).2.Keeps := by
  cases e with
  | sending caller command rest => exact caller.step_keeps a policy hk
  | reconnecting => exact hk.replace a policy
  | closing => exact (hk.release a).1
  | done result => exact hk

end Errand

/-- All who use a link. -/
structure Crew (σ : Type) where
  /-- The link. -/
  hardware : Hardware σ
  /-- What is asked of it, by whom. -/
  errands : Nat → Errand
  /-- The calls that each of them has made. -/
  made : Nat → List Call := fun _ => []

namespace Crew

variable {σ : Type} (a : Adapter σ) (policy : LinkPolicy)

/-- One of them takes its next part. -/
def step (c : Crew σ) (i : Nat) : Crew σ :=
  let (e, h) := (c.errands i).step a policy c.hardware
  { hardware := h
    errands := Function.update c.errands i e
    made := Function.update c.made i (c.made i ++ h.port.calls.drop c.hardware.port.calls.length) }

/-- They take their parts as a schedule has it. -/
def run (c : Crew σ) (schedule : List Nat) : Crew σ := schedule.foldl (step a policy) c

variable {c : Crew σ}

theorem run_concat (schedule : List Nat) (i : Nat) :
    c.run a policy (schedule ++ [i]) = (c.run a policy schedule).step a policy i := by
  rw [run, List.foldl_append]
  rfl

theorem run_keeps (hk : c.hardware.Keeps) (schedule : List Nat) : (c.run a policy schedule).hardware.Keeps := by
  induction schedule using List.reverseRecOn with
  | nil => exact hk
  | append_singleton schedule i ih =>
    rw [run_concat]
    exact Errand.step_keeps a policy ih _

/-- Callers use a link as they like, from its first handle on. At any moment at most one handle is live.
The adapter is opened only while none is; a command goes only to the live handle, on which keys have been
directed to the relay before; only the live handle is closed, and none twice. A link that has failed has
none. -/
theorem exclusive {inner : σ} {link : Link} {port : Port σ}
    (hconnect : Hardware.connect a ⟨inner, 0, []⟩ = (.ok link, port)) (errands : Nat → Errand)
    (schedule : List Nat) :
    let h := (Crew.run a policy ⟨⟨link, port⟩, errands, fun _ => []⟩ schedule).hardware
    (∀ before, before <+: h.port.calls → ∀ j k, Live before j → Live before k → j = k) ∧
    (∀ before c, before ++ [c] <+: h.port.calls →
      (c.isAttempt = true → ∀ k, ¬ Live before k) ∧
      (∀ command address k accepted, c = .sent command address k accepted →
        Live before k ∧ .attached k ∈ before) ∧
      ∀ k, c = .closed k → Live before k) ∧
    (∀ k, h.port.calls.count (.closed k) ≤ 1) ∧
    (∀ k, Live h.port.calls k ↔ h.link.handle = some k) ∧
    (h.link.health = .failed → ∀ k, ¬ Live h.port.calls k) := by
  intro h
  obtain ⟨-, -, -, hstart⟩ := Hardware.Keeps.connected a hconnect
  have hk : h.Keeps := run_keeps a policy hstart schedule
  have horderly := hk.port.orderly
  refine ⟨fun before hb j k hj hk' => (horderly.take hb).live_unique hj hk', fun before c hb => ?_,
    horderly.count_closed_le, hk.port.live, fun hf k hlive => ?_⟩
  · have hs := horderly.suits hb
    refine ⟨fun hattempt => ?_, ?_, ?_⟩
    · cases c with
      | opened k => exact hs.1
      | refused => exact hs
      | broken => exact hs
      | attached k => cases hattempt
      | sent command address k accepted => cases hattempt
      | closed k => cases hattempt
      | paused span => cases hattempt
    · rintro command address k accepted rfl
      exact hs
    · rintro k rfl
      exact hs
  · have hnone := hk.failed hf
    rw [(hk.port.live k).1 hlive] at hnone
    cases hnone

/-- Two commands are rejected on the first handle. For the caller whose turn it is first, opening is refused
once and breaks off once before it succeeds, and its second command breaks off. Then the handle is replaced
on demand, and in the end it is given up. -/
theorem exclusive_rejected_twice :
    let script : Script := ⟨[.opened, .refused (.connection "busy"), .broken],
      [.reply none, .reply (some ""), .broken], .opened, .reply (some "ok")⟩
    let errands : Nat → Errand
      | 0 => .broadcast .standby [0, 5]
      | 1 => .issue .powerOn 0
      | 2 => .reconnecting
      | _ => .closing
    let link : Link := ⟨some 1, 1, .connected⟩
    let port : Port Script :=
      ⟨{ script with opens := [.refused (.connection "busy"), .broken] }, 1, [.opened 1, .attached 1]⟩
    Hardware.connect Script.adapter ⟨script, 0, []⟩ = (.ok link, port) ∧
      let h := (Crew.run Script.adapter ⟨3, ⟨0⟩⟩ ⟨⟨link, port⟩, errands, fun _ => []⟩
        [0, 1, 0, 1, 0, 2, 1, 3]).hardware
      h.port.calls = [.opened 1, .attached 1, .sent .standby 0 1 false, .sent .powerOn 0 1 false, .closed 1,
        .refused, .broken, .opened 2, .attached 2, .sent .standby 0 2 false, .closed 2, .opened 3, .attached 3,
        .sent .powerOn 0 3 true, .closed 3] ∧
      (∀ k, h.port.calls.count (.closed k) ≤ 1) ∧ ∀ k, Live h.port.calls k ↔ h.link.handle = some k := by
  intro script errands link port
  have hconnect : Hardware.connect Script.adapter ⟨script, 0, []⟩ = (.ok link, port) := rfl
  obtain ⟨-, -, hclosed, hlive, -⟩ :=
    exclusive Script.adapter ⟨3, ⟨0⟩⟩ hconnect errands [0, 1, 0, 1, 0, 2, 1, 3]
  exact ⟨hconnect, by decide +kernel, hclosed, hlive⟩

end Crew
end CecRelay
