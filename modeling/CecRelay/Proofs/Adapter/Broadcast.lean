import CecRelay.Adapter.Scripted
import CecRelay.Proofs.Adapter.Budget

/-!
# A command for many addresses, call by call

The addresses of a broadcast get their command one after the other. Each costs one call when the command is
acknowledged at once, and otherwise the calls of one replacement and a second sending (`Served`). The first address
for which that is not enough is given up, either after the second sending or because the adapter could not be opened
(`GivenUp`), and it is the last one for which anything is called. So the record of a broadcast is what is called for
the addresses served, one after the other (`ServedAll`), and then, if there was an error, what is called for the one
that was given up (`Hardware.broadcast_record`).
-/

namespace CecRelay

open Call

/-! ### What may be called for an address -/

namespace Call

/-- An attempt to open the adapter that has failed. -/
def Fails (c : Call) : Prop := c = refused ∨ c = broken

/-- Attempts to open the adapter, `n` of them at most: they fail, up to the last one, which gives the handle. -/
def OpensWithin (n handle : Nat) (calls : List Call) : Prop :=
  calls.length ≤ n ∧ ∃ fails, calls = fails ++ [opened handle] ∧ ∀ c ∈ fails, c.Fails

/-- `n` attempts to open the adapter, all of which fail. -/
def Exhausts (n : Nat) (calls : List Call) : Prop := calls.length = n ∧ ∀ c ∈ calls, c.Fails

end Call

/-- The calls for an address that gets the command, while `k` is the handle and `m` handles have been opened; behind
them the handle and the number of handles when they have been made. -/
inductive Served (policy : LinkPolicy) (command : PowerCommand) (address : UInt8) (k m : Nat) :
    List Call → Nat → Nat → Prop
  /-- The command is acknowledged. -/
  | atOnce : Served policy command address k m [.sent command address k true] k m
  /-- It is rejected, the handle is replaced, and it is acknowledged on the new one. -/
  | afterwards {opens : List Call} : OpensWithin (max 1 policy.budget.toNat) (m + 1) opens →
    Served policy command address k m
      ([.sent command address k false, .closed k] ++ spaced policy.delay opens ++
        [.attached (m + 1), .sent command address (m + 1) true]) (m + 1) (m + 1)

/-- The calls for addresses that all get the command, one after the other. -/
inductive ServedAll (policy : LinkPolicy) (command : PowerCommand) :
    List UInt8 → Nat → Nat → List Call → Nat → Nat → Prop
  /-- There is none. -/
  | nil {k m : Nat} : ServedAll policy command [] k m [] k m
  /-- The first, and then the others. -/
  | cons {address : UInt8} {addresses : List UInt8} {k m k₁ m₁ k' m' : Nat} {calls more : List Call} :
    Served policy command address k m calls k₁ m₁ → ServedAll policy command addresses k₁ m₁ more k' m' →
    ServedAll policy command (address :: addresses) k m (calls ++ more) k' m'

/-- The calls for an address that is given up, the error, and the handle and the health of the link after it. -/
inductive GivenUp (policy : LinkPolicy) (command : PowerCommand) (address : UInt8) (k m : Nat) :
    List Call → RelayError → Option Nat → Health → Prop
  /-- The command is rejected on the new handle too. -/
  | rejected {opens : List Call} : OpensWithin (max 1 policy.budget.toNat) (m + 1) opens →
    GivenUp policy command address k m
      ([.sent command address k false, .closed k] ++ spaced policy.delay opens ++
        [.attached (m + 1), .sent command address (m + 1) false])
      (.commandFailed command address) (some (m + 1)) .connected
  /-- There is no new handle. -/
  | unopened {opens : List Call} : Exhausts (max 1 policy.budget.toNat) opens →
    GivenUp policy command address k m
      ([.sent command address k false, .closed k] ++ spaced policy.delay opens)
      (.reconnectExhausted policy.attempts) none .failed

/-! ### Attempts -/

namespace Adapter

variable {σ : Type} {a : Adapter σ} {s : σ} {n : Nat}

theorem fails_call {o : Opening} (h : o ≠ .opened) (handle : Nat) : (o.call handle).Fails := by
  cases o with
  | opened => exact absurd rfl h
  | refused => exact .inl rfl
  | broken => exact .inr rfl

/-- Attempts before the first that opens the adapter. -/
theorem fails_of_mem_attempts (h : ∀ i < n, a.outcome s i ≠ .opened) {handle : Nat} :
    ∀ c ∈ a.attempts handle s n, c.Fails := by
  intro c hc
  obtain ⟨i, hi, rfl⟩ := List.mem_map.1 hc
  exact fails_call (h i (List.mem_range.1 hi)) handle

theorem exhausts_attempts (h : ∀ i < n, a.outcome s i ≠ .opened) (handle : Nat) :
    Exhausts n (a.attempts handle s n) :=
  ⟨a.length_attempts handle s n, fails_of_mem_attempts h⟩

theorem OpensAfter.opensWithin {i : Nat} (h : a.OpensAfter s i) (hlt : i < n) (handle : Nat) :
    OpensWithin n handle (a.attempts handle s (i + 1)) := by
  refine ⟨?_, a.attempts handle s i, ?_, fails_of_mem_attempts h.2⟩
  · rw [length_attempts]
    exact hlt
  · rw [attempts, List.range_succ, List.map_append, List.map_singleton, h.1]
    rfl

end Adapter

/-! ### One address -/

namespace Hardware

variable {σ : Type} (a : Adapter σ) (policy : LinkPolicy) {h : Hardware σ} {k : Nat}

/-- A caller whose command has just been rejected has the handle replaced. -/
theorem replaceFrom_own (hhealth : h.link.health = .connected) :
    h.replaceFrom a policy h.link.generation = h.replace a policy := by
  have halive : h.link.health ≠ .failed := by rw [hhealth]; decide
  rw [replaceFrom, if_neg halive, if_neg fun hother => hother.1 rfl]

/-- A handle is replaced by the next one within the budget, or the budget is exhausted. -/
theorem replace_record (hheld : h.link.handle = some k) :
    (∃ h' opens, h.replace a policy = (.ok (), h') ∧
        OpensWithin (max 1 policy.budget.toNat) (h.port.handles + 1) opens ∧
        h'.link.handle = some (h.port.handles + 1) ∧ h'.link.health = .connected ∧
        h'.port.handles = h.port.handles + 1 ∧
        h'.port.calls = h.port.calls ++
          ([.closed k] ++ spaced policy.delay opens ++ [.attached (h.port.handles + 1)])) ∨
      ∃ h' opens, h.replace a policy = (.error (.reconnectExhausted policy.attempts), h') ∧
        Exhausts (max 1 policy.budget.toNat) opens ∧ h'.link.handle = none ∧ h'.link.health = .failed ∧
        h'.port.calls = h.port.calls ++ ([.closed k] ++ spaced policy.delay opens) := by
  have hclosing : h.link.handle.toList.map Call.closed = [.closed k] := by
    rw [hheld]
    rfl
  rw [← policy.toNat_attempts]
  by_cases hopens : ∃ i < policy.attempts.toNat, a.outcome (h.release a).port.inner i = .opened
  · obtain ⟨i, hi, hopened⟩ := hopens
    obtain ⟨j, hj, hfirst⟩ := Adapter.exists_opensAfter hopened
    have hlt : j < policy.attempts.toNat := Nat.lt_of_le_of_lt hj hi
    refine .inl ⟨_, _, replace_of_opensAfter a policy h hfirst hlt,
      hfirst.opensWithin hlt (h.port.handles + 1), rfl, rfl, rfl, ?_⟩
    rw [hclosing, List.append_assoc]
  · have hfails : ∀ i < policy.attempts.toNat, a.outcome (h.release a).port.inner i ≠ .opened :=
      fun i hi hopened => hopens ⟨i, hi, hopened⟩
    refine .inr ⟨_, _, replace_of_none a policy h hfails,
      Adapter.exhausts_attempts hfails (h.port.handles + 1), rfl, rfl, ?_⟩
    rw [hclosing]

/-- Sending on a handle adds one call to the record and leaves the link as it is. -/
theorem send_record (hheld : h.link.handle = some k) (command : PowerCommand) (address : UInt8) :
    ∃ accepted h', h.send a command address = (accepted, h') ∧ h'.link = h.link ∧
      h'.port.handles = h.port.handles ∧
      h'.port.calls = h.port.calls ++ [.sent command address k accepted] := by
  rcases send_cases a h command address with ⟨hnone, -⟩ | ⟨k', accepted, inner, hsome, heq⟩
  · rw [hheld] at hnone
    cases hnone
  · rw [hheld] at hsome
    cases hsome
    exact ⟨accepted, _, heq, rfl, rfl, rfl⟩

/-- An address gets the command, and the link is as healthy as before; or it is given up. -/
theorem issue_record (hheld : h.link.handle = some k) (hhealth : h.link.health = .connected)
    (command : PowerCommand) (address : UInt8) :
    (∃ h' calls k', h.issue a policy command address = (.ok (), h') ∧
        Served policy command address k h.port.handles calls k' h'.port.handles ∧
        h'.link.handle = some k' ∧ h'.link.health = .connected ∧ h'.port.calls = h.port.calls ++ calls) ∨
      ∃ h' calls error, h.issue a policy command address = (.error error, h') ∧
        GivenUp policy command address k h.port.handles calls error h'.link.handle h'.link.health ∧
        h'.port.calls = h.port.calls ++ calls := by
  obtain ⟨accepted, h₁, hfirst, hlink₁, hhandles₁, hcalls₁⟩ := send_record a hheld command address
  cases accepted with
  | true =>
    refine .inl ⟨h₁, _, k, by simp [issue, Caller.step, Caller.result?, hfirst], ?_, hlink₁ ▸ hheld,
      hlink₁ ▸ hhealth, hcalls₁⟩
    rw [hhandles₁]
    exact .atOnce
  | false =>
    have hheld₁ : h₁.link.handle = some k := hlink₁ ▸ hheld
    have hown := replaceFrom_own a policy (h := h₁) (hlink₁ ▸ hhealth)
    rcases replace_record a policy hheld₁ with
      ⟨h₂, opens, hreplace, hopens, hheld₂, hhealth₂, hhandles₂, hcalls₂⟩ |
      ⟨h₂, opens, hreplace, hopens, hheld₂, hhealth₂, hcalls₂⟩
    · -- the second sending, on the new handle
      rw [hhandles₁] at hopens hheld₂ hhandles₂ hcalls₂
      obtain ⟨again, h₃, hsecond, hlink₃, hhandles₃, hcalls₃⟩ := send_record a hheld₂ command address
      have hrecord : h₃.port.calls = h.port.calls ++ ([.sent command address k false, .closed k] ++
          spaced policy.delay opens ++ [.attached (h.port.handles + 1),
            .sent command address (h.port.handles + 1) again]) := by
        rw [hcalls₃, hcalls₂, hcalls₁]
        simp only [List.append_assoc, List.cons_append, List.nil_append]
      cases again with
      | true =>
        refine .inl ⟨h₃, _, h.port.handles + 1,
          by simp [issue, Caller.step, Caller.result?, hfirst, hown, hreplace, hsecond], ?_, hlink₃ ▸ hheld₂,
          hlink₃ ▸ hhealth₂, hrecord⟩
        rw [hhandles₃, hhandles₂]
        exact .afterwards hopens
      | false =>
        refine .inr ⟨h₃, _, .commandFailed command address,
          by simp [issue, Caller.step, Caller.result?, hfirst, hown, hreplace, hsecond], ?_, hrecord⟩
        rw [hlink₃, hheld₂, hhealth₂]
        exact .rejected hopens
    · refine .inr ⟨h₂, [.sent command address k false, .closed k] ++ spaced policy.delay opens,
        .reconnectExhausted policy.attempts, by simp [issue, Caller.step, Caller.result?, hfirst, hown, hreplace],
        ?_, ?_⟩
      · rw [hheld₂, hhealth₂]
        exact .unopened hopens
      · rw [hcalls₂, hcalls₁, List.append_assoc]
        rfl

/-! ### All addresses -/

/-- On a link that is connected, the record of a broadcast is what is called for the addresses of a first part of
the list, each of which gets its command. That part is the whole list if there is no error. Otherwise there follows
what is called for the next address, which is given up, and nothing is called for those after it. -/
theorem broadcast_record (hheld : h.link.handle = some k) (hhealth : h.link.health = .connected)
    (command : PowerCommand) (addresses : List UInt8) :
    let (result, h') := h.broadcast a policy command addresses
    ∃ served rest calls k' m', addresses = served ++ rest ∧
      ServedAll policy command served k h.port.handles calls k' m' ∧
      (result = .ok () ↔ rest = []) ∧
      (result = .ok () → h'.port.calls = h.port.calls ++ calls ∧
        h'.link.handle = some k' ∧ h'.link.health = .connected) ∧
      ∀ error, result = .error error → ∃ address later last, rest = address :: later ∧
        GivenUp policy command address k' m' last error h'.link.handle h'.link.health ∧
        h'.port.calls = h.port.calls ++ (calls ++ last) := by
  induction addresses generalizing h k with
  | nil =>
    exact ⟨[], [], [], k, h.port.handles, rfl, .nil, ⟨fun _ => rfl, fun _ => rfl⟩,
      fun _ => ⟨(List.append_nil _).symm, hheld, hhealth⟩, fun error herror => (by cases herror)⟩
  | cons address addresses ih =>
    rw [broadcast]
    rcases issue_record a policy hheld hhealth command address with
      ⟨h₁, calls, k₁, hissue, hserved, hheld₁, hhealth₁, hcalls⟩ | ⟨h₁, calls, error, hissue, hgiven, hcalls⟩
    · simp only [hissue]
      obtain ⟨served, rest, more, k', m', hparts, hall, hok, hdone, hlost⟩ := ih hheld₁ hhealth₁
      refine ⟨address :: served, rest, calls ++ more, k', m', by rw [hparts, List.cons_append],
        .cons hserved hall, hok, fun hsome => ?_, fun error herror => ?_⟩
      · obtain ⟨hrecord, hheld', hhealth'⟩ := hdone hsome
        exact ⟨by rw [hrecord, hcalls, List.append_assoc], hheld', hhealth'⟩
      · obtain ⟨next, later, last, hrest, hgiven, hrecord⟩ := hlost error herror
        exact ⟨next, later, last, hrest, hgiven, by rw [hrecord, hcalls]; simp only [List.append_assoc]⟩
    · simp only [hissue]
      refine ⟨[], address :: addresses, [], k, h.port.handles, rfl, .nil,
        ⟨fun hok => (by cases hok), fun hrest => (by cases hrest)⟩, fun hok => (by cases hok), fun cause hcause => ?_⟩
      cases hcause
      exact ⟨address, addresses, calls, rfl, hgiven, hcalls⟩

/-- The first address is served at once and the second on a new handle, which takes two attempts to open the adapter.
The third is rejected, the adapter is not opened again, and for the fourth nothing is called. -/
theorem broadcast_record_exhausted :
    let script : Script := ⟨[.refused (.connection "busy"), .opened, .refused (.connection "busy"), .broken],
      [.reply (some "ok"), .reply none, .reply (some "ok"), .broken], .opened, .reply (some "ok")⟩
    let h : Hardware Script := ⟨⟨some 1, 1, .connected⟩, ⟨script, 1, [.opened 1, .attached 1]⟩⟩
    let policy : LinkPolicy := ⟨2, ⟨1000000000⟩⟩
    let (result, h') := h.broadcast Script.adapter policy .standby [0, 5, 7, 9]
    h.link.handle = some 1 ∧ h.link.health = .connected ∧
    result = .error (.reconnectExhausted 2) ∧ h'.link = ⟨none, 2, .failed⟩ ∧
    h'.port.calls = [.opened 1, .attached 1, .sent .standby 0 1 true, .sent .standby 5 1 false, .closed 1,
      .refused, .paused ⟨1000000000⟩, .opened 2, .attached 2, .sent .standby 5 2 true, .sent .standby 7 2 false,
      .closed 2, .refused, .paused ⟨1000000000⟩, .broken] ∧
    ∃ served rest calls k' m', [0, 5, 7, 9] = served ++ rest ∧
      ServedAll policy .standby served 1 1 calls k' m' ∧ (result = .ok () ↔ rest = []) ∧
      ∃ address later last, rest = address :: later ∧
        GivenUp policy .standby address k' m' last (.reconnectExhausted 2) none .failed ∧
        h'.port.calls = [.opened 1, .attached 1] ++ (calls ++ last) := by
  intro script h policy
  obtain ⟨served, rest, calls, k', m', hparts, hall, hok, -, hlost⟩ :=
    broadcast_record Script.adapter policy (h := h) (k := 1) rfl rfl .standby [0, 5, 7, 9]
  refine ⟨rfl, rfl, rfl, rfl, by decide +kernel, served, rest, calls, k', m', hparts, hall, hok, ?_⟩
  exact hlost (.reconnectExhausted 2) rfl

end Hardware
end CecRelay
