import CecRelay.Proofs.Adapter.Budget
import CecRelay.Proofs.Adapter.Errands

/-!
# Links that have failed

A link that has failed has no handle, so what is sent on it goes nowhere, and nothing but a replacement of the
handle that somebody asks for in so many words makes attempts to open the adapter (`Errand.step_of_failed`). Until
such a replacement goes well the link stays as it is (`Crew.Waits`), and every command loses: it has so many turns
to go, and then it ends with the error of the link (`Errand.Losing`).

The same holds of commands that are rejected on one generation whose replacement fails: the first of them makes
the attempts of the budget, the others find that the link has failed (`Crew.Contends`).
-/

namespace CecRelay

open Call

/-- The adapter has not been opened, and it has accepted no command. -/
structure Call.Fruitless (calls : List Call) : Prop where
  /-- Every attempt to open it has failed. -/
  unopened : ∀ k, opened k ∉ calls
  /-- Every command was rejected. -/
  rejected : ∀ command address k, sent command address k true ∉ calls

theorem Call.Fruitless.of_append {calls more : List Call} (h : Fruitless (calls ++ more)) :
    Fruitless calls ∧ Fruitless more :=
  ⟨⟨fun k hk => h.unopened k (List.mem_append_left _ hk),
      fun command address k hk => h.rejected command address k (List.mem_append_left _ hk)⟩,
    ⟨fun k hk => h.unopened k (List.mem_append_right _ hk),
      fun command address k hk => h.rejected command address k (List.mem_append_right _ hk)⟩⟩

variable {σ : Type} (a : Adapter σ) (policy : LinkPolicy)

/-! ### The record grows -/

namespace Hardware

variable {h : Hardware σ}

theorem calls_send (h : Hardware σ) (command : PowerCommand) (address : UInt8) :
    h.port.calls <+: (h.send a command address).2.port.calls := by
  rcases send_cases a h command address with ⟨-, heq⟩ | ⟨k, accepted, inner, -, heq⟩
  · exact ⟨[], by rw [heq, List.append_nil]⟩
  · exact ⟨[.sent command address k accepted], by rw [heq]; rfl⟩

theorem Keeps.calls_replace (hk : h.Keeps) : h.port.calls <+: (h.replace a policy).2.port.calls := by
  obtain ⟨before, tries, -, -, ⟨-, -, -, -, -, hcalls⟩ | ⟨-, -, -, -, -, hcalls⟩⟩ := replace_cases a policy hk
  · exact ⟨_, hcalls.symm⟩
  · exact ⟨_, hcalls.symm⟩

theorem Keeps.calls_replaceFrom (hk : h.Keeps) (observed : Nat) :
    h.port.calls <+: (h.replaceFrom a policy observed).2.port.calls := by
  unfold Hardware.replaceFrom
  split
  · exact List.prefix_refl _
  · split
    · exact List.prefix_refl _
    · exact hk.calls_replace a policy

end Hardware

theorem Caller.calls_step {h : Hardware σ} (hk : h.Keeps) (c : Caller) :
    h.port.calls <+: (c.step a policy h).2.port.calls := by
  cases c with
  | first command address =>
    have hsent := h.calls_send a command address
    rw [step]
    split
    next heq => rwa [heq] at hsent
    next heq => rwa [heq] at hsent
  | replacing command address observed =>
    have hreplaced := hk.calls_replaceFrom a policy observed
    rw [step]
    split
    next heq => rwa [heq] at hreplaced
    next heq => rwa [heq] at hreplaced
  | second command address =>
    have hsent := h.calls_send a command address
    rw [step]
    split
    next heq => rwa [heq] at hsent
    next heq => rwa [heq] at hsent
  | done result => exact List.prefix_refl _

theorem Errand.calls_step {h : Hardware σ} (hk : h.Keeps) (e : Errand) :
    h.port.calls <+: (e.step a policy h).2.port.calls := by
  cases e with
  | sending caller command rest => exact caller.calls_step a policy hk
  | reconnecting => exact hk.calls_replace a policy
  | closing =>
    rw [step]
    rcases Hardware.release_cases a h with ⟨-, heq⟩ | ⟨k, -, heq⟩
    · exact ⟨[], by rw [heq, List.append_nil]⟩
    · exact ⟨[.closed k], by rw [heq]; rfl⟩
  | done result => exact List.prefix_refl _

theorem Crew.calls_run {c : Crew σ} (hk : c.hardware.Keeps) (schedule : List Nat) :
    c.hardware.port.calls <+: (c.run a policy schedule).hardware.port.calls := by
  induction schedule using List.reverseRecOn with
  | nil => exact List.prefix_refl _
  | append_singleton schedule i ih =>
    rw [run_concat]
    exact ih.trans (Errand.calls_step a policy (run_keeps a policy hk schedule) _)

/-! ### Turns on a link that has failed -/

/-- A replacement that ends badly, on a link without a handle, leaves nothing but attempts that have failed. -/
theorem Hardware.Keeps.replace_lost {h : Hardware σ} (hk : h.Keeps) (hnone : h.link.handle = none)
    (hlost : (h.replace a policy).1 ≠ .ok ()) :
    ∃ tries, Idle tries ∧ (h.replace a policy).2.link = ⟨none, h.link.generation, .failed⟩ ∧
      (h.replace a policy).2.port.calls = h.port.calls ++ tries := by
  obtain ⟨before, tries, hidle, hbefore, ⟨hok, -⟩ | ⟨-, -, hlink, -, -, hcalls⟩⟩ :=
    replace_cases a policy hk
  · exact absurd hok hlost
  · rcases hbefore with ⟨-, rfl⟩ | ⟨k, hsome, -⟩
    · exact ⟨tries, hidle, hlink, hcalls⟩
    · rw [hnone] at hsome
      cases hsome

namespace Errand

/-- A command that ends with the error of the link after a number of turns: it is still to be sent, or it has been
rejected on a generation, or it has ended. -/
inductive Losing (g : Nat) : Errand → Nat → Prop
  /-- It is still to be sent. -/
  | unsent (command : PowerCommand) (address : UInt8) (rest : List UInt8) :
      Losing g (broadcast command (address :: rest)) 2
  /-- It has been rejected. -/
  | rejected (command : PowerCommand) (address : UInt8) (rest : List UInt8) :
      Losing g (sending (.replacing command address g) command rest) 1
  /-- It has ended. -/
  | lost : Losing g (done (.error (.reconnectExhausted policy.attempts))) 0

variable {policy} {h : Hardware σ} {e : Errand} {g n : Nat}

theorem Losing.eq_done (he : e.Losing policy g 0) : e = done (.error (.reconnectExhausted policy.attempts)) := by
  cases he with
  | lost => rfl

theorem Losing.unique {m : Nat} (hm : e.Losing policy g m) (hn : e.Losing policy g n) : m = n := by
  cases hm with
  | unsent =>
    cases hn with
    | unsent => rfl
  | rejected =>
    cases hn with
    | rejected => rfl
  | lost =>
    cases hn with
    | lost => rfl

/-- However many turns it has to go, what it has ended with is the error of the link. -/
theorem Losing.result {result : Except RelayError Unit} (he : (done result).Losing policy g n) :
    result = .error (.reconnectExhausted policy.attempts) := by
  cases he with
  | lost => rfl

variable (policy)

/-- No errand turns into a replacement of the handle. -/
theorem step_ne_reconnecting (h : Hardware σ) (e : Errand) : (e.step a policy h).1 ≠ .reconnecting := by
  have hcaller : ∀ command rest caller, ofCaller command rest caller ≠ .reconnecting := by
    intro command rest caller
    cases caller with
    | first => exact Errand.noConfusion
    | replacing => exact Errand.noConfusion
    | second => exact Errand.noConfusion
    | done result =>
      cases result with
      | error cause => exact Errand.noConfusion
      | ok =>
        cases rest with
        | nil => exact Errand.noConfusion
        | cons address rest => exact Errand.noConfusion
  cases e with
  | sending caller command rest => exact hcaller command rest _
  | reconnecting => exact Errand.noConfusion
  | closing => exact Errand.noConfusion
  | done result => exact Errand.noConfusion

variable (hf : h.link.health = .failed) (hnone : h.link.handle = none)

include hf hnone in
/-- On a link that has failed nobody calls the adapter, except to replace the handle. -/
theorem step_of_failed (hne : e ≠ .reconnecting) : (e.step a policy h).2 = h := by
  have hsend : ∀ command address, h.send a command address = (false, h) := by
    intro command address
    simp only [Hardware.send, hnone]
  cases e with
  | sending caller command rest =>
    cases caller with
    | first c address => simp only [step, Caller.step, hsend]
    | replacing c address observed => simp only [step, Caller.step, Hardware.replaceFrom, if_pos hf]
    | second c address => simp only [step, Caller.step, hsend]
    | done result => rfl
  | reconnecting => exact absurd rfl hne
  | closing => simp only [step, Hardware.release, hnone]
  | done result => rfl

include hf hnone in
/-- On a link that has failed a command comes one turn closer to its end. -/
theorem Losing.step_of_failed (he : e.Losing policy h.link.generation n) :
    (e.step a policy h).1.Losing policy h.link.generation (n - 1) := by
  cases he with
  | unsent command address rest =>
    simp only [broadcast, step, Caller.step, Hardware.send, hnone]
    exact .rejected command address rest
  | rejected command address rest =>
    simp only [step, Caller.step, Hardware.replaceFrom, if_pos hf]
    exact .lost
  | lost => exact .lost

/-- When a command that is still to be sent, or was rejected on the generation that is there, has a turn and the
adapter does nothing that it is asked for, it comes one turn closer to its end; with the last one the attempts of
the budget have been made and the link has failed. -/
theorem Losing.step_of_connected (hk : h.Keeps) (hc : h.link.health = .connected)
    (he : e.Losing policy h.link.generation n) (hn : n ≠ 0) {more : List Call}
    (hcalls : (e.step a policy h).2.port.calls = h.port.calls ++ more) (hmore : Fruitless more) :
    (e.step a policy h).1.Losing policy h.link.generation (n - 1) ∧
      (e.step a policy h).2.link.generation = h.link.generation ∧
      ((e.step a policy h).2.link.health = .connected ∧ n ≠ 1 ∧
          (e.step a policy h).2.port.calls.countP isAttempt = h.port.calls.countP isAttempt ∨
        (e.step a policy h).2.link.health = .failed ∧
          (e.step a policy h).2.port.calls.countP isAttempt =
            h.port.calls.countP isAttempt + policy.attempts.toNat) := by
  cases he with
  | unsent command address rest =>
    obtain ⟨h', hsend, hlink, hcount⟩ : ∃ h', h.send a command address = (false, h') ∧ h'.link = h.link ∧
        h'.port.calls.countP isAttempt = h.port.calls.countP isAttempt := by
      rcases Hardware.send_cases a h command address with ⟨-, heq⟩ | ⟨k, accepted, inner, -, heq⟩
      · exact ⟨h, heq, rfl, rfl⟩
      · cases accepted with
        | true =>
          simp only [broadcast, step, Caller.step, heq, Port.note] at hcalls
          refine absurd ?_ (hmore.rejected command address k)
          rw [← List.append_cancel_left hcalls]
          exact List.mem_cons_self
        | false => exact ⟨_, heq, rfl, by rw [Port.note, List.countP_append]; rfl⟩
    have hstep : (broadcast command (address :: rest)).step a policy h =
        (sending (.replacing command address h'.link.generation) command rest, h') := by
      simp only [broadcast, step, Caller.step, hsend, ofCaller]
    rw [hstep, hlink]
    exact ⟨.rejected command address rest, rfl, .inl ⟨hc, by decide, hcount⟩⟩
  | rejected command address rest =>
    have hreplace : h.replaceFrom a policy h.link.generation = h.replace a policy := by
      rw [Hardware.replaceFrom, if_neg (by rw [hc]; exact Health.noConfusion), if_neg fun hne => hne.1 rfl]
    have hhardware : ((sending (.replacing command address h.link.generation) command rest).step a policy h).2 =
        (h.replace a policy).2 := by
      simp only [step, Caller.step, hreplace]
      split
      next heq => rw [heq]
      next heq => rw [heq]
    rw [hhardware] at hcalls
    obtain ⟨before, tries, -, -, ⟨-, -, -, -, -, hopened⟩ | ⟨hlost, -, hlink, -⟩⟩ :=
      Hardware.replace_cases a policy hk
    · refine absurd ?_ (hmore.unopened (h.port.handles + 1))
      rw [← List.append_cancel_left (hopened.symm.trans hcalls)]
      simp only [List.mem_append, List.mem_cons, true_or, or_true]
    · have hstep : (sending (.replacing command address h.link.generation) command rest).step a policy h =
          (done (.error (.reconnectExhausted policy.attempts)), (h.replace a policy).2) := by
        rcases heq : h.replace a policy with ⟨result, h'⟩
        obtain rfl : result = .error (.reconnectExhausted policy.attempts) := by rw [heq] at hlost; exact hlost
        simp only [step, Caller.step, hreplace, heq, ofCaller]
      have hne : (h.replace a policy).1 ≠ .ok () := fun hok => by rw [hlost] at hok; cases hok
      rw [hstep]
      exact ⟨.lost, by rw [hlink], .inr ⟨by rw [hlink], Hardware.countP_isAttempt_replace a policy hne⟩⟩
  | lost => exact absurd rfl hn

end Errand

namespace Crew

variable {c c' : Crew σ} {i j : Nat}

/-! ### One turn -/

theorem hardware_step : (c.step a policy i).hardware = ((c.errands i).step a policy c.hardware).2 := rfl

theorem errands_step_self : (c.step a policy i).errands i = ((c.errands i).step a policy c.hardware).1 :=
  Function.update_self ..

theorem errands_step_of_ne (hne : j ≠ i) : (c.step a policy i).errands j = c.errands j :=
  Function.update_of_ne hne ..

theorem made_step_of_ne (hne : j ≠ i) : (c.step a policy i).made j = c.made j :=
  Function.update_of_ne hne ..

/-- Who has left the adapter alone has made no calls. -/
theorem made_step_self (hsame : ((c.errands i).step a policy c.hardware).2 = c.hardware) :
    (c.step a policy i).made i = c.made i := by
  simp only [step, hsame, Function.update_self, List.drop_length, List.append_nil]

/-- What has ended stays as it has ended. -/
theorem errands_step_of_done {result : Except RelayError Unit} (hdone : c.errands j = .done result) (i : Nat) :
    (c.step a policy i).errands j = .done result := by
  by_cases hj : j = i
  · subst hj
    rw [errands_step_self, hdone]
    rfl
  · rw [errands_step_of_ne a policy hj, hdone]

/-- Whoever has had no turn is where it was. -/
theorem errands_run_of_not_mem {schedule : List Nat} (hi : i ∉ schedule) :
    (c.run a policy schedule).errands i = c.errands i := by
  induction schedule using List.reverseRecOn with
  | nil => rfl
  | append_singleton schedule j ih =>
    rw [List.mem_append, List.mem_singleton, not_or] at hi
    rw [run_concat, errands_step_of_ne a policy hi.2, ih hi.1]

/-- With a turn that brings its command closer to its end, all commands have come as close as they have had turns. -/
theorem losing_step {g : Nat} {schedule : List Nat}
    (hlosing : ∀ j n, (c.errands j).Losing policy g n → (c'.errands j).Losing policy g (n - schedule.count j))
    (hself : ∀ n, (c'.errands i).Losing policy g n → ((c'.step a policy i).errands i).Losing policy g (n - 1))
    (j n : Nat) (hj : (c.errands j).Losing policy g n) :
    ((c'.step a policy i).errands j).Losing policy g (n - (schedule ++ [i]).count j) := by
  rw [List.count_append]
  by_cases hij : j = i
  · subst hij
    rw [List.count_singleton_self, ← Nat.sub_sub]
    exact hself _ (hlosing j n hj)
  · rw [errands_step_of_ne a policy hij, List.count_singleton, if_neg (by simpa using Ne.symm hij)]
    exact hlosing j n hj

/-! ### Waiting for a new handle -/

/-- The link of a crew had failed, and they have had turns since. -/
structure Waits (c : Crew σ) (schedule : List Nat) (c' : Crew σ) : Prop where
  /-- What a link keeps. -/
  keeps : c'.hardware.Keeps
  /-- It still has failed. -/
  failed : c'.hardware.link.health = .failed
  /-- There is no new generation. -/
  generation : c'.hardware.link.generation = c.hardware.link.generation
  /-- If the adapter has been called, it was to open it, without success. -/
  calls : ∃ tries, Idle tries ∧ c'.hardware.port.calls = c.hardware.port.calls ++ tries
  /-- Only those who were about to replace the handle may be so now. -/
  reconnecting : ∀ i, c'.errands i = .reconnecting → c.errands i = .reconnecting
  /-- The others have made no calls. -/
  made : ∀ i, c.errands i ≠ .reconnecting → c'.made i = c.made i
  /-- Commands have come closer to their end. -/
  losing : ∀ i n, (c.errands i).Losing policy c.hardware.link.generation n →
    (c'.errands i).Losing policy c.hardware.link.generation (n - schedule.count i)

namespace Waits

variable {policy} {schedule : List Nat}

theorem refl (hk : c.hardware.Keeps) (hf : c.hardware.link.health = .failed) : Waits policy c [] c :=
  ⟨hk, hf, rfl, ⟨[], fun _ h => (by cases h), (List.append_nil _).symm⟩, fun _ => id, fun _ _ => rfl, fun _ _ => id⟩

/-- Somebody has had a turn, and it was not a replacement of the handle that has gone well. -/
theorem step (hw : Waits policy c schedule c')
    (hlost : c.errands i = .reconnecting → (c'.step a policy i).errands i ≠ .done (.ok ())) :
    Waits policy c (schedule ++ [i]) (c'.step a policy i) := by
  have hnone := hw.keeps.failed hw.failed
  obtain ⟨hf, hg, tries, hidle, hcalls⟩ : (c'.step a policy i).hardware.link.health = .failed ∧
      (c'.step a policy i).hardware.link.generation = c'.hardware.link.generation ∧ ∃ tries, Idle tries ∧
        (c'.step a policy i).hardware.port.calls = c'.hardware.port.calls ++ tries := by
    by_cases hre : c'.errands i = .reconnecting
    · have hne := hlost (hw.reconnecting i hre)
      rw [errands_step_self, hre] at hne
      obtain ⟨tries, hidle, hlink, hcalls⟩ :=
        hw.keeps.replace_lost a policy hnone fun hok => hne (congrArg Errand.done hok)
      have hhardware : (c'.step a policy i).hardware = (c'.hardware.replace a policy).2 := by
        rw [hardware_step, hre]
        rfl
      rw [hhardware, hlink]
      exact ⟨rfl, rfl, tries, hidle, hcalls⟩
    · rw [hardware_step, Errand.step_of_failed a policy hw.failed hnone hre]
      exact ⟨hw.failed, rfl, [], fun _ hmem => (by cases hmem), (List.append_nil _).symm⟩
  obtain ⟨before, hbefore, hcalls'⟩ := hw.calls
  refine ⟨Errand.step_keeps a policy hw.keeps _, hf, hg.trans hw.generation, ⟨before ++ tries, ?_, ?_⟩,
    fun j hj => ?_, fun j hj => ?_, losing_step a policy hw.losing fun n hn => ?_⟩
  · intro call hcall
    exact (List.mem_append.1 hcall).elim (hbefore call) (hidle call)
  · rw [hcalls, hcalls', List.append_assoc]
  · by_cases hij : j = i
    · subst hij
      rw [errands_step_self] at hj
      exact absurd hj (Errand.step_ne_reconnecting a policy _ _)
    · rw [errands_step_of_ne a policy hij] at hj
      exact hw.reconnecting j hj
  · by_cases hij : j = i
    · subst hij
      have hre : c'.errands j ≠ .reconnecting := fun hre => hj (hw.reconnecting j hre)
      rw [made_step_self a policy (Errand.step_of_failed a policy hw.failed hnone hre)]
      exact hw.made j hj
    · rw [made_step_of_ne a policy hij]
      exact hw.made j hj
  · rw [← hw.generation] at hn ⊢
    rw [errands_step_self]
    exact hn.step_of_failed a policy hw.failed hnone

end Waits

/-- As long as no replacement of the handle has gone well, a crew whose link has failed waits. -/
theorem run_waits (hk : c.hardware.Keeps) (hf : c.hardware.link.health = .failed) (schedule : List Nat)
    (hlost : ∀ i, c.errands i = .reconnecting → (c.run a policy schedule).errands i ≠ .done (.ok ())) :
    Waits policy c schedule (c.run a policy schedule) := by
  induction schedule using List.reverseRecOn with
  | nil => exact .refl hk hf
  | append_singleton schedule i ih =>
    rw [run_concat] at hlost ⊢
    have hbefore := ih fun j hj hdone => hlost j hj (errands_step_of_done a policy hdone i)
    exact hbefore.step a (hlost i)

/-! ### Rejected on one generation -/

/-- A crew whose link was connected has had turns, and the adapter has done nothing that it was asked for. -/
structure Contends (c : Crew σ) (schedule : List Nat) (c' : Crew σ) : Prop where
  /-- There is no new generation. -/
  generation : c'.hardware.link.generation = c.hardware.link.generation
  /-- Commands have come closer to their end. -/
  losing : ∀ i n, (c.errands i).Losing policy c.hardware.link.generation n →
    (c'.errands i).Losing policy c.hardware.link.generation (n - schedule.count i)
  /-- No command has ended and no attempt has been made, or the link has failed with the attempts of the budget. -/
  attempts :
    c'.hardware.link.health = .connected ∧
        c'.hardware.port.calls.countP isAttempt = c.hardware.port.calls.countP isAttempt ∧
        (∀ i n, (c.errands i).Losing policy c.hardware.link.generation n → n ≠ 0 → schedule.count i < n) ∨
      c'.hardware.link.health = .failed ∧
        c'.hardware.port.calls.countP isAttempt =
          c.hardware.port.calls.countP isAttempt + policy.attempts.toNat

namespace Contends

variable {policy} {schedule : List Nat}

theorem refl (hc : c.hardware.link.health = .connected) : Contends policy c [] c :=
  ⟨rfl, fun _ _ => id, .inl ⟨hc, rfl, fun _ _ _ => Nat.pos_of_ne_zero⟩⟩

/-- A command that was rejected, or is still to be sent, has had a turn. -/
theorem step (hw : Contends policy c schedule c') (hk : c'.hardware.Keeps) {n : Nat}
    (hi : (c.errands i).Losing policy c.hardware.link.generation n) (hn : n ≠ 0) {more : List Call}
    (hcalls : (c'.step a policy i).hardware.port.calls = c'.hardware.port.calls ++ more) (hmore : Fruitless more) :
    Contends policy c (schedule ++ [i]) (c'.step a policy i) := by
  have hlosing := hw.losing i n hi
  rcases hw.attempts with ⟨hconnected, hcount, hturns⟩ | ⟨hfailed, hcount⟩
  · have hleft : n - schedule.count i ≠ 0 := by
      have := hturns i n hi hn
      omega
    rw [← hw.generation] at hlosing
    obtain ⟨hself, hgeneration, hattempts⟩ :=
      hlosing.step_of_connected a policy hk hconnected hleft hcalls hmore
    refine ⟨hgeneration.trans hw.generation, losing_step a policy hw.losing fun m hm => ?_, ?_⟩
    · rw [← hw.generation] at hm ⊢
      rw [errands_step_self, hm.unique hlosing]
      exact hself
    · refine hattempts.imp (fun ⟨hconnected', hlast, hsame⟩ => ⟨hconnected', hsame.trans hcount, fun j m hj hm => ?_⟩)
        (fun ⟨hfailed, hmade⟩ => ⟨hfailed, hmade.trans (by rw [hcount])⟩)
      have hbefore := hturns j m hj hm
      rw [List.count_append]
      by_cases hij : j = i
      · subst hij
        rw [hj.unique hi, List.count_singleton_self]
        omega
      · rw [List.count_singleton, if_neg (by simpa using Ne.symm hij)]
        exact hbefore
  · -- the link has failed, so whoever has the turn leaves it alone
    have hnone := hk.failed hfailed
    have hne : c'.errands i ≠ .reconnecting := fun hre => by rw [hre] at hlosing; cases hlosing
    have hsame : (c'.step a policy i).hardware = c'.hardware := Errand.step_of_failed a policy hfailed hnone hne
    refine ⟨by rw [hsame, hw.generation], losing_step a policy hw.losing fun m hm => ?_, .inr ?_⟩
    · rw [← hw.generation] at hm ⊢
      rw [errands_step_self]
      exact hm.step_of_failed a policy hfailed hnone
    · rw [hsame]
      exact ⟨hfailed, hcount⟩

end Contends

/-- Callers of which each is still to send its command, or was rejected on the generation that is there. -/
theorem run_contends (hk : c.hardware.Keeps) (hc : c.hardware.link.health = .connected) {schedule : List Nat}
    (hcallers : ∀ i ∈ schedule, ∃ n ≠ 0, (c.errands i).Losing policy c.hardware.link.generation n)
    {since : List Call} (hcalls : (c.run a policy schedule).hardware.port.calls = c.hardware.port.calls ++ since)
    (hsince : Fruitless since) : Contends policy c schedule (c.run a policy schedule) := by
  induction schedule using List.reverseRecOn generalizing since with
  | nil => exact .refl hc
  | append_singleton schedule i ih =>
    rw [run_concat] at hcalls ⊢
    obtain ⟨before, hbefore⟩ := calls_run a policy hk schedule
    obtain ⟨more, hmore⟩ := Errand.calls_step a policy (run_keeps a policy hk schedule)
      ((c.run a policy schedule).errands i)
    obtain rfl : since = before ++ more := by
      refine List.append_cancel_left (hcalls.symm.trans ?_)
      rw [hardware_step, ← hmore, ← hbefore, List.append_assoc]
    obtain ⟨n, hn, hi⟩ := hcallers i (List.mem_append_right _ List.mem_cons_self)
    have hw := ih (fun j hj => hcallers j (List.mem_append_left _ hj)) hbefore.symm hsince.of_append.1
    exact hw.step a (run_keeps a policy hk schedule) hi hn hmore.symm hsince.of_append.2

/-- A link that has failed is left alone until somebody has its handle replaced with success. Up to then it has
failed, and the adapter is called only to open it, which fails, by those who have the handle replaced. Whoever has
anything else to do, and however far it has come with that, makes no call. A command that has not been sent yet
when the link has failed, and one that goes to addresses in order at its first address, ends after two turns with
the attempts of the budget reported as exhausted, and with nothing else.

When callers on a link that is connected are all rejected on one generation and the adapter does not open again,
the attempts of the budget are made once for all of them, and this is what each of them is told. -/
theorem failed_until_replaced {inner : σ} {link : Link} {port : Port σ}
    (hconnect : Hardware.connect a ⟨inner, 0, []⟩ = (.ok link, port)) (errands : Nat → Errand)
    (before after : List Nat) :
    let c := Crew.run a policy ⟨⟨link, port⟩, errands, fun _ => []⟩ before
    let c' := c.run a policy after
    let lost := Errand.done (.error (.reconnectExhausted policy.attempts))
    policy.attempts.toNat = max 1 policy.budget.toNat ∧
    (c.hardware.link.health = .failed →
      (∀ i, c.errands i = .reconnecting → c'.errands i ≠ .done (.ok ())) →
      c'.hardware.link.health = .failed ∧
      (∃ tries, Idle tries ∧ c'.hardware.port.calls = c.hardware.port.calls ++ tries) ∧
      (∀ i, c.errands i ≠ .reconnecting → c'.made i = c.made i) ∧
      ∀ i command address rest, c.errands i = .broadcast command (address :: rest) →
        (2 ≤ after.count i → c'.errands i = lost) ∧ ∀ result, c'.errands i = .done result → c'.errands i = lost) ∧
    (c.hardware.link.health = .connected →
      (∀ i ∈ after, ∃ command address rest, c.errands i = .broadcast command (address :: rest) ∨
        c.errands i = .sending (.replacing command address c.hardware.link.generation) command rest) →
      ∃ since, c'.hardware.port.calls = c.hardware.port.calls ++ since ∧
        (Fruitless since → since.countP isAttempt ≤ policy.attempts.toNat ∧
          ∀ i, 2 ≤ after.count i →
            c'.errands i = lost ∧ since.countP isAttempt = policy.attempts.toNat)) := by
  intro c c' lost
  obtain ⟨-, -, -, hstart⟩ := Hardware.Keeps.connected a hconnect
  have hk : c.hardware.Keeps := run_keeps a policy hstart before
  refine ⟨policy.toNat_attempts, fun hf hlost => ?_, fun hc hcallers => ?_⟩
  · have hw : Waits policy c after c' := run_waits a policy hk hf after hlost
    refine ⟨hw.failed, hw.calls, hw.made, fun i command address rest hi => ?_⟩
    have hlosing := hw.losing i 2 (by rw [hi]; exact .unsent command address rest)
    refine ⟨fun hturns => ?_, fun result hresult => ?_⟩
    · rw [Nat.sub_eq_zero_of_le hturns] at hlosing
      exact hlosing.eq_done
    · rw [hresult] at hlosing ⊢
      rw [hlosing.result]
  · have hlosing : ∀ i ∈ after, ∃ n, (n = 2 ∨ n = 1) ∧ (c.errands i).Losing policy c.hardware.link.generation n := by
      intro i hi
      obtain ⟨command, address, rest, hsend | hreplace⟩ := hcallers i hi
      · exact ⟨2, .inl rfl, by rw [hsend]; exact .unsent command address rest⟩
      · exact ⟨1, .inr rfl, by rw [hreplace]; exact .rejected command address rest⟩
    obtain ⟨since, hsince⟩ := calls_run a policy hk after
    refine ⟨since, hsince.symm, fun hfruitless => ?_⟩
    have hw : Contends policy c after c' := run_contends a policy hk hc
      (fun i hi => (hlosing i hi).imp fun n hn => ⟨by omega, hn.2⟩) hsince.symm hfruitless
    have hcount : c'.hardware.port.calls.countP isAttempt =
        c.hardware.port.calls.countP isAttempt + since.countP isAttempt := by
      rw [← List.countP_append, hsince]
    refine ⟨?_, fun i hturns => ?_⟩
    · rcases hw.attempts with ⟨-, hsame, -⟩ | ⟨-, hmade⟩
      · omega
      · omega
    · obtain ⟨n, hn, hi⟩ := hlosing i (List.count_pos_iff.1 (by omega))
      have hended := hw.losing i n hi
      rw [Nat.sub_eq_zero_of_le (by omega)] at hended
      refine ⟨hended.eq_done, ?_⟩
      rcases hw.attempts with ⟨-, -, hleft⟩ | ⟨-, hmade⟩
      · have := hleft i n hi (by omega)
        omega
      · omega

/-- Two commands are rejected on the first handle, and both attempts to open the adapter again are refused. While
others wait to have the handle replaced, a third command ends without a call. -/
theorem failed_after_two_rejected :
    let script : Script := ⟨[.opened], [], .refused (.connection "gone"), .broken⟩
    let errands : Nat → Errand
      | 0 => .issue .powerOn 0
      | 1 => .broadcast .standby [0, 5]
      | 2 => .issue .powerOn 4
      | _ => .reconnecting
    let link : Link := ⟨some 1, 1, .connected⟩
    let port : Port Script := ⟨{ script with opens := [] }, 1, [.opened 1, .attached 1]⟩
    let lost := Errand.done (.error (.reconnectExhausted 2))
    Hardware.connect Script.adapter ⟨script, 0, []⟩ = (.ok link, port) ∧
      let c := Crew.run Script.adapter ⟨2, ⟨0⟩⟩ ⟨⟨link, port⟩, errands, fun _ => []⟩ [0, 1, 1, 0]
      let c' := c.run Script.adapter ⟨2, ⟨0⟩⟩ [2, 2]
      c.hardware.port.calls = [.opened 1, .attached 1, .sent .powerOn 0 1 false, .sent .standby 0 1 false, .closed 1,
        .refused, .refused] ∧
      c.errands 0 = lost ∧ c.errands 1 = lost ∧
      c'.errands 2 = lost ∧ c'.made 2 = [] ∧ c'.hardware.link.health = .failed := by
  intro script errands link port lost
  have hconnect : Hardware.connect Script.adapter ⟨script, 0, []⟩ = (.ok link, port) := rfl
  refine ⟨hconnect, ?_⟩
  have hattempts : LinkPolicy.attempts ⟨2, ⟨0⟩⟩ = 2 := by decide +kernel
  obtain ⟨-, -, hcontend⟩ := failed_until_replaced Script.adapter ⟨2, ⟨0⟩⟩ hconnect errands [] [0, 1, 1, 0]
  obtain ⟨-, hwait, -⟩ := failed_until_replaced Script.adapter ⟨2, ⟨0⟩⟩ hconnect errands [0, 1, 1, 0] [2, 2]
  obtain ⟨since, hsince, hcontend⟩ := hcontend rfl fun i hi => by
    rcases i with _ | _ | i
    · exact ⟨.powerOn, 0, [], .inl rfl⟩
    · exact ⟨.standby, 0, [5], .inl rfl⟩
    · simp at hi
  rw [show Crew.run Script.adapter ⟨2, ⟨0⟩⟩ ⟨⟨link, port⟩, errands, fun _ => []⟩ [] =
    ⟨⟨link, port⟩, errands, fun _ => []⟩ from rfl] at hsince hcontend
  generalize hc : Crew.run Script.adapter ⟨2, ⟨0⟩⟩ ⟨⟨link, port⟩, errands, fun _ => []⟩ [0, 1, 1, 0] = c
    at hsince hcontend hwait ⊢
  have hcalls : c.hardware.port.calls = [.opened 1, .attached 1, .sent .powerOn 0 1 false,
      .sent .standby 0 1 false, .closed 1, .refused, .refused] := by
    rw [← hc]
    decide +kernel
  obtain rfl : since = [.sent .powerOn 0 1 false, .sent .standby 0 1 false, .closed 1, .refused, .refused] :=
    List.append_cancel_left (hsince.symm.trans hcalls)
  have hfailed : c.hardware.link.health = .failed := by
    rw [← hc]
    decide +kernel
  obtain ⟨-, hended⟩ := hcontend ⟨fun k => by simp, fun command address k => by simp⟩
  rw [hattempts] at hended hwait
  obtain ⟨hfirst, hsecond⟩ := And.intro (hended 0 (by decide)).1 (hended 1 (by decide)).1
  have hthird : c.errands 2 = .issue .powerOn 4 := by
    rw [← hc]
    rfl
  have hunused : c.made 2 = [] := by
    rw [← hc]
    rfl
  generalize hc' : c.run Script.adapter ⟨2, ⟨0⟩⟩ [2, 2] = c' at hwait
  have hothers : ∀ i, c'.errands (i + 3) = .reconnecting := by
    intro i
    rw [← hc', errands_run_of_not_mem _ _ (by simp), ← hc, errands_run_of_not_mem _ _ (by simp)]
    rfl
  obtain ⟨hfailed, -, hmade, hlost⟩ := hwait hfailed fun i hi hdone => by
    rcases i with _ | _ | _ | i
    · cases hfirst.symm.trans hi
    · cases hsecond.symm.trans hi
    · cases hthird.symm.trans hi
    · cases (hothers i).symm.trans hdone
  subst hc'
  exact ⟨hcalls, hfirst, hsecond, (hlost 2 .powerOn 4 [] hthird).1 (by decide),
    (hmade 2 fun hre => (by cases hthird.symm.trans hre)).trans hunused, hfailed⟩

end Crew
end CecRelay
