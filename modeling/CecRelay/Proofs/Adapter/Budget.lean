import CecRelay.Proofs.Adapter.Calls
import Mathlib.Data.Nat.Find

/-!
# Reopening within a budget

How an adapter answers one attempt to open it after another is a sequence (`Adapter.outcome`). Replacing the
handle closes the old one and then goes through that sequence up to the first success, but no further than the
budget allows, with a pause between two attempts and none at either end (`Call.spaced`). It ends well if an
attempt within the budget does; otherwise the link has failed (`Hardware.replace_within_budget`).
-/

namespace CecRelay

/-! ### How attempts end -/

/-- The call that ends so, if it is the one that gives the handle. -/
def Opening.call (handle : Nat) : Opening → Call
  | .opened => .opened handle
  | .refused _ => .refused
  | .broken => .broken

namespace Adapter

variable {σ : Type} (a : Adapter σ)

/-- What the adapter keeps after a number of attempts. -/
def tried (s : σ) : Nat → σ
  | 0 => s
  | n + 1 => tried (a.tryOpen s).2 n

/-- How an attempt ends that comes after a number of others. -/
def outcome (s : σ) (i : Nat) : Opening := (a.tryOpen (a.tried s i)).1

/-- The first attempt that opens the adapter comes after a number of others. -/
def OpensAfter (s : σ) (i : Nat) : Prop := a.outcome s i = .opened ∧ ∀ j < i, a.outcome s j ≠ .opened

/-- The record of the first attempts. -/
def attempts (handle : Nat) (s : σ) (m : Nat) : List Call :=
  (List.range m).map fun i => (a.outcome s i).call handle

theorem attempts_succ (handle : Nat) (s : σ) (m : Nat) :
    a.attempts handle s (m + 1) = (a.outcome s 0).call handle :: a.attempts handle (a.tryOpen s).2 m := by
  rw [attempts, List.range_succ_eq_map, List.map_cons, List.map_map]
  rfl

theorem length_attempts (handle : Nat) (s : σ) (m : Nat) : (a.attempts handle s m).length = m := by
  rw [attempts, List.length_map, List.length_range]

theorem attempts_ne_nil {handle : Nat} {s : σ} {m : Nat} (hm : m ≠ 0) : a.attempts handle s m ≠ [] :=
  List.ne_nil_of_length_pos (by rw [length_attempts]; omega)

variable {a} {s : σ} {i j : Nat}

/-- The first attempt fails, so the first that opens the adapter is among the others. -/
theorem OpensAfter.later (h : a.OpensAfter s (i + 1)) : a.OpensAfter (a.tryOpen s).2 i :=
  ⟨h.1, fun j hj => h.2 (j + 1) (Nat.succ_lt_succ hj)⟩

theorem OpensAfter.unique (hi : a.OpensAfter s i) (hj : a.OpensAfter s j) : i = j := by
  rcases Nat.lt_trichotomy i j with hlt | heq | hlt
  · exact absurd hi.1 (hj.2 i hlt)
  · exact heq
  · exact absurd hj.1 (hi.2 j hlt)

/-- If an attempt opens the adapter, there is a first one that does. -/
theorem exists_opensAfter (h : a.outcome s i = .opened) : ∃ j ≤ i, a.OpensAfter s j := by
  have hexists : ∃ j, a.outcome s j = .opened := ⟨i, h⟩
  exact ⟨Nat.find hexists, Nat.find_min' hexists h, Nat.find_spec hexists, fun j hj => Nat.find_min hexists hj⟩

end Adapter

/-! ### Pauses -/

namespace Call

/-- Calls with a pause between any two of them; a pause of no length is not made. -/
def spaced (span : Time.Span) (calls : List Call) : List Call :=
  if span.nanos = 0 then calls else calls.intersperse (.paused span)

@[simp] theorem spaced_singleton (span : Time.Span) (c : Call) : spaced span [c] = [c] := by
  unfold spaced
  split
  · rfl
  · rfl

/-- The pause after a call that is not the last. -/
theorem spaced_cons (span : Time.Span) (c : Call) {calls : List Call} (hne : calls ≠ []) :
    spaced span (c :: calls) =
      c :: ((if span.nanos = 0 then [] else [.paused span]) ++ spaced span calls) := by
  cases calls with
  | nil => exact absurd rfl hne
  | cons d calls =>
    unfold spaced
    split
    · rfl
    · rfl

theorem isAttempt_call (handle : Nat) (o : Opening) : (o.call handle).isAttempt = true := by
  cases o with
  | opened => rfl
  | refused => rfl
  | broken => rfl

/-- Pauses are no attempts. -/
theorem countP_isAttempt_spaced (span : Time.Span) (calls : List Call) :
    (spaced span calls).countP isAttempt = calls.countP isAttempt := by
  induction calls with
  | nil =>
    unfold spaced
    split
    · rfl
    · rfl
  | cons c calls ih =>
    by_cases hnil : calls = []
    · rw [hnil, spaced_singleton]
    · have hpause : (if span.nanos = 0 then [] else [paused span]).countP isAttempt = 0 := by
        split
        · rfl
        · rfl
      rw [spaced_cons span c hnil, List.countP_cons, List.countP_append, hpause, ih, Nat.zero_add, List.countP_cons]

theorem countP_isAttempt_attempts {σ : Type} (a : Adapter σ) (handle : Nat) (s : σ) (m : Nat) :
    (a.attempts handle s m).countP isAttempt = m := by
  have hall : ∀ c ∈ a.attempts handle s m, c.isAttempt = true := by
    intro c hc
    obtain ⟨i, -, rfl⟩ := List.mem_map.1 hc
    exact isAttempt_call handle _
  rw [List.countP_eq_length.2 hall, Adapter.length_attempts]

/-- Closing the handle that there may be is no attempt to open one. -/
theorem countP_isAttempt_closed (handle : Option Nat) : (handle.toList.map closed).countP isAttempt = 0 := by
  cases handle with
  | none => rfl
  | some k => rfl

end Call

/-! ### Reopening -/

/-- No attempts count as one. -/
theorem LinkPolicy.toNat_attempts (p : LinkPolicy) : p.attempts.toNat = max 1 p.budget.toNat := by
  show (if p.budget ≤ 1 then (1 : UInt32) else p.budget).toNat = _
  split
  next hle =>
    rw [UInt32.le_iff_toNat_le] at hle
    exact (Nat.max_eq_left hle).symm
  next hlt =>
    rw [UInt32.le_iff_toNat_le] at hlt
    exact (Nat.max_eq_right (Nat.le_of_not_le hlt)).symm

section Reopening

variable {σ : Type} (a : Adapter σ) (policy : LinkPolicy) {s : σ} {handles : Nat} {calls : List Call} {link : Link}

theorem Port.tryOpen_opened (h : a.outcome s 0 = .opened) :
    Port.tryOpen a ⟨s, handles, calls⟩ =
      (.ok (handles + 1), ⟨(a.tryOpen s).2, handles + 1, calls ++ [.opened (handles + 1)]⟩) := by
  have hfirst : (a.tryOpen s).1 = .opened := h
  rw [tryOpen]
  rcases htry : a.tryOpen s with ⟨outcome, inner⟩
  rw [htry] at hfirst
  cases hfirst
  rfl

/-- An attempt that fails leaves nothing but its call in the record. -/
theorem Port.tryOpen_of_not_opened (p : Port σ) (h : a.outcome p.inner 0 ≠ .opened) (handle : Nat) :
    ∃ cause, p.tryOpen a =
      (.error cause, ⟨(a.tryOpen p.inner).2, p.handles, p.calls ++ [(a.outcome p.inner 0).call handle]⟩) := by
  have hfirst : a.outcome p.inner 0 = (a.tryOpen p.inner).1 := rfl
  rw [hfirst] at h ⊢
  rw [tryOpen]
  rcases htry : a.tryOpen p.inner with ⟨outcome, inner⟩
  rw [htry] at h
  cases outcome with
  | opened => exact absurd rfl h
  | refused cause => exact ⟨cause, rfl⟩
  | broken => exact ⟨.connection "adapter open panicked", rfl⟩

namespace Hardware

/-- After an attempt that fails there is a pause, if there is another attempt. -/
theorem reopen_succ (hfails : a.outcome s 0 ≠ .opened) (handle : Nat) {n : Nat} (hn : n ≠ 0) :
    reopen a policy (n + 1) ⟨link, ⟨s, handles, calls⟩⟩ =
      reopen a policy n ⟨link, ⟨(a.tryOpen s).2, handles, calls ++ ((a.outcome s 0).call handle ::
        if policy.delay.nanos = 0 then [] else [.paused policy.delay])⟩⟩ := by
  obtain ⟨cause, heq⟩ := Port.tryOpen_of_not_opened a ⟨s, handles, calls⟩ hfails handle
  rw [reopen, heq]
  simp only [hn, false_or]
  split
  · rfl
  · simp only [Port.pause, Port.note, List.append_assoc, List.singleton_append]

/-- When one of the attempts that are left opens the adapter, its handle is taken, and no further attempt is
made. -/
theorem reopen_of_opensAfter {i n : Nat} (hopens : a.OpensAfter s i) (hlt : i < n) :
    reopen a policy n ⟨link, ⟨s, handles, calls⟩⟩ = (true, adopt a (handles + 1) ⟨link,
      ⟨a.tried s (i + 1), handles + 1,
        calls ++ Call.spaced policy.delay (a.attempts (handles + 1) s (i + 1))⟩⟩) := by
  induction i generalizing s calls n with
  | zero =>
    obtain ⟨n, rfl⟩ := Nat.exists_eq_succ_of_ne_zero (Nat.ne_of_gt hlt)
    have hone : a.attempts (handles + 1) s 1 = [.opened (handles + 1)] := by
      rw [Adapter.attempts_succ, hopens.1]
      rfl
    rw [reopen, Port.tryOpen_opened a hopens.1, hone, Call.spaced_singleton]
    rfl
  | succ i ih =>
    obtain ⟨n, rfl⟩ := Nat.exists_eq_succ_of_ne_zero (Nat.ne_of_gt (Nat.lt_of_le_of_lt (Nat.zero_le _) hlt))
    have hlater : i < n := Nat.lt_of_succ_lt_succ hlt
    rw [reopen_succ a policy (hopens.2 0 (Nat.succ_pos i)) (handles + 1) (by omega), ih hopens.later hlater,
      a.attempts_succ (handles + 1) s (i + 1), Call.spaced_cons _ _ (a.attempts_ne_nil (Nat.succ_ne_zero i))]
    simp only [List.append_assoc, List.cons_append, Adapter.tried]

/-- When none of them does, all of them are made and the link has failed. -/
theorem reopen_of_none {n : Nat} (hfails : ∀ i < n, a.outcome s i ≠ .opened) (handle : Nat) :
    reopen a policy n ⟨link, ⟨s, handles, calls⟩⟩ = (false, ⟨{ link with health := .failed },
      ⟨a.tried s n, handles, calls ++ Call.spaced policy.delay (a.attempts handle s n)⟩⟩) := by
  induction n generalizing s calls with
  | zero =>
    have hnone : Call.spaced policy.delay (a.attempts handle s 0) = [] := by
      unfold Call.spaced
      split
      · rfl
      · rfl
    rw [hnone, List.append_nil]
    rfl
  | succ n ih =>
    have hfirst := hfails 0 (Nat.succ_pos n)
    by_cases hn : n = 0
    · obtain ⟨cause, heq⟩ := Port.tryOpen_of_not_opened a ⟨s, handles, calls⟩ hfirst handle
      subst hn
      have hone : a.attempts handle s 1 = [(a.outcome s 0).call handle] := a.attempts_succ handle s 0
      rw [reopen, heq, hone, Call.spaced_singleton]
      rfl
    · rw [reopen_succ a policy hfirst handle hn, ih fun i hi => hfails (i + 1) (Nat.succ_lt_succ hi),
        a.attempts_succ handle s n, Call.spaced_cons _ _ (a.attempts_ne_nil hn)]
      simp only [List.append_assoc, List.cons_append, Adapter.tried]

/-- Replacing the handle closes the old one, if there is one, and then goes through the attempts up to the first
that opens the adapter. -/
theorem replace_eq (h : Hardware σ) :
    h.replace a policy =
      match reopen a policy policy.attempts.toNat ⟨⟨none, h.link.generation, .reconnecting⟩,
        ⟨(h.release a).port.inner, h.port.handles, h.port.calls ++ h.link.handle.toList.map .closed⟩⟩ with
      | (true, h) => (.ok (), h)
      | (false, h) => (.error (.reconnectExhausted policy.attempts), h) := by
  obtain ⟨⟨handle, generation, health⟩, inner, handles, calls⟩ := h
  cases handle with
  | none =>
    rw [Option.toList_none, List.map_nil, List.append_nil]
    rfl
  | some k => rfl

/-- One of the attempts within the budget opens the adapter. -/
theorem replace_of_opensAfter (h : Hardware σ) {i : Nat} (hopens : a.OpensAfter (h.release a).port.inner i)
    (hlt : i < policy.attempts.toNat) :
    h.replace a policy = (.ok (), ⟨⟨some (h.port.handles + 1), h.link.generation + 1, .connected⟩,
      ⟨a.attach (a.tried (h.release a).port.inner (i + 1)), h.port.handles + 1,
        h.port.calls ++ (h.link.handle.toList.map .closed ++
          (Call.spaced policy.delay (a.attempts (h.port.handles + 1) (h.release a).port.inner (i + 1)) ++
            [.attached (h.port.handles + 1)]))⟩⟩) := by
  rw [replace_eq, reopen_of_opensAfter a policy hopens hlt]
  simp only [adopt, Port.attach, Port.note, List.append_assoc]

/-- None of them does. -/
theorem replace_of_none (h : Hardware σ)
    (hfails : ∀ i < policy.attempts.toNat, a.outcome (h.release a).port.inner i ≠ .opened) :
    h.replace a policy = (.error (.reconnectExhausted policy.attempts), ⟨⟨none, h.link.generation, .failed⟩,
      ⟨a.tried (h.release a).port.inner policy.attempts.toNat, h.port.handles,
        h.port.calls ++ (h.link.handle.toList.map .closed ++ Call.spaced policy.delay
          (a.attempts (h.port.handles + 1) (h.release a).port.inner policy.attempts.toNat))⟩⟩) := by
  rw [replace_eq, reopen_of_none a policy hfails (h.port.handles + 1)]
  simp only [List.append_assoc]

/-- A replacement that ends badly has gone through the whole budget. -/
theorem countP_isAttempt_replace {h : Hardware σ} (hlost : (h.replace a policy).1 ≠ .ok ()) :
    (h.replace a policy).2.port.calls.countP Call.isAttempt =
      h.port.calls.countP Call.isAttempt + policy.attempts.toNat := by
  have hfails : ∀ i < policy.attempts.toNat, a.outcome (h.release a).port.inner i ≠ .opened := by
    intro i hi hopened
    obtain ⟨j, hj, hfirst⟩ := Adapter.exists_opensAfter hopened
    exact hlost (by rw [replace_of_opensAfter a policy h hfirst (Nat.lt_of_le_of_lt hj hi)])
  rw [replace_of_none a policy h hfails]
  simp only [List.countP_append, Call.countP_isAttempt_spaced, Call.countP_isAttempt_attempts,
    Call.countP_isAttempt_closed, Nat.zero_add]

/-- A replacement of the handle closes the one there is, once and before anything else. Then it makes attempts to
open the adapter, with the pause of the policy between two of them and none at either end: as many as lead to
the first success, but no more than the budget, of which none counts as one. If one of these attempts opens the
adapter, keys are directed to the relay on the new handle, and the link is connected in the next generation;
otherwise the attempts of the budget are reported as exhausted, and the link has failed, without a handle and in
the generation that it had. -/
theorem replace_within_budget (h : Hardware σ) :
    let n := max 1 policy.budget.toNat
    let s := (h.release a).port.inner
    let closing := h.link.handle.toList.map Call.closed
    let handle := h.port.handles + 1
    let (result, h') := h.replace a policy
    policy.attempts.toNat = n ∧
    ∃ m, (∀ i, a.OpensAfter s i → m = min (i + 1) n) ∧ ((∀ i, a.outcome s i ≠ .opened) → m = n) ∧
      (result = .ok () ↔ ∃ i < n, a.outcome s i = .opened) ∧
      (result = .ok () → h'.link = ⟨some handle, h.link.generation + 1, .connected⟩ ∧
        h'.port.calls = h.port.calls ++
          (closing ++ (Call.spaced policy.delay (a.attempts handle s m) ++ [.attached handle]))) ∧
      (result ≠ .ok () → result = .error (.reconnectExhausted policy.attempts) ∧
        h'.link = ⟨none, h.link.generation, .failed⟩ ∧
        h'.port.calls = h.port.calls ++ (closing ++ Call.spaced policy.delay (a.attempts handle s m))) ∧
      (a.attempts handle s m).length = m ∧
      h'.port.calls.countP Call.isAttempt = h.port.calls.countP Call.isAttempt + m := by
  intro n s closing handle
  have hn : policy.attempts.toNat = n := policy.toNat_attempts
  by_cases hopens : ∃ i < n, a.outcome s i = .opened
  · obtain ⟨i, hi, hopened⟩ := hopens
    obtain ⟨j, hj, hfirst⟩ := Adapter.exists_opensAfter hopened
    have hlt : j < n := Nat.lt_of_le_of_lt hj hi
    rw [replace_of_opensAfter a policy h hfirst (hn ▸ hlt)]
    refine ⟨hn, j + 1, fun k hk => ?_, fun hnone => absurd hopened (hnone i),
      ⟨fun _ => ⟨i, hi, hopened⟩, fun _ => rfl⟩, fun _ => ⟨rfl, rfl⟩, fun hne => absurd rfl hne,
      a.length_attempts handle s (j + 1), ?_⟩
    · rw [hk.unique hfirst]
      exact (Nat.min_eq_left hlt).symm
    · simp only [List.countP_append, Call.countP_isAttempt_spaced, Call.countP_isAttempt_attempts,
        Call.countP_isAttempt_closed, Nat.zero_add]
      rfl
  · have hfails : ∀ i < policy.attempts.toNat, a.outcome s i ≠ .opened :=
      fun i hi hopened => hopens ⟨i, hn ▸ hi, hopened⟩
    rw [replace_of_none a policy h hfails]
    refine ⟨hn, n, fun k hk => ?_, fun _ => rfl, ⟨fun hok => (by cases hok), fun h => absurd h hopens⟩,
      fun hok => (by cases hok), fun _ => ⟨rfl, rfl, ?_⟩, a.length_attempts handle s n, ?_⟩
    · have hle : n ≤ k := Nat.le_of_not_lt fun hlt => hopens ⟨k, hlt, hk.1⟩
      exact (Nat.min_eq_right (Nat.le_succ_of_le hle)).symm
    · simp only [hn]
      rfl
    · simp only [List.countP_append, Call.countP_isAttempt_spaced, Call.countP_isAttempt_attempts,
        Call.countP_isAttempt_closed, hn, Nat.zero_add]

end Hardware
end Reopening
end CecRelay
