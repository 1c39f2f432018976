import CecRelay.Proofs.Adapter.Errands

/-!
# Generations of the handle

While commands are all that is asked of a link, the number of its handle is the generation that callers
speak of (`Hardware.Serves`), and a handle is only ever closed for a reason (`Call.Provoked`). What a command
has sent so far can be told from how far it has come (`Caller.Fits`): at most two times, the second time on
a later generation than the first. Both are kept by each step of each caller, so they hold for any number of
callers, in whatever order they take their steps (`Crew.generations`).
-/

namespace CecRelay

namespace Call

/-- A command has been rejected on the handle. -/
def Rejected (calls : List Call) (g : Nat) : Prop := ∃ command address, sent command address g false ∈ calls

/-- A handle has been closed only after a command had been rejected on it. -/
def Provoked (calls : List Call) : Prop := ∀ before g, before ++ [closed g] <+: calls → Rejected before g

/-- The handle that a command went to, and whether it was accepted there. -/
def delivery? : Call → Option (Nat × Bool)
  | sent _ _ k accepted => some (k, accepted)
  | _ => none

variable {calls more : List Call} {c : Call} {g : Nat}

theorem mem_of_delivery {accepted : Bool} (h : (g, accepted) ∈ calls.filterMap delivery?) :
    ∃ command address, sent command address g accepted ∈ calls := by
  obtain ⟨c, hc, hd⟩ := List.mem_filterMap.1 h
  cases c with
  | sent command address k accepted' =>
    cases hd
    exact ⟨command, address, hc⟩
  | _ => cases hd

namespace Provoked

theorem concat (h : Provoked calls) (hc : ∀ g, c = closed g → Rejected calls g) : Provoked (calls ++ [c]) := by
  intro before g hb
  rcases List.prefix_concat_iff.1 hb with heq | hb
  · obtain ⟨rfl, rfl⟩ := List.append_singleton_inj.1 heq
    exact hc g rfl
  · exact h before g hb

/-- What has been closed has been rejected on. -/
theorem rejected (h : Provoked calls) (hg : closed g ∈ calls) : Rejected calls g := by
  obtain ⟨before, after, rfl⟩ := List.append_of_mem hg
  obtain ⟨command, address, hsent⟩ := h before g ⟨after, by simp⟩
  exact ⟨command, address, List.mem_append_left _ hsent⟩

theorem append (h : Provoked calls) (hmore : ∀ g, closed g ∉ more) : Provoked (calls ++ more) := by
  induction more using List.reverseRecOn with
  | nil => rwa [List.append_nil]
  | append_singleton more c ih =>
    rw [← List.append_assoc]
    refine (ih fun g hg => hmore g (List.mem_append_left _ hg)).concat fun g hc => ?_
    exact absurd (List.mem_append_right _ (List.mem_singleton.2 hc.symm)) (hmore g)

end Provoked

namespace Idle

variable {tries : List Call} (h : Idle tries)
include h

theorem closed_not_mem (g : Nat) : closed g ∉ tries := fun hg => by
  obtain heq | heq | ⟨span, heq⟩ := h _ hg <;> cases heq

theorem countP_isOpened : tries.countP isOpened = 0 :=
  List.countP_eq_zero.2 fun c hc => by
    obtain rfl | rfl | ⟨span, rfl⟩ := h c hc <;> exact Bool.false_ne_true

theorem countP_isClosed : tries.countP isClosed = 0 :=
  List.countP_eq_zero.2 fun c hc => by
    obtain rfl | rfl | ⟨span, rfl⟩ := h c hc <;> exact Bool.false_ne_true

theorem deliveries : tries.filterMap delivery? = [] :=
  List.filterMap_eq_nil_iff.2 fun c hc => by
    obtain rfl | rfl | ⟨span, rfl⟩ := h c hc <;> rfl

end Idle
end Call

open Call

variable {σ : Type} (a : Adapter σ) (policy : LinkPolicy)

namespace Hardware

/-- A link that has been used for commands only. -/
structure Serves (policy : LinkPolicy) (h : Hardware σ) : Prop where
  /-- The record of calls. -/
  keeps : h.Keeps
  /-- How it has begun. -/
  begun : [.opened 1, .attached 1] <+: h.port.calls
  /-- Every handle has a generation. -/
  counted : h.port.calls.countP isOpened = h.link.generation
  /-- It is the number of the handle. -/
  numbered : h.port.handles = h.link.generation
  /-- Every generation has been opened. -/
  opened : ∀ k, 1 ≤ k → k ≤ h.link.generation → Call.opened k ∈ h.port.calls
  /-- The last generation is the one in use, unless the link has failed. -/
  health : h.link.health = .connected ∧ h.link.handle = some h.link.generation ∨
    h.link.health = .failed ∧ h.link.handle = none
  /-- Nothing has been closed without a reason. -/
  provoked : Provoked h.port.calls
  /-- There are not more attempts to open the adapter than there may be after each closing. -/
  tried : h.port.calls.countP isAttempt ≤ 1 + policy.attempts.toNat * h.port.calls.countP isClosed

/-- What does not go back. -/
structure Grows (h h' : Hardware σ) : Prop where
  /-- The generation. -/
  generation : h.link.generation ≤ h'.link.generation
  /-- That the link has failed. -/
  failed : h.link.health = .failed → h'.link.health = .failed

theorem Grows.refl (h : Hardware σ) : h.Grows h := ⟨Nat.le_refl _, id⟩

namespace Serves

variable {h : Hardware σ} {policy}

theorem connected {inner : σ} {link : Link} {port : Port σ}
    (hconnect : connect a ⟨inner, 0, []⟩ = (.ok link, port)) : Serves policy ⟨link, port⟩ := by
  obtain ⟨rfl, hhandles, hcalls, hk⟩ := Keeps.connected a hconnect
  refine ⟨hk, hcalls ▸ List.prefix_refl _, by rw [hcalls]; rfl, hhandles, fun k hk hle => ?_, .inl ⟨rfl, rfl⟩, ?_,
    by rw [hcalls]; exact Nat.le_add_right 1 _⟩
  · rw [hcalls, Nat.le_antisymm hle hk]
    exact List.mem_cons_self
  · have hnil : Provoked [] := fun before g hb => by simp at hb
    rw [hcalls]
    exact hnil.append fun g hg => by simp at hg

/-- A command goes to the last generation, or the link has failed and it goes nowhere. -/
theorem send (hs : h.Serves policy) (command : PowerCommand) (address : UInt8) :
    (h.link.health = .failed ∧ h.send a command address = (false, h)) ∨
      ∃ accepted h', h.send a command address = (accepted, h') ∧ h'.Serves policy ∧ h'.link = h.link ∧
        h'.port.calls = h.port.calls ++ [.sent command address h.link.generation accepted] := by
  have hk' := hs.keeps.send a command address
  rcases send_cases a h command address with ⟨hnone, heq⟩ | ⟨k, accepted, inner, hsome, heq⟩
  · rcases hs.health with ⟨-, hhandle⟩ | ⟨hfailed, -⟩
    · rw [hnone] at hhandle
      cases hhandle
    · exact .inl ⟨hfailed, heq⟩
  · obtain rfl : k = h.link.generation := by
      rcases hs.health with ⟨-, hhandle⟩ | ⟨-, hhandle⟩
      · exact Option.some.inj (hsome.symm.trans hhandle)
      · rw [hhandle] at hsome
        cases hsome
    rw [heq] at hk'
    refine .inr ⟨accepted, _, heq, ⟨hk', hs.begun.trans (List.prefix_append ..), ?_, hs.numbered,
      fun k hk hle => ?_, hs.health, ?_, ?_⟩, rfl, rfl⟩
    · exact (List.countP_append ..).trans hs.counted
    · exact List.mem_append_left _ (hs.opened k hk hle)
    · exact hs.provoked.concat fun g hc => (by cases hc)
    · simp only [Port.note, List.countP_append]
      exact hs.tried

/-- The next generation, after the last one has been given up for a reason. -/
theorem reopened {h' : Hardware σ} {tries : List Call} (hs : h.Serves policy) (hk' : h'.Keeps)
    (hrejected : Rejected h.port.calls h.link.generation) (hidle : Idle tries)
    (htried : tries.countP isAttempt + 1 ≤ policy.attempts.toNat)
    (hlink : h'.link = ⟨some (h.port.handles + 1), h.link.generation + 1, .connected⟩)
    (hhandles : h'.port.handles = h.port.handles + 1)
    (hcalls : h'.port.calls = h.port.calls ++ ([.closed h.link.generation] ++
      (tries ++ [.opened (h.port.handles + 1), .attached (h.port.handles + 1)]))) : h'.Serves policy where
  keeps := hk'
  begun := by
    rw [hcalls]
    exact hs.begun.trans (List.prefix_append ..)
  counted := by
    rw [hcalls, hlink, List.countP_append, List.countP_append, List.countP_append, hs.counted, hidle.countP_isOpened]
    rfl
  numbered := by rw [hhandles, hlink, hs.numbered]
  opened k hk hle := by
    rw [hcalls]
    by_cases hlast : k = h.link.generation + 1
    · simp [hlast, hs.numbered]
    · rw [hlink] at hle
      exact List.mem_append_left _ (hs.opened k hk (by simp only at hle; omega))
  health := by
    rw [hlink, hs.numbered]
    exact .inl ⟨rfl, rfl⟩
  provoked := by
    rw [hcalls, ← List.append_assoc]
    refine (hs.provoked.concat fun g hc => by cases hc; exact hrejected).append fun g hg => ?_
    rcases List.mem_append.1 hg with hg | hg
    · exact hidle.closed_not_mem g hg
    · simp at hg
  tried := by
    have := hs.tried
    have hattempts : [Call.opened (h.port.handles + 1), .attached (h.port.handles + 1)].countP isAttempt = 1 := rfl
    rw [hcalls, List.countP_append, List.countP_append, List.countP_append, hattempts, List.countP_append,
      List.countP_append, List.countP_append, hidle.countP_isClosed]
    show _ + (0 + _) ≤ 1 + policy.attempts.toNat * (_ + 1)
    rw [Nat.mul_succ]
    omega

/-- None, after the last generation has been given up for a reason. -/
theorem lost {h' : Hardware σ} {tries : List Call} (hs : h.Serves policy) (hk' : h'.Keeps)
    (hrejected : Rejected h.port.calls h.link.generation) (hidle : Idle tries)
    (htried : tries.countP isAttempt ≤ policy.attempts.toNat)
    (hlink : h'.link = ⟨none, h.link.generation, .failed⟩) (hhandles : h'.port.handles = h.port.handles)
    (hcalls : h'.port.calls = h.port.calls ++ ([.closed h.link.generation] ++ tries)) : h'.Serves policy where
  keeps := hk'
  begun := by
    rw [hcalls]
    exact hs.begun.trans (List.prefix_append ..)
  counted := by
    rw [hcalls, hlink, List.countP_append, List.countP_append, hs.counted, hidle.countP_isOpened]
    rfl
  numbered := by rw [hhandles, hlink, hs.numbered]
  opened k hk hle := by
    rw [hlink] at hle
    rw [hcalls]
    exact List.mem_append_left _ (hs.opened k hk hle)
  health := by
    rw [hlink]
    exact .inr ⟨rfl, rfl⟩
  provoked := by
    rw [hcalls, ← List.append_assoc]
    exact (hs.provoked.concat fun g hc => by cases hc; exact hrejected).append hidle.closed_not_mem
  tried := by
    have := hs.tried
    rw [hcalls, List.countP_append, List.countP_append, List.countP_append, List.countP_append,
      hidle.countP_isClosed]
    show _ + (0 + _) ≤ 1 + policy.attempts.toNat * (_ + 1)
    rw [Nat.mul_succ]
    omega

/-- Asked to replace a generation on which a command has been rejected, the link has a later one in the
end, or it has failed. -/
theorem replaceFrom (hs : h.Serves policy) {observed : Nat} (hle : observed ≤ h.link.generation)
    (hrejected : Rejected h.port.calls observed) :
    ∃ result h' more, h.replaceFrom a policy observed = (result, h') ∧ h'.Serves policy ∧ h.Grows h' ∧
      h'.port.calls = h.port.calls ++ more ∧ more.filterMap delivery? = [] ∧
      (result = .ok () ∧ observed < h'.link.generation ∨
        ∃ cause, result = .error cause ∧ h'.link.health = .failed) := by
  by_cases hfailed : h.link.health = .failed
  · exact ⟨_, h, [], if_pos hfailed, hs, .refl h, (List.append_nil _).symm, rfl, .inr ⟨_, rfl, hfailed⟩⟩
  obtain ⟨hconnected, hhandle⟩ := hs.health.resolve_right fun hf => hfailed hf.1
  by_cases hlater : h.link.generation ≠ observed
  · refine ⟨.ok (), h, [], ?_, hs, .refl h, (List.append_nil _).symm, rfl, .inl ⟨rfl, by omega⟩⟩
    rw [Hardware.replaceFrom, if_neg hfailed, if_pos ⟨hlater, hconnected⟩]
  -- the generation that was observed is still there, so its handle is the one that is closed
  obtain rfl : h.link.generation = observed := Decidable.of_not_not hlater
  have hk' := hs.keeps.replace a policy
  obtain ⟨before, tries, hidle, hbefore, hcases⟩ := replace_cases a policy hs.keeps
  obtain rfl : before = [.closed h.link.generation] := by
    rcases hbefore with ⟨hnone, -⟩ | ⟨k, hsome, rfl⟩
    · rw [hnone] at hhandle
      cases hhandle
    · rw [Option.some.inj (hsome.symm.trans hhandle)]
  rw [Hardware.replaceFrom, if_neg hfailed, if_neg fun hne => hlater hne.1]
  rcases hcases with ⟨hok, htried, hlink, hhandles, -, hcalls⟩ | ⟨hlost, htried, hlink, hhandles, -, hcalls⟩
  · refine ⟨.ok (), _, _, Prod.ext hok rfl, hs.reopened hk' hrejected hidle htried hlink hhandles hcalls,
      ⟨?_, fun hf => absurd hf hfailed⟩, hcalls, ?_, .inl ⟨rfl, ?_⟩⟩
    · rw [hlink]
      exact Nat.le_succ _
    · rw [List.filterMap_append, List.filterMap_append, hidle.deliveries]
      rfl
    · rw [hlink]
      exact Nat.lt_succ_self _
  · refine ⟨_, _, _, Prod.ext hlost rfl, hs.lost hk' hrejected hidle htried hlink hhandles hcalls,
      ⟨?_, fun hf => absurd hf hfailed⟩, hcalls, ?_, .inr ⟨_, rfl, ?_⟩⟩
    · exact Nat.le_of_eq (by rw [hlink])
    · rw [List.filterMap_append, hidle.deliveries]
      rfl
    · rw [hlink]

/-- When commands are rejected on the first handle only and the adapter opens again after it, the link has
not failed. -/
theorem not_failed (hs : h.Serves policy) (hfirst : 1 ≤ h.link.generation)
    (hrejected : ∀ g, Rejected h.port.calls g → g = 1)
    (hreopened : .closed 1 ∈ h.port.calls → .opened 2 ∈ h.port.calls) : h.link.health ≠ .failed := by
  intro hf
  have hclosed : Call.closed h.link.generation ∈ h.port.calls := by
    refine Classical.byContradiction fun hn => ?_
    have hhandle := (hs.keeps.port.live h.link.generation).1 ⟨hs.opened _ hfirst (Nat.le_refl _), hn⟩
    rw [hs.keeps.failed hf] at hhandle
    cases hhandle
  have hone := hrejected _ (hs.provoked.rejected hclosed)
  rw [hone] at hclosed
  have := hs.keeps.port.numbered 2 (hreopened hclosed)
  rw [hs.numbered, hone] at this
  omega

/-- When commands are rejected on the first handle only, there is no third one. -/
theorem generation_le (hs : h.Serves policy) (hrejected : ∀ g, Rejected h.port.calls g → g = 1) :
    h.link.generation ≤ 2 := by
  refine Nat.le_of_not_lt fun hlt => ?_
  have hlive : ∀ k, 2 ≤ k → k ≤ h.link.generation → Live h.port.calls k := fun k hk hle =>
    ⟨hs.opened k (by omega) hle, fun hclosed => by
      have := hrejected k (hs.provoked.rejected hclosed)
      omega⟩
  have := hs.keeps.port.orderly.live_unique (hlive 2 (Nat.le_refl 2) (by omega)) (hlive 3 (by omega) hlt)
  omega

end Serves
end Hardware

/-! ### One command -/

namespace Caller

/-- What a command that has come so far has sent. -/
inductive Fits (h : Hardware σ) : Caller → List (Nat × Bool) → Prop
  /-- Nothing. -/
  | unsent {command : PowerCommand} {address : UInt8} : Fits h (first command address) []
  /-- It was rejected. -/
  | rejected {command : PowerCommand} {address : UInt8} {g : Nat} :
      g ≤ h.link.generation → Fits h (replacing command address g) [(g, false)]
  /-- There was no handle. -/
  | unheard {command : PowerCommand} {address : UInt8} {g : Nat} :
      h.link.health = .failed → Fits h (replacing command address g) []
  /-- It was rejected, and there has been another handle since. -/
  | outlived {command : PowerCommand} {address : UInt8} {g : Nat} :
      g < h.link.generation → Fits h (second command address) [(g, false)]
  /-- It was accepted at once. -/
  | accepted {g : Nat} : Fits h (done (.ok ())) [(g, true)]
  /-- It was accepted the second time. -/
  | acceptedLater {g g' : Nat} : g < g' → Fits h (done (.ok ())) [(g, false), (g', true)]
  /-- It was rejected the second time too. -/
  | rejectedLater {g g' : Nat} {cause : RelayError} :
      g < g' → Fits h (done (.error cause)) [(g, false), (g', false)]
  /-- There was no handle any more. -/
  | givenUp {sends : List (Nat × Bool)} {cause : RelayError} :
      (sends = [] ∨ ∃ g, sends = [(g, false)]) → h.link.health = .failed → Fits h (done (.error cause)) sends

/-- The steps that are left. -/
def left : Caller → Nat
  | first .. => 3
  | replacing .. => 2
  | second .. => 1
  | done _ => 0

variable {h h' : Hardware σ} {c : Caller} {sends : List (Nat × Bool)}

namespace Fits

theorem grow (hc : c.Fits h sends) (hg : h.Grows h') : c.Fits h' sends := by
  cases hc with
  | unsent => exact .unsent
  | rejected hle => exact .rejected (Nat.le_trans hle hg.generation)
  | unheard hf => exact .unheard (hg.failed hf)
  | outlived hlt => exact .outlived (Nat.lt_of_lt_of_le hlt hg.generation)
  | accepted => exact .accepted
  | acceptedLater hlt => exact .acceptedLater hlt
  | rejectedLater hlt => exact .rejectedLater hlt
  | givenUp hsends hf => exact .givenUp hsends (hg.failed hf)

/-- At most two sends, the second on a later generation than the first. -/
theorem increasing (hc : c.Fits h sends) : sends.length ≤ 2 ∧ sends.Pairwise (fun x y => x.1 < y.1) := by
  have hnone : ([] : List (Nat × Bool)).length ≤ 2 ∧ ([] : List (Nat × Bool)).Pairwise (fun x y => x.1 < y.1) := by
    simp
  have hone : ∀ g b, [(g, b)].length ≤ 2 ∧ [(g, b)].Pairwise (fun x y : Nat × Bool => x.1 < y.1) := by simp
  have htwo : ∀ g g' b, g < g' → [(g, false), (g', b)].length ≤ 2 ∧
      [(g, false), (g', b)].Pairwise (fun x y : Nat × Bool => x.1 < y.1) := by simp
  cases hc with
  | unsent => exact hnone
  | rejected => exact hone _ _
  | unheard => exact hnone
  | outlived => exact hone _ _
  | accepted => exact hone _ _
  | acceptedLater hlt => exact htwo _ _ _ hlt
  | rejectedLater hlt => exact htwo _ _ _ hlt
  | givenUp hsends =>
    rcases hsends with rfl | ⟨g, rfl⟩
    · exact hnone
    · exact hone _ _

/-- A command has gone through just if one of its sends was accepted. -/
theorem ok_iff {result : Except RelayError Unit} (hc : (done result).Fits h sends) :
    result = .ok () ↔ ∃ g, (g, true) ∈ sends := by
  cases hc with
  | accepted => simp
  | acceptedLater => simp
  | rejectedLater => simp
  | givenUp hsends =>
    rcases hsends with rfl | ⟨g, rfl⟩ <;> simp

/-- A command that has failed was rejected twice, or the link has failed. -/
theorem of_error {cause : RelayError} (hc : (done (.error cause)).Fits h sends) :
    (∃ g g', g < g' ∧ (g, false) ∈ sends ∧ (g', false) ∈ sends) ∨ h.link.health = .failed := by
  cases hc with
  | @rejectedLater g g' _ hlt => exact .inl ⟨g, g', hlt, by simp, by simp⟩
  | givenUp _ hf => exact .inr hf

/-- A rejected command is accepted on a later generation only. -/
theorem lt_of_accepted {result : Except RelayError Unit} (hc : (done result).Fits h sends) {g g' : Nat}
    (hg : (g, false) ∈ sends) (hg' : (g', true) ∈ sends) : g < g' := by
  cases hc with
  | accepted => simp at hg
  | acceptedLater hlt =>
    obtain rfl : g = _ := by simpa using hg
    obtain rfl : g' = _ := by simpa using hg'
    exact hlt
  | rejectedLater => simp at hg'
  | givenUp hsends =>
    rcases hsends with rfl | ⟨_, rfl⟩ <;> simp at hg'

end Fits

theorem left_step (c : Caller) (h : Hardware σ) : (c.step a policy h).1.left ≤ c.left - 1 := by
  cases c with
  | first command address =>
    rw [step]
    split <;> simp [left]
  | replacing command address observed =>
    rw [step]
    split <;> simp [left]
  | second command address =>
    rw [step]
    split <;> simp [left]
  | done result => exact Nat.le_refl 0

/-- One step of a command: the link still serves, and what the command has sent fits how far it has come. -/
theorem step_fits (hs : h.Serves policy) (hc : c.Fits h sends)
    (hsent : ∀ g, (g, false) ∈ sends → Rejected h.port.calls g) :
    ∃ c' h' more, c.step a policy h = (c', h') ∧ h'.Serves policy ∧ h.Grows h' ∧
      h'.port.calls = h.port.calls ++ more ∧ c'.Fits h' (sends ++ more.filterMap delivery?) := by
  -- a step that leaves the link as it is
  have hstill : ∀ c', c.step a policy h = (c', h) → c'.Fits h sends →
      ∃ c' h' more, c.step a policy h = (c', h') ∧ h'.Serves policy ∧ h.Grows h' ∧
        h'.port.calls = h.port.calls ++ more ∧ c'.Fits h' (sends ++ more.filterMap delivery?) := by
    intro c' heq hc'
    refine ⟨c', h, [], heq, hs, .refl h, (List.append_nil _).symm, ?_⟩
    rwa [List.filterMap_nil, List.append_nil]
  cases hc with
  | @unsent command address =>
    rcases hs.send a command address with ⟨hf, heq⟩ | ⟨accepted, h', heq, hs', hlink, hcalls⟩
    · exact hstill (replacing command address h.link.generation) (by simp only [step, heq]) (.unheard hf)
    · have hgrows : h.Grows h' := ⟨Nat.le_of_eq (by rw [hlink]), by rw [hlink]; exact id⟩
      cases accepted with
      | true => exact ⟨done (.ok ()), h', _, by simp only [step, heq], hs', hgrows, hcalls, .accepted⟩
      | false =>
        refine ⟨replacing command address h'.link.generation, h', _, by simp only [step, heq], hs', hgrows, hcalls, ?_⟩
        rw [hlink]
        exact .rejected (Nat.le_of_eq (by rw [hlink]))
  | @rejected command address g hle =>
    obtain ⟨result, h', more, heq, hs', hgrows, hcalls, hmore, ⟨rfl, hlt⟩ | ⟨cause, rfl, hf⟩⟩ :=
      hs.replaceFrom a hle (hsent g List.mem_cons_self)
    · refine ⟨second command address, h', more, by simp only [step, heq], hs', hgrows, hcalls, ?_⟩
      rw [hmore]
      exact .outlived hlt
    · refine ⟨done (.error cause), h', more, by simp only [step, heq], hs', hgrows, hcalls, ?_⟩
      rw [hmore]
      exact .givenUp (.inr ⟨g, rfl⟩) hf
  | @unheard command address g hf =>
    have heq : h.replaceFrom a policy g = (.error (.reconnectExhausted policy.attempts), h) := if_pos hf
    exact hstill (done (.error (.reconnectExhausted policy.attempts))) (by simp only [step, heq])
      (.givenUp (.inl rfl) hf)
  | @outlived command address g hlt =>
    rcases hs.send a command address with ⟨hf, heq⟩ | ⟨accepted, h', heq, hs', hlink, hcalls⟩
    · exact hstill (done (.error (.commandFailed command address))) (by simp only [step, heq])
        (.givenUp (.inr ⟨g, rfl⟩) hf)
    · have hgrows : h.Grows h' := ⟨Nat.le_of_eq (by rw [hlink]), by rw [hlink]; exact id⟩
      cases accepted with
      | true => exact ⟨done (.ok ()), h', _, by simp only [step, heq], hs', hgrows, hcalls, .acceptedLater hlt⟩
      | false =>
        exact ⟨done (.error (.commandFailed command address)), h', _, by simp only [step, heq], hs', hgrows, hcalls,
          .rejectedLater hlt⟩
  | accepted => exact hstill _ rfl .accepted
  | acceptedLater hlt => exact hstill _ rfl (.acceptedLater hlt)
  | rejectedLater hlt => exact hstill _ rfl (.rejectedLater hlt)
  | givenUp hsends hf => exact hstill _ rfl (.givenUp hsends hf)

end Caller

/-! ### Any number of commands -/

namespace Crew

/-- Where the commands of one of them went, and whether they were accepted there. -/
def sends (c : Crew σ) (i : Nat) : List (Nat × Bool) := (c.made i).filterMap delivery?

/-- Each of them issues one command. -/
structure Serves (policy : LinkPolicy) (commands : Nat → PowerCommand) (c : Crew σ) : Prop where
  /-- The link. -/
  hardware : c.hardware.Serves policy
  /-- What they have sent. -/
  callers : ∀ i, ∃ caller : Caller, c.errands i = .ofCaller (commands i) [] caller ∧ caller.Fits c.hardware (c.sends i)
  /-- The calls that they have made. -/
  made : ∀ i, c.made i ⊆ c.hardware.port.calls

variable {c : Crew σ} {commands : Nat → PowerCommand}

namespace Serves

variable {policy}

/-- Where one of them has sent, the adapter has been called. -/
theorem sent (hc : c.Serves policy commands) {i g : Nat} {accepted : Bool} (hmem : (g, accepted) ∈ c.sends i) :
    ∃ command address, .sent command address g accepted ∈ c.hardware.port.calls := by
  obtain ⟨command, address, hsent⟩ := mem_of_delivery hmem
  exact ⟨command, address, hc.made i hsent⟩

theorem fits_done (hc : c.Serves policy commands) {i : Nat} {result : Except RelayError Unit}
    (hresult : c.errands i = .done result) : (Caller.done result).Fits c.hardware (c.sends i) := by
  obtain ⟨caller, herrand, hfits⟩ := hc.callers i
  rwa [Errand.ofCaller_eq_done.1 (herrand.symm.trans hresult)] at hfits

/-- If commands are rejected on the first handle only and the link has not failed, what has ended has gone
through: a command that fails is rejected on two handles. -/
theorem ok_of_healthy (hc : c.Serves policy commands) (hhealth : c.hardware.link.health ≠ .failed)
    (hrejected : ∀ g, Rejected c.hardware.port.calls g → g = 1) {i : Nat} {result : Except RelayError Unit}
    (hresult : c.errands i = .done result) : result = .ok () := by
  cases result with
  | ok => rfl
  | error cause =>
    rcases (hc.fits_done hresult).of_error with ⟨g, g', hlt, hg, hg'⟩ | hf
    · have hone : g = 1 := hrejected g (hc.sent hg)
      have hone' : g' = 1 := hrejected g' (hc.sent hg')
      omega
    · exact absurd hf hhealth

/-- A command that was rejected and has gone through went through on a later generation than it was rejected on. -/
theorem lt_generation (hc : c.Serves policy commands) {i g : Nat} (hresult : c.errands i = .done (.ok ()))
    (hmem : (g, false) ∈ c.sends i) : g < c.hardware.link.generation := by
  obtain ⟨g', hg'⟩ := (hc.fits_done hresult).ok_iff.1 rfl
  obtain ⟨command, address, haccepted⟩ := hc.sent hg'
  have hbegun := hc.hardware.keeps.port.numbered g' (hc.hardware.keeps.port.orderly.opened_of_sent haccepted)
  rw [hc.hardware.numbered] at hbegun
  exact Nat.lt_of_lt_of_le ((hc.fits_done hresult).lt_of_accepted hmem hg') hbegun

end Serves

theorem step_serves (hc : c.Serves policy commands) (i : Nat) : (c.step a policy i).Serves policy commands := by
  obtain ⟨caller, herrand, hfits⟩ := hc.callers i
  obtain ⟨caller', h', more, heq, hs', hgrows, hcalls, hfits'⟩ := Caller.step_fits a policy hc.hardware hfits
    fun g hg => hc.sent hg
  have hstep : c.step a policy i = ⟨h', Function.update c.errands i (.ofCaller (commands i) [] caller'),
      Function.update c.made i (c.made i ++ more)⟩ := by
    simp only [step, herrand, Errand.step_ofCaller, heq, hcalls, List.drop_left]
  rw [hstep]
  refine ⟨hs', fun j => ?_, fun j => ?_⟩
  · by_cases hj : j = i
    · subst hj
      refine ⟨caller', Function.update_self .., ?_⟩
      simpa only [sends, Function.update_self, List.filterMap_append] using hfits'
    · obtain ⟨other, hother, hfits⟩ := hc.callers j
      refine ⟨other, (Function.update_of_ne hj ..).trans hother, ?_⟩
      simpa only [sends, Function.update_of_ne hj] using hfits.grow hgrows
  · simp only [hcalls]
    by_cases hj : j = i
    · subst hj
      rw [Function.update_self]
      exact List.append_subset.2
        ⟨List.Subset.trans (hc.made j) (List.subset_append_left _ _), List.subset_append_right _ _⟩
    · rw [Function.update_of_ne hj]
      exact List.Subset.trans (hc.made j) (List.subset_append_left _ _)

theorem run_serves (hc : c.Serves policy commands) (schedule : List Nat) :
    (c.run a policy schedule).Serves policy commands := by
  induction schedule using List.reverseRecOn with
  | nil => exact hc
  | append_singleton schedule i ih =>
    rw [run_concat]
    exact step_serves a policy ih i

/-- With each of its turns a caller has one step less to go. -/
theorem run_left (hc : ∀ i, ∃ address, c.errands i = .issue (commands i) address) (schedule : List Nat) (i : Nat) :
    ∃ caller, (c.run a policy schedule).errands i = .ofCaller (commands i) [] caller ∧
      caller.left ≤ 3 - schedule.count i := by
  induction schedule using List.reverseRecOn with
  | nil =>
    obtain ⟨address, herrand⟩ := hc i
    exact ⟨.first (commands i) address, herrand, Nat.le_refl 3⟩
  | append_singleton schedule j ih =>
    obtain ⟨caller, herrand, hleft⟩ := ih
    rw [run_concat, List.count_append]
    by_cases hj : i = j
    · subst hj
      refine ⟨(caller.step a policy (c.run a policy schedule).hardware).1, ?_, ?_⟩
      · simp only [step, herrand, Errand.step_ofCaller, Function.update_self]
      · have := Caller.left_step a policy caller (c.run a policy schedule).hardware
        rw [List.count_singleton_self]
        omega
    · refine ⟨caller, (Function.update_of_ne hj ..).trans herrand, ?_⟩
      rw [List.count_singleton, if_neg (by simpa using Ne.symm hj)]
      exact hleft

/-- A caller that has had three turns has ended. -/
theorem run_done (hc : ∀ i, ∃ address, c.errands i = .issue (commands i) address) {schedule : List Nat} {i : Nat}
    (hturns : 3 ≤ schedule.count i) : ∃ result, (c.run a policy schedule).errands i = .done result := by
  obtain ⟨caller, herrand, hleft⟩ := run_left a policy hc schedule i
  have hnone : caller.left = 0 := by omega
  cases caller with
  | done result => exact ⟨result, herrand.trans (Errand.ofCaller_eq_done.2 rfl)⟩
  | first => cases hnone
  | replacing => cases hnone
  | second => cases hnone

/-- Any number of callers issue a command each, over any adapter and in any order of their steps. Generations
are the numbers of the handles, one more with each reopening. A handle is closed only after a command has
been rejected on it, and no generation is given up or begun twice. Every command is sent at most twice, the
second time on a later generation; it has gone through just if it was accepted once; and it has ended after
three steps. If commands are rejected on the first handle only and the adapter opens again after that one,
then every command that has ended has gone through, and the adapter has been reopened once, if any of them
was rejected. -/
theorem generations {inner : σ} {link : Link} {port : Port σ}
    (hconnect : Hardware.connect a ⟨inner, 0, []⟩ = (.ok link, port)) (commands : Nat → PowerCommand)
    (addresses : Nat → UInt8) (schedule : List Nat) :
    let c := Crew.run a policy ⟨⟨link, port⟩, fun i => .issue (commands i) (addresses i), fun _ => []⟩ schedule
    let calls := c.hardware.port.calls
    ∃ since, calls = port.calls ++ since ∧
      (c.hardware.link.generation = 1 + since.countP isOpened ∧
        ∀ g, c.hardware.link.handle = some g → g = c.hardware.link.generation) ∧
      (∀ before g, before ++ [.closed g] <+: calls →
        ∃ command address, .sent command address g false ∈ before) ∧
      (∀ g, calls.count (.closed g) ≤ 1 ∧ calls.count (.opened g) ≤ 1) ∧
      since.countP isAttempt ≤ policy.attempts.toNat * since.countP isClosed ∧
      (∀ i, (c.sends i).length ≤ 2 ∧ (c.sends i).Pairwise (fun x y => x.1 < y.1)) ∧
      (∀ i result, c.errands i = .done result → (result = .ok () ↔ ∃ g, (g, true) ∈ c.sends i)) ∧
      (∀ i, 3 ≤ schedule.count i → ∃ result, c.errands i = .done result) ∧
      ((∀ g, Rejected calls g → g = 1) → (.closed 1 ∈ calls → .opened 2 ∈ calls) →
        (∀ i result, c.errands i = .done result → result = .ok ()) ∧ since.countP isOpened ≤ 1 ∧
          ∀ i result, c.errands i = .done result → (1, false) ∈ c.sends i → since.countP isOpened = 1) := by
  intro c calls
  have hserves : c.Serves policy commands := by
    refine run_serves a policy ⟨.connected a hconnect, fun i => ?_, fun i => List.nil_subset _⟩ schedule
    exact ⟨.first (commands i) (addresses i), rfl, .unsent⟩
  have hport := (Hardware.Keeps.connected a hconnect).2.2.1
  obtain ⟨since, hsince⟩ : port.calls <+: calls := hport ▸ hserves.hardware.begun
  have hcounted : c.hardware.link.generation = 1 + since.countP isOpened := by
    rw [← hserves.hardware.counted]
    show calls.countP isOpened = _
    rw [← hsince, List.countP_append, hport]
    rfl
  have horderly := hserves.hardware.keeps.port.orderly
  refine ⟨since, hsince.symm, ⟨hcounted, fun g hg => ?_⟩, hserves.hardware.provoked,
    fun g => ⟨horderly.count_closed_le g, horderly.count_opened_le g⟩, ?_, fun i => ?_,
    fun i result hresult => (hserves.fits_done hresult).ok_iff, fun i hturns => ?_, fun hrejected hreopened => ?_⟩
  · rcases hserves.hardware.health with ⟨-, hhandle⟩ | ⟨-, hhandle⟩
    · exact Option.some.inj (hg.symm.trans hhandle)
    · rw [hhandle] at hg
      cases hg
  · have htried : calls.countP isAttempt ≤ 1 + policy.attempts.toNat * calls.countP isClosed := hserves.hardware.tried
    rw [← hsince, List.countP_append, List.countP_append, hport] at htried
    have hbegun : [Call.opened 1, .attached 1].countP isAttempt = 1 := rfl
    have hclosed : [Call.opened 1, .attached 1].countP isClosed = 0 := rfl
    rw [hbegun, hclosed, Nat.zero_add] at htried
    exact Nat.le_of_add_le_add_left htried
  · obtain ⟨caller, -, hfits⟩ := hserves.callers i
    exact hfits.increasing
  · exact run_done a policy (fun i => ⟨addresses i, rfl⟩) hturns
  · have hle := hserves.hardware.generation_le hrejected
    have hhealth := hserves.hardware.not_failed (by omega) hrejected hreopened
    have hok : ∀ i result, c.errands i = .done result → result = .ok () :=
      fun i result => hserves.ok_of_healthy hhealth hrejected
    refine ⟨hok, by omega, fun i result hresult hone => ?_⟩
    obtain rfl := hok i result hresult
    have hlt : 1 < c.hardware.link.generation := hserves.lt_generation hresult hone
    omega

/-- Two callers are rejected on the first handle before either has it replaced. It is replaced once, and both
commands go through. -/
theorem generations_two_rejected :
    let script : Script := ⟨[], [.reply none, .broken], .opened, .reply (some "ok")⟩
    let commands : Nat → PowerCommand := fun i => if i = 0 then .standby else .powerOn
    let addresses : Nat → UInt8 := fun _ => 0
    let link : Link := ⟨some 1, 1, .connected⟩
    let port : Port Script := ⟨script, 1, [.opened 1, .attached 1]⟩
    Hardware.connect Script.adapter ⟨script, 0, []⟩ = (.ok link, port) ∧
      let c := Crew.run Script.adapter ⟨1, ⟨0⟩⟩ ⟨⟨link, port⟩, fun i => .issue (commands i) (addresses i), fun _ => []⟩
        [0, 1, 1, 0, 0, 1]
      c.hardware.port.calls = [.opened 1, .attached 1, .sent .standby 0 1 false, .sent .powerOn 0 1 false, .closed 1,
        .opened 2, .attached 2, .sent .standby 0 2 true, .sent .powerOn 0 2 true] ∧
      ∀ i result, c.errands i = .done result → result = .ok () := by
  intro script commands addresses link port
  have hconnect : Hardware.connect Script.adapter ⟨script, 0, []⟩ = (.ok link, port) := rfl
  have hall := generations Script.adapter ⟨1, ⟨0⟩⟩ hconnect commands addresses [0, 1, 1, 0, 0, 1]
  refine ⟨hconnect, ?_⟩
  generalize hc : Crew.run Script.adapter _ _ _ = c at hall ⊢
  have hcalls : c.hardware.port.calls = [.opened 1, .attached 1, .sent .standby 0 1 false, .sent .powerOn 0 1 false,
      .closed 1, .opened 2, .attached 2, .sent .standby 0 2 true, .sent .powerOn 0 2 true] := by
    rw [← hc]
    decide +kernel
  obtain ⟨since, -, -, -, -, -, -, -, -, hence⟩ := hall
  rw [hcalls] at hence
  refine ⟨hcalls, (hence ?_ fun _ => by simp).1⟩
  rintro g ⟨command, address, hsent⟩
  simp only [List.mem_cons, List.not_mem_nil, Call.sent.injEq, reduceCtorEq, false_or, or_false] at hsent
  rcases hsent with ⟨-, -, rfl, -⟩ | ⟨-, -, rfl, -⟩ | ⟨-, -, -, hne⟩ | ⟨-, -, -, hne⟩
  · rfl
  · rfl
  · cases hne
  · cases hne

end Crew
end CecRelay
