import CecRelay.Adapter.Link

/-!
# The record of calls on an adapter

A handle is live from the call that opens it to the one that closes it (`Call.Live`). A record of calls
is orderly when each call suits those before it (`Call.Suits`): the adapter is opened while no handle is
live, and keys are directed, commands sent and handles closed on the live handle only, a command not
before the keys have been directed. In an orderly record at most one handle is live at any moment
(`Call.Orderly.live_unique`) and no handle is closed twice (`Call.Orderly.count_closed_le`).

`Port.Keeps` ties the record to the handle that its owner has, with one lemma for each call on a port, and
`Hardware.Keeps` carries that through everything that is done to a link.
-/

namespace CecRelay

namespace Call

/-- The handle has been opened and not been closed. -/
def Live (calls : List Call) (k : Nat) : Prop := opened k ∈ calls ∧ closed k ∉ calls

/-- The call is an attempt to open the adapter. -/
def isAttempt : Call → Bool
  | opened _ | refused | broken => true
  | _ => false

/-- The call has opened the adapter. -/
def isOpened : Call → Bool
  | opened _ => true
  | _ => false

/-- The call has closed a handle. -/
def isClosed : Call → Bool
  | closed _ => true
  | _ => false

/-- The call suits those before it. -/
def Suits (before : List Call) : Call → Prop
  | opened k => (∀ j, ¬ Live before j) ∧ opened k ∉ before
  | refused | broken => ∀ j, ¬ Live before j
  | attached k | closed k => Live before k
  | sent _ _ k _ => Live before k ∧ attached k ∈ before
  | paused _ => True

/-- Every call suits those before it. -/
inductive Orderly : List Call → Prop
  /-- There is none. -/
  | nil : Orderly []
  /-- One more. -/
  | concat {calls : List Call} {c : Call} : Orderly calls → c.Suits calls → Orderly (calls ++ [c])

/-- Nothing but attempts to open that have failed, and pauses. -/
def Idle (calls : List Call) : Prop := ∀ c ∈ calls, c = refused ∨ c = broken ∨ ∃ span, c = paused span

variable {calls before : List Call} {c : Call} {j k : Nat}

/-! ### Live handles -/

theorem live_append_singleton (hopened : c ≠ opened k) (hclosed : c ≠ closed k) :
    Live (calls ++ [c]) k ↔ Live calls k := by
  simp only [Live, List.mem_append, List.mem_singleton, hopened.symm, hclosed.symm, or_false]

theorem live_append_opened (h : closed k ∉ calls) : Live (calls ++ [opened k]) k := by
  refine ⟨List.mem_append_right _ List.mem_cons_self, fun hmem => ?_⟩
  rcases List.mem_append.1 hmem with hmem | hmem
  · exact h hmem
  · cases List.mem_singleton.1 hmem

theorem not_live_append_closed : ¬ Live (calls ++ [closed k]) k :=
  fun h => h.2 (List.mem_append_right _ List.mem_cons_self)

/-! ### Orderly records -/

namespace Orderly

/-- So is every first part of it. -/
theorem take (h : Orderly calls) : ∀ {before}, before <+: calls → Orderly before := by
  induction h with
  | nil =>
    intro before hb
    rw [List.prefix_nil.1 hb]
    exact .nil
  | concat h hs ih =>
    intro before hb
    rcases List.prefix_concat_iff.1 hb with rfl | hb
    · exact h.concat hs
    · exact ih hb

theorem suits (h : Orderly calls) (hb : before ++ [c] <+: calls) : c.Suits before := by
  have hparts := h.take hb
  generalize heq : before ++ [c] = whole at hparts
  cases hparts with
  | nil => simp at heq
  | concat _ hs =>
    obtain ⟨rfl, rfl⟩ := List.append_singleton_inj.1 heq
    exact hs

/-- Every call in the record suits those that stood there before it. -/
theorem suits_of_mem (h : Orderly calls) (hc : c ∈ calls) : ∃ before, before ++ [c] <+: calls ∧ c.Suits before := by
  obtain ⟨before, after, rfl⟩ := List.append_of_mem hc
  have hb : before ++ [c] <+: before ++ c :: after := ⟨after, by simp⟩
  exact ⟨before, hb, h.suits hb⟩

/-- What is closed has been opened. -/
theorem opened_of_closed (h : Orderly calls) (hk : closed k ∈ calls) : opened k ∈ calls := by
  obtain ⟨before, hb, hs⟩ := h.suits_of_mem hk
  exact hb.subset (List.mem_append_left _ hs.1)

/-- A command goes to a handle that has been opened. -/
theorem opened_of_sent (h : Orderly calls) {command : PowerCommand} {address : UInt8} {accepted : Bool}
    (hk : sent command address k accepted ∈ calls) : opened k ∈ calls := by
  obtain ⟨before, hb, hs⟩ := h.suits_of_mem hk
  exact hb.subset (List.mem_append_left _ hs.1.1)

/-- At most one handle is live. -/
theorem live_unique (h : Orderly calls) (hj : Live calls j) (hk : Live calls k) : j = k := by
  induction h with
  | nil => cases hj.1
  | @concat calls c _ hs ih =>
    have hstays : ∀ {i}, Live (calls ++ [c]) i → c ≠ opened i → Live calls i := by
      intro i hi hne
      exact (live_append_singleton hne fun heq => not_live_append_closed (heq ▸ hi)).1 hi
    by_cases hcj : c = opened j
    · by_cases hck : c = opened k
      · cases hcj.symm.trans hck
        rfl
      · subst hcj
        exact absurd (hstays hk hck) (hs.1 k)
    · by_cases hck : c = opened k
      · subst hck
        exact absurd (hstays hj hcj) (hs.1 j)
      · exact ih (hstays hj hcj) (hstays hk hck)

/-- A call that never suits a record in which it stands is made once at most. -/
theorem count_le (h : Orderly calls) (hfresh : ∀ {before}, c.Suits before → c ∉ before) : calls.count c ≤ 1 := by
  induction h with
  | nil => exact Nat.zero_le _
  | @concat calls d _ hs ih =>
    by_cases hd : d = c
    · subst hd
      have hone : (calls ++ [d]).count d = 0 + 1 := by
        rw [List.count_append, List.count_eq_zero_of_not_mem (hfresh hs), List.count_singleton_self]
      exact Nat.le_of_eq hone
    · rw [List.count_append, List.count_singleton, if_neg (by simpa using hd)]
      exact ih

theorem count_closed_le (h : Orderly calls) (k : Nat) : calls.count (closed k) ≤ 1 := h.count_le fun hs => hs.2

theorem count_opened_le (h : Orderly calls) (k : Nat) : calls.count (opened k) ≤ 1 := h.count_le fun hs => hs.2

end Orderly
end Call

/-! ### Ports -/

open Call

/-- The record is orderly, and the handle that is held is the one that is live. -/
structure Port.Keeps {σ : Type} (p : Port σ) (held : Option Nat) : Prop where
  /-- The calls. -/
  orderly : Orderly p.calls
  /-- Handles are numbered in order. -/
  numbered : ∀ k, opened k ∈ p.calls → k ≤ p.handles
  /-- The live handle. -/
  live : ∀ k, Live p.calls k ↔ held = some k

variable {σ : Type} (a : Adapter σ)

namespace Port.Keeps

variable {p : Port σ} {held : Option Nat} {k : Nat}

theorem bare (inner : σ) : Port.Keeps ⟨inner, 0, []⟩ none := by
  refine ⟨.nil, fun k hk => (by cases hk), fun k => ⟨fun hk => (by cases hk.1), fun hk => (by cases hk)⟩⟩

/-- A call that neither opens nor closes a handle leaves the live handle as it is. -/
theorem note (h : p.Keeps held) {inner : σ} {c : Call} (hs : c.Suits p.calls) (hopened : ∀ k, c ≠ opened k)
    (hclosed : ∀ k, c ≠ closed k) : (Port.note { p with inner := inner } c).Keeps held := by
  refine ⟨h.orderly.concat hs, fun k hk => ?_, fun k => ?_⟩
  · rcases List.mem_append.1 hk with hk | hk
    · exact h.numbered k hk
    · exact absurd (List.mem_singleton.1 hk).symm (hopened k)
  · exact (live_append_singleton (hopened k) (hclosed k)).trans (h.live k)

/-- An attempt to open while nothing is live: the handle that it gives is the next one, or nothing has
changed but the record. -/
theorem tryOpen (h : p.Keeps none) :
    (∃ p', p.tryOpen a = (.ok (p.handles + 1), p') ∧ p'.Keeps (some (p.handles + 1)) ∧
        p'.handles = p.handles + 1 ∧ p'.calls = p.calls ++ [opened (p.handles + 1)]) ∨
      ∃ cause p' c, p.tryOpen a = (.error cause, p') ∧ p'.Keeps none ∧ p'.handles = p.handles ∧
        p'.calls = p.calls ++ [c] ∧ (c = refused ∨ c = broken) := by
  have hnone : ∀ j, ¬ Live p.calls j := fun j hj => by cases (h.live j).1 hj
  have hfresh : opened (p.handles + 1) ∉ p.calls := fun hmem => by
    have := h.numbered _ hmem
    omega
  rcases hopen : a.tryOpen p.inner with ⟨result, inner⟩
  cases result with
  | opened =>
    refine .inl ⟨Port.note { p with inner := inner, handles := p.handles + 1 } (.opened (p.handles + 1)),
      by rw [Port.tryOpen, hopen],
      ⟨h.orderly.concat (c := .opened (p.handles + 1)) ⟨hnone, hfresh⟩, fun k hk => ?_, fun k => ?_⟩, rfl, rfl⟩
    · rcases List.mem_append.1 hk with hk | hk
      · exact Nat.le_succ_of_le (h.numbered k hk)
      · cases List.mem_singleton.1 hk
        exact Nat.le_refl _
    · constructor
      · intro hk
        by_cases hnew : p.handles + 1 = k
        · rw [hnew]
        · exact absurd ((live_append_singleton (by simpa using hnew) (by simp)).1 hk) (hnone k)
      · rintro ⟨⟩
        exact live_append_opened fun hmem => hfresh (h.orderly.opened_of_closed hmem)
  | refused cause =>
    exact .inr ⟨cause, Port.note { p with inner := inner } .refused, .refused, by rw [Port.tryOpen, hopen],
      h.note (c := .refused) hnone (fun _ => by simp) (fun _ => by simp), rfl, rfl, .inl rfl⟩
  | broken =>
    exact .inr ⟨.connection "adapter open panicked", Port.note { p with inner := inner } .broken, .broken,
      by rw [Port.tryOpen, hopen], h.note (c := .broken) hnone (fun _ => by simp) (fun _ => by simp), rfl, rfl,
      .inr rfl⟩

theorem attach (h : p.Keeps (some k)) : (p.attach a k).Keeps (some k) :=
  h.note (c := .attached k) ((h.live k).2 rfl) (fun _ => by simp) (fun _ => by simp)

theorem send (h : p.Keeps (some k)) (hattached : attached k ∈ p.calls) (command : PowerCommand)
    (address : UInt8) : (p.send a command address k).2.Keeps (some k) :=
  h.note (c := .sent command address k _) ⟨(h.live k).2 rfl, hattached⟩ (fun _ => by simp) (fun _ => by simp)

theorem close (h : p.Keeps (some k)) : (p.close a k).Keeps none := by
  refine ⟨h.orderly.concat (c := .closed k) ((h.live k).2 rfl), fun j hj => ?_, fun j => ?_⟩
  · rcases List.mem_append.1 hj with hj | hj
    · exact h.numbered j hj
    · cases List.mem_singleton.1 hj
  · refine ⟨fun hj => ?_, fun hj => by cases hj⟩
    by_cases heq : k = j
    · subst heq
      exact absurd hj not_live_append_closed
    · have hj' := (live_append_singleton (by simp) (by simpa using heq)).1 hj
      exact absurd (Option.some.inj ((h.live j).1 hj')) heq

theorem pause (h : p.Keeps held) (span : Time.Span) : (p.pause span).Keeps held :=
  h.note (c := .paused span) trivial (fun _ => by simp) (fun _ => by simp)

end Port.Keeps

/-! ### Links -/

/-- The handle of the link is the live one, keys have been directed to the relay on it, and a link that
has failed has none. -/
structure Hardware.Keeps (h : Hardware σ) : Prop where
  /-- The record. -/
  port : h.port.Keeps h.link.handle
  /-- Keys are directed. -/
  attached : ∀ k, h.link.handle = some k → attached k ∈ h.port.calls
  /-- A link that has failed. -/
  failed : h.link.health = .failed → h.link.handle = none

namespace Hardware

variable (policy : LinkPolicy) {h : Hardware σ}

/-- What sending does: the command reaches the handle, or there is none and it is rejected. -/
theorem send_cases (h : Hardware σ) (command : PowerCommand) (address : UInt8) :
    (h.link.handle = none ∧ h.send a command address = (false, h)) ∨
      ∃ k accepted inner, h.link.handle = some k ∧ h.send a command address =
        (accepted, ⟨h.link, Port.note { h.port with inner := inner } (.sent command address k accepted)⟩) := by
  cases hk : h.link.handle with
  | none => exact .inl ⟨rfl, by simp only [send, hk]⟩
  | some k => exact .inr ⟨k, (a.send command address h.port.inner).1.accepts, (a.send command address h.port.inner).2,
      rfl, by simp only [send, hk, Port.send]⟩

/-- What giving the handle up does. -/
theorem release_cases (h : Hardware σ) :
    (h.link.handle = none ∧ h.release a = h) ∨
      ∃ k, h.link.handle = some k ∧
        h.release a = ⟨{ h.link with handle := none }, h.port.close a k⟩ := by
  cases hk : h.link.handle with
  | none => exact .inl ⟨rfl, by simp only [release, hk]⟩
  | some k => exact .inr ⟨k, rfl, by simp only [release, hk]⟩

/-- What reopening does: after attempts that have failed the adapter is open and keys are directed to the
relay, or all attempts have failed. There are no more of them than there may be. -/
theorem reopen_cases (hp : h.port.Keeps none) (hh : h.link.handle = none) (n : Nat) :
    ∃ tries, Idle tries ∧
      ((reopen a policy n h).1 = true ∧ tries.countP isAttempt + 1 ≤ n ∧
          (reopen a policy n h).2.link = ⟨some (h.port.handles + 1), h.link.generation + 1, .connected⟩ ∧
          (reopen a policy n h).2.port.handles = h.port.handles + 1 ∧
          (reopen a policy n h).2.port.Keeps (some (h.port.handles + 1)) ∧
          (reopen a policy n h).2.port.calls = h.port.calls ++
            (tries ++ [.opened (h.port.handles + 1), .attached (h.port.handles + 1)]) ∨
        (reopen a policy n h).1 = false ∧ tries.countP isAttempt ≤ n ∧
          (reopen a policy n h).2.link = { h.link with health := .failed } ∧
          (reopen a policy n h).2.port.handles = h.port.handles ∧
          (reopen a policy n h).2.port.Keeps none ∧
          (reopen a policy n h).2.port.calls = h.port.calls ++ tries) := by
  induction n generalizing h with
  | zero =>
    exact ⟨[], fun c hc => (by cases hc), .inr ⟨rfl, Nat.le_refl 0, rfl, rfl, hp, (List.append_nil _).symm⟩⟩
  | succ n ih =>
    rcases hp.tryOpen a with ⟨p', heq, hp', hhandles, hcalls⟩ | ⟨cause, p', c, heq, hp', hhandles, hcalls, hc⟩
    · refine ⟨[], fun c hc => (by cases hc), .inl ?_⟩
      have hstep : reopen a policy (n + 1) h = (true, adopt a (h.port.handles + 1) { h with port := p' }) := by
        rw [reopen]
        simp only [heq]
      rw [hstep]
      refine ⟨rfl, Nat.succ_le_succ (Nat.zero_le n), rfl, hhandles, hp'.attach a, ?_⟩
      simp only [adopt, Port.attach, Port.note, hcalls, List.nil_append, List.append_assoc, List.singleton_append]
    · -- the pause after a failed attempt is one more call that opens and closes nothing
      obtain ⟨p'', pause, hp'', hidle, hcount, hkeeps, hsame, hcalls'⟩ : ∃ p'' pause,
          (if n = 0 ∨ policy.delay.nanos = 0 then p' else p'.pause policy.delay) = p'' ∧ Idle pause ∧
            pause.countP isAttempt = 0 ∧ p''.Keeps none ∧ p''.handles = h.port.handles ∧
            p''.calls = h.port.calls ++ c :: pause := by
        split
        · exact ⟨p', [], rfl, fun c hc => (by cases hc), rfl, hp', hhandles, hcalls⟩
        · refine ⟨_, [.paused policy.delay], rfl, fun c hc => ?_, rfl, hp'.pause policy.delay, hhandles, ?_⟩
          · exact .inr (.inr ⟨_, List.mem_singleton.1 hc⟩)
          · simp only [Port.pause, Port.note, hcalls, List.append_assoc, List.singleton_append]
      have hstep : reopen a policy (n + 1) h = reopen a policy n { h with port := p'' } := by
        rw [reopen]
        simp only [heq, hp'']
      obtain ⟨tries, htries, hcases⟩ := @ih { h with port := p'' } hkeeps hh
      rw [hstep]
      refine ⟨c :: (pause ++ tries), fun d hd => ?_, ?_⟩
      · rcases List.mem_cons.1 hd with rfl | hd
        · rcases hc with hc | hc
          · exact .inl hc
          · exact .inr (.inl hc)
        · rcases List.mem_append.1 hd with hd | hd
          · exact hidle d hd
          · exact htries d hd
      · have htried : (c :: (pause ++ tries)).countP isAttempt = tries.countP isAttempt + 1 := by
          rw [List.countP_cons_of_pos (by rcases hc with rfl | rfl <;> rfl), List.countP_append, hcount, Nat.zero_add]
        rw [htried]
        simp only [hsame, hcalls', List.append_assoc, List.cons_append, Nat.add_le_add_iff_right] at hcases ⊢
        exact hcases

/-- What replacing the handle does: the old one is closed, if there is one, and then the adapter is open
again or the link has failed. -/
theorem replace_cases (hk : h.Keeps) :
    ∃ before tries, Idle tries ∧
      (h.link.handle = none ∧ before = [] ∨ ∃ k, h.link.handle = some k ∧ before = [.closed k]) ∧
      ((h.replace a policy).1 = .ok () ∧ tries.countP isAttempt + 1 ≤ policy.attempts.toNat ∧
          (h.replace a policy).2.link = ⟨some (h.port.handles + 1), h.link.generation + 1, .connected⟩ ∧
          (h.replace a policy).2.port.handles = h.port.handles + 1 ∧
          (h.replace a policy).2.port.Keeps (some (h.port.handles + 1)) ∧
          (h.replace a policy).2.port.calls = h.port.calls ++
            (before ++ (tries ++ [.opened (h.port.handles + 1), .attached (h.port.handles + 1)])) ∨
        (h.replace a policy).1 = .error (.reconnectExhausted policy.attempts) ∧
          tries.countP isAttempt ≤ policy.attempts.toNat ∧
          (h.replace a policy).2.link = ⟨none, h.link.generation, .failed⟩ ∧
          (h.replace a policy).2.port.handles = h.port.handles ∧
          (h.replace a policy).2.port.Keeps none ∧
          (h.replace a policy).2.port.calls = h.port.calls ++ (before ++ tries)) := by
  obtain ⟨h₁, before, hreleased, hbefore, hkeeps, hnone, hgeneration, hhandles, hcalls⟩ : ∃ h₁ before,
      release a { h with link := { h.link with health := .reconnecting } } = h₁ ∧
        (h.link.handle = none ∧ before = [] ∨ ∃ k, h.link.handle = some k ∧ before = [Call.closed k]) ∧
        h₁.port.Keeps none ∧ h₁.link.handle = none ∧ h₁.link.generation = h.link.generation ∧
        h₁.port.handles = h.port.handles ∧ h₁.port.calls = h.port.calls ++ before := by
    have hport := hk.port
    rcases release_cases a { h with link := { h.link with health := .reconnecting } } with
      ⟨hnone, heq⟩ | ⟨k, hsome, heq⟩
    · simp only at hnone
      rw [hnone] at hport
      exact ⟨_, [], heq, .inl ⟨hnone, rfl⟩, hport, hnone, rfl, rfl, (List.append_nil _).symm⟩
    · simp only at hsome
      rw [hsome] at hport
      exact ⟨_, [.closed k], heq, .inr ⟨k, hsome, rfl⟩, hport.close a, rfl, rfl, rfl, rfl⟩
  obtain ⟨tries, htries, hcases⟩ := reopen_cases a policy hkeeps hnone policy.attempts.toNat
  refine ⟨before, tries, htries, hbefore, ?_⟩
  rw [replace]
  simp only [hreleased]
  rcases hreopened : reopen a policy policy.attempts.toNat h₁ with ⟨ok, h'⟩
  rw [hreopened, hhandles, hgeneration, hcalls] at hcases
  simp only [List.append_assoc] at hcases
  rcases hcases with ⟨rfl, htried, hlink, hmore, hkeeps', hcalls'⟩ | ⟨rfl, htried, hlink, hsame, hkeeps', hcalls'⟩
  · exact .inl ⟨rfl, htried, hlink, hmore, hkeeps', hcalls'⟩
  · refine .inr ⟨rfl, htried, ?_, hsame, hkeeps', hcalls'⟩
    rw [hlink, hnone, hgeneration]

namespace Keeps

theorem connected {inner : σ} {link : Link} {port : Port σ}
    (hconnect : connect a ⟨inner, 0, []⟩ = (.ok link, port)) :
    link = ⟨some 1, 1, .connected⟩ ∧ port.handles = 1 ∧ port.calls = [.opened 1, .attached 1] ∧
      Hardware.Keeps ⟨link, port⟩ := by
  unfold connect at hconnect
  rcases (Port.Keeps.bare inner).tryOpen a with ⟨p, heq, hp, hhandles, hcalls⟩ | ⟨cause, p, c, heq, -⟩
  · rw [heq] at hconnect
    cases hconnect
    have hall : (p.attach a 1).calls = [.opened 1, .attached 1] := by
      rw [Port.attach, Port.note, hcalls]
      rfl
    refine ⟨rfl, hhandles, hall, hp.attach a, fun k hk => ?_, fun hf => by cases hf⟩
    cases hk
    rw [hall]
    exact List.mem_cons_of_mem _ List.mem_cons_self
  · rw [heq] at hconnect
    cases hconnect

theorem send (hk : h.Keeps) (command : PowerCommand) (address : UInt8) : (h.send a command address).2.Keeps := by
  cases hhandle : h.link.handle with
  | none =>
    have heq : h.send a command address = (false, h) := by simp only [Hardware.send, hhandle]
    rw [heq]
    exact hk
  | some k =>
    have heq : (h.send a command address).2 = ⟨h.link, (h.port.send a command address k).2⟩ := by
      simp only [Hardware.send, hhandle]
    have hport := hk.port
    rw [hhandle] at hport
    rw [heq]
    refine ⟨?_, fun j hj => List.mem_append_left _ (hk.attached j hj), hk.failed⟩
    simp only [hhandle]
    exact hport.send a (hk.attached k hhandle) command address

theorem release (hk : h.Keeps) : (h.release a).Keeps ∧ (h.release a).link.handle = none := by
  have hport := hk.port
  rcases release_cases a h with ⟨hnone, heq⟩ | ⟨k, hsome, heq⟩
  · rw [heq]
    exact ⟨hk, hnone⟩
  · rw [hsome] at hport
    rw [heq]
    exact ⟨⟨hport.close a, fun j hj => (by cases hj), fun _ => rfl⟩, rfl⟩

theorem replace (hk : h.Keeps) : (h.replace a policy).2.Keeps := by
  obtain ⟨before, tries, -, -, ⟨-, -, hlink, -, hkeeps, hcalls⟩ | ⟨-, -, hlink, -, hkeeps, -⟩⟩ :=
    replace_cases a policy hk
  · refine ⟨by rw [hlink]; exact hkeeps, fun k hsome => ?_, fun hf => by rw [hlink] at hf; cases hf⟩
    rw [hlink] at hsome
    cases hsome
    simp [hcalls]
  · refine ⟨by rw [hlink]; exact hkeeps, fun k hsome => ?_, fun _ => by rw [hlink]⟩
    rw [hlink] at hsome
    cases hsome

theorem replaceFrom (hk : h.Keeps) (observed : Nat) : (h.replaceFrom a policy observed).2.Keeps := by
  unfold Hardware.replaceFrom
  split
  · exact hk
  · split
    · exact hk
    · exact hk.replace a policy

end Keeps
end Hardware

/-- No step of a command breaks what a link keeps. -/
theorem Caller.step_keeps (policy : LinkPolicy) {h : Hardware σ} (hk : h.Keeps) (c : Caller) :
    (c.step a policy h).2.Keeps := by
  cases c with
  | first command address =>
    have hsent := hk.send a command address
    rw [step]
    split
    next heq => rwa [heq] at hsent
    next heq => rwa [heq] at hsent
  | replacing command address observed =>
    have hreplaced := hk.replaceFrom a policy observed
    rw [step]
    split
    next heq => rwa [heq] at hreplaced
    next heq => rwa [heq] at hreplaced
  | second command address =>
    have hsent := hk.send a command address
    rw [step]
    split
    next heq => rwa [heq] at hsent
    next heq => rwa [heq] at hsent
  | done result => exact hk

end CecRelay
