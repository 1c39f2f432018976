import CecRelay.Proofs.Queue.Recovery
import CecRelay.Proofs.Queue.Standing

/-!
# What a queue in service keeps

Opening establishes `Service.Sound` (`Service.sound_start`), every step keeps it (`Service.Sound.step`),
and so it holds in every run (`Service.Reaches.sound`). Each step is put together from what it does to the
lanes, the cursor and the ledger.
-/

namespace CecRelay

open Lines

namespace Service

variable {o : Origin} {v : Service} {w : View}

/-! ### Phases -/

/-- What has been put into the lanes are the first of the events read. -/
theorem View.InPhase.put {phase : Phase} (h : w.InPhase v phase) (s : Stream) :
    v.handed s <+: items s 0 (w.past ++ w.opens) := by
  cases phase with
  | top | reading | idle => exact h.1 s ▸ List.prefix_rfl
  | committing stop => exact h.1 s ▸ List.prefix_rfl
  | handing e stop => exact h.1 s ▸ List.prefix_append _ _
  | moving stop => exact h.1 s ▸ List.prefix_rfl
  | stopped => exact h s

/-- A phase goes on when the ledger settles, or when none of what it tells of changes. -/
theorem View.InPhase.congr {w' : View} {v' : Service} {phase : Phase} (h : w.InPhase v phase)
    (hhanded : v'.handed = v.handed) (hcount : v'.count = v.count)
    (hfront : w'.front ++ w'.opens = w.front ++ w.opens) (hpast : w'.past ++ w'.opens = w.past ++ w.opens)
    (hline : w'.line = w.line) (hle : w.front <+: w'.front)
    (hready : v'.live.queue.ledger.ready = v.live.queue.ledger.ready ∨ w.front.length < w'.front.length) :
    w'.InPhase v' phase := by
  have hall : w.AllHanded v → w'.AllHanded v' := fun hall s => by rw [hhanded, hpast]; exact hall s
  cases phase with
  | top | reading | idle => exact ⟨hall h.1, by rw [hline, hfront]; exact h.2⟩
  | committing stop =>
    obtain ⟨hall', hline', i, hi, hstop, hlt⟩ := h
    obtain ⟨more, heq⟩ := hle
    refine ⟨hall hall', by rw [hline, hfront]; exact hline', i, ?_, ?_, fun hne => ?_⟩
    · rw [← heq, List.length_append]
      exact hi.trans (Nat.le_add_right _ _)
    · rw [hstop, ← heq, mark_append_left hi]
    · rcases hready with hsame | hmore
      · have hlen := congrArg List.length heq
        rw [List.length_append] at hlen
        have := hlt (hsame ▸ hne)
        omega
      · omega
  | handing e stop =>
    obtain ⟨hitems, hline', hstop⟩ := h
    exact ⟨fun s => by rw [hpast, hhanded, hcount]; exact hitems s, by rw [hline, hfront]; exact hline',
      by rw [hfront]; exact hstop⟩
  | moving stop =>
    obtain ⟨hall', hline', hstop⟩ := h
    exact ⟨hall hall', by rw [hline, hfront]; exact hline', by rw [hfront]; exact hstop⟩
  | stopped => exact fun s => by rw [hhanded, hpast]; exact h s

/-- Nothing of what a phase tells of has changed. -/
theorem View.InPhase.same {v' : Service} {phase : Phase} (h : w.InPhase v phase) (hhanded : v'.handed = v.handed)
    (hcount : v'.count = v.count) (hready : v'.live.queue.ledger.ready = v.live.queue.ledger.ready)
    (extra : Bytes) (unread : List Bytes) (owed : Stream → Nat) :
    View.InPhase { w with extra := extra, unread := unread, owed := owed } v' phase :=
  h.congr hhanded hcount rfl rfl rfl List.prefix_rfl (.inl hready)

/-! ### Those who close the queue -/

namespace Closers

theorem of_nil (h : v.closers = []) : Closers v w :=
  ⟨fun hne => absurd h hne, fun x hx => by rw [h] at hx; cases hx⟩

/-- While the queue is open or the pump works, nobody has taken anything. -/
theorem eq_nil (h : Closers v w) (hquiet : ¬ v.Quiet) : v.closers = [] := by
  by_contra hne
  exact hquiet (h.quiet hne)

/-- What has been taken stays a mark in front of the ledger. -/
theorem congr (h : Closers v w) {v' : Service} {w' : View} (hclosers : v'.closers = v.closers)
    (hquiet : v.Quiet → v'.Quiet) (hlen : v'.live.queue.journal.len = v.live.queue.journal.len)
    (hle : w.front <+: w'.front)
    (hready : v'.live.queue.ledger.ready = v.live.queue.ledger.ready ∨ w.front.length < w'.front.length) :
    Closers v' w' := by
  refine ⟨fun hne => hquiet (h.quiet (hclosers ▸ hne)), fun x hx => ?_⟩
  obtain ⟨i, hi, hmark, hlt⟩ := h.taken x (hclosers ▸ hx)
  obtain ⟨more, heq⟩ := hle
  have hlength := congrArg List.length heq
  rw [List.length_append] at hlength
  refine ⟨i, by omega, ?_, fun hne => ?_⟩
  · rw [hlen, hmark, ← heq, mark_append_left hi]
  · rcases hready with hsame | hmore
    · have := hlt (hsame ▸ hne)
      omega
    · omega

end Closers

/-! ### Steps of the pump -/

/-- A step of the pump touches what has been read and handed out, and nothing else of what has happened. -/
theorem pumped_same (v : Service) (l : Live) : (v.pumped l).live = l ∧ (v.pumped l).got = v.got ∧
    (v.pumped l).held = v.held ∧ (v.pumped l).gone = v.gone ∧ (v.pumped l).lines = v.lines := by
  unfold pumped
  split
  · exact ⟨rfl, rfl, rfl, rfl, rfl⟩
  · split
    · exact ⟨rfl, rfl, rfl, rfl, rfl⟩
    · exact ⟨rfl, rfl, rfl, rfl, rfl⟩
  · exact ⟨rfl, rfl, rfl, rfl, rfl⟩

section Pump

variable {l : Live} (hthere : v.gone = false) (hcore : Standing o v w) (hlanes : Lanes v) (hnone : v.closers = [])
  (hstep : v.live.step? = some l)

include hthere hcore hlanes hnone hstep

theorem pump_top (hphase : v.live.queue.phase = .top) (hin : w.InPhase v .top) : Sound o (v.pumped l) := by
  rw [Live.step?, hphase] at hstep
  have hpumped : v.pumped l = { v with live := l } := by rw [Service.pumped, hphase]
  rw [hpumped]
  simp only at hstep
  split at hstep
  · cases hstep
    exact .standing w hthere { hcore with } (fun s => hin.1 s ▸ List.prefix_rfl) { hlanes with } (.of_nil hnone)
  · split at hstep
    next stop ledger heq =>
      cases hstep
      simp only [Ledger.takeReady, Prod.mk.injEq] at heq
      obtain ⟨hready, rfl⟩ := heq
      obtain ⟨i, hi, hstop⟩ := hcore.ready stop hready
      exact .standing w hthere { hcore with ready := fun _ h => by cases h }
        ⟨hin.1, hin.2, i, hi, hstop, fun hne => absurd rfl hne⟩ { hlanes with } (.of_nil hnone)
    next heq =>
      cases hstep
      exact .standing w hthere { hcore with } hin { hlanes with } (.of_nil hnone)

theorem pump_committing {stop : Nat} (hphase : v.live.queue.phase = .committing stop)
    (hin : w.InPhase v (.committing stop)) : Sound o (v.pumped l) := by
  rw [Live.step?, hphase] at hstep
  have hpumped : v.pumped l = { v with live := l } := by rw [Service.pumped, hphase]
  rw [hpumped]
  obtain ⟨hall, hline, i, hi, rfl, hlt⟩ := hin
  simp only at hstep
  rcases hcommit : v.live.queue.journal.commit (mark w.front i) v.live.disk with ⟨j, d, fault⟩
  rw [hcommit] at hstep
  cases hstep
  obtain ⟨w', hcore', hopens, hpast, hfront, hline'⟩ := hcore.commit hi hlt hcommit
  have hall' : w'.AllHanded v := fun s => by rw [hpast, hopens]; exact hall s
  cases fault with
  | none => exact .standing w' hthere { hcore' with } ⟨hall', hline' hline⟩ { hlanes with } (.of_nil hnone)
  | some fault =>
    have hsame : w'.front = w.front := by
      rcases hfront with ⟨hsame, -⟩ | ⟨hfault, -⟩
      · exact hsame
      · cases hfault
    have hback := hcore'.putBack (hsame ▸ hi) .reading
    rw [hsame] at hback
    exact .standing w' hthere hback ⟨hall', hline' hline⟩ { hlanes with } (.of_nil hnone)

theorem pump_handing {e : Event} {stop : Nat} (hphase : v.live.queue.phase = .handing e stop)
    (hin : w.InPhase v (.handing e stop)) : Sound o (v.pumped l) := by
  rw [Live.step?, hphase] at hstep
  simp only at hstep
  split at hstep
  · cases hstep
    rw [Service.pumped, hphase]
    simp only [if_true]
    exact .standing w hthere { hcore with } hin.put { hlanes with } (.of_nil hnone)
  next hgo =>
    split at hstep
    · cases hstep
      rw [Service.pumped, hphase]
      simp only [reduceCtorEq, if_false]
      obtain ⟨hitems, hline, hstop⟩ := hin
      obtain ⟨⟨keys, power, heq⟩, -, -⟩ := v.live.queue.push_eq e
      have hlisten : v.live.queue.listening = true := by
        cases hl : v.live.queue.listening with
        | true => rfl
        | false => simp [hl] at hgo
      have hlanes' := hlanes.pushed hlisten e (v.count - 1) (.moving stop)
      refine .standing w hthere ?_ ⟨fun s => ?_, hline, hstop⟩ hlanes' (.of_nil hnone)
      · rw [heq]
        exact { hcore with }
      · rw [hitems s]
        by_cases hs : e.stream = s
        · subst hs
          simp only [if_true, Function.update_self]
        · simp only [if_neg hs, Function.update_of_ne (Ne.symm hs), List.append_nil]
    · cases hstep

theorem pump_moving {stop : Nat} (hphase : v.live.queue.phase = .moving stop)
    (hin : w.InPhase v (.moving stop)) : Sound o (v.pumped l) := by
  rw [Live.step?, hphase] at hstep
  have hpumped : v.pumped l = { v with live := l } := by rw [Service.pumped, hphase]
  rw [hpumped]
  cases hstep
  obtain ⟨hall, hline, hstop⟩ := hin
  have hnext := hcore.journal.advance hcore.front_le
  rw [hcore.mark_opens, ← hstop, Nat.max_eq_right (by omega)] at hnext
  exact .standing { w with line := (w.front ++ w.opens).length } hthere { hcore with journal := hnext }
    ⟨hall, rfl⟩ { hlanes with } (.of_nil hnone)

theorem pump_idle (hphase : v.live.queue.phase = .idle) (hin : w.InPhase v .idle) : Sound o (v.pumped l) := by
  rw [Live.step?, hphase] at hstep
  have hpumped : v.pumped l = { v with live := l } := by rw [Service.pumped, hphase]
  rw [hpumped]
  simp only at hstep
  split at hstep
  · cases hstep
    exact .standing w hthere { hcore with } (fun s => hin.1 s ▸ List.prefix_rfl) { hlanes with } (.of_nil hnone)
  · split at hstep
    · cases hstep
      exact .standing w hthere { hcore with } hin { hlanes with } (.of_nil hnone)
    · cases hstep

theorem pump_reading (hphase : v.live.queue.phase = .reading) (hin : w.InPhase v .reading) :
    Sound o (v.pumped l) := by
  rw [Live.step?, hphase] at hstep
  obtain ⟨hall, hline⟩ := hin
  simp only at hstep
  split at hstep
  next =>
    cases hstep
    rw [Service.pumped, hphase]
    simp only [if_true]
    exact .standing w hthere { hcore with } ⟨hall, hline⟩ { hlanes with } (.of_nil hnone)
  next line stop hpeek =>
    obtain ⟨unread, -, hstop, hread⟩ := hcore.peek hline hpeek
    have hstop' : stop = (joined (w.front ++ (w.opens ++ [line]))).length := by
      rw [joined_append, List.length_append]
      exact hstop
    split at hstep
    next hdecode =>
      -- the line cannot be read and is passed over
      cases hstep
      rw [Service.pumped, hphase]
      simp only [reduceCtorEq, if_false]
      obtain ⟨w', hcore', hfront, hpast, hline', -, -⟩ := hcore.passedOver hline hpeek hdecode
      refine .standing w' hthere { hcore' with } ⟨fun s => ?_, ?_, ?_⟩ { hlanes with } (.of_nil hnone)
      · rw [hall s, hpast, ← List.append_assoc, items_append s 0 (w.past ++ w.opens),
          items_singleton_none hdecode, List.append_nil]
      · rw [hline', hfront]
        exact hread
      · rw [hfront]
        exact hstop'
    next seq e hdecode =>
      cases hstep
      rw [Service.pumped, hphase]
      simp only [reduceCtorEq, if_false]
      obtain ⟨unread', hcore'⟩ := hcore.handedOut hline hpeek hdecode
      refine .standing _ hthere { hcore' with } ⟨fun s => ?_, hread, hstop'⟩ { hlanes with } (.of_nil hnone)
      rw [hall s, ← List.append_assoc, items_append s 0 (w.past ++ w.opens), items_singleton_some hdecode,
        Nat.zero_add, Nat.add_sub_cancel, hcore.count]

end Pump

/-! ### All steps -/

theorem Sound.lanes (h : Sound o v) : Lanes v := by
  cases h with
  | gone _ _ _ hlanes => exact hlanes
  | standing _ _ _ _ hlanes _ => exact hlanes

/-- Somebody holds an offset only once the pump has stopped. -/
theorem Sound.quiet (h : Sound o v) (hheld : v.closers ≠ []) : v.Quiet := by
  cases h with
  | gone _ hquiet _ _ => exact hquiet
  | standing _ _ _ _ _ hclosers => exact hclosers.quiet hheld

/-- What has been put into a lane are the first events of its stream. -/
theorem Sound.handed (h : Sound o v) (s : Stream) : v.handed s <+: items s 0 v.lines := by
  cases h with
  | gone _ _ hput _ => exact hput s
  | standing w _ hcore hin _ _ =>
    rw [hcore.whole, ← List.append_assoc, items_append]
    exact (hin.put s).trans (List.prefix_append _ _)

theorem Sound.pump (h : Sound o v) {l : Live} (hstep : v.live.step? = some l) : Sound o (v.pumped l) := by
  cases h with
  | gone _ hquiet _ _ =>
    rw [Live.step?, hquiet.2] at hstep
    cases hstep
  | standing w hthere hcore hin hlanes hclosers =>
    have hnone := hclosers.eq_nil fun hquiet => by
      rw [Live.step?, hquiet.2] at hstep
      cases hstep
    cases hphase : v.live.queue.phase with
    | top => exact pump_top hthere hcore hlanes hnone hstep hphase (hphase ▸ hin)
    | committing stop => exact pump_committing hthere hcore hlanes hnone hstep hphase (hphase ▸ hin)
    | reading => exact pump_reading hthere hcore hlanes hnone hstep hphase (hphase ▸ hin)
    | handing e stop => exact pump_handing hthere hcore hlanes hnone hstep hphase (hphase ▸ hin)
    | moving stop => exact pump_moving hthere hcore hlanes hnone hstep hphase (hphase ▸ hin)
    | idle => exact pump_idle hthere hcore hlanes hnone hstep hphase (hphase ▸ hin)
    | stopped =>
      rw [Live.step?, hphase] at hstep
      cases hstep

/-- A queue that accepts events has nobody closing it. -/
theorem Closers.eq_nil_of_open (h : Closers v w) (hopen : v.live.queue.closed = false) : v.closers = [] :=
  h.eq_nil fun hquiet => by
    rw [hquiet.1] at hopen
    cases hopen

/-- An event that is stored is the last of those to be handed out, whether its number is told or not. -/
theorem Sound.store (h : Sound o v) {l : Live} {now : Time.Stamp} {e : Event} {result : Except Failure (Option UInt64)}
    (happ : v.live.append now e = (l, result))
    (hresult : (∃ seq, result = .ok (some seq)) ∨ result = .error .broken) :
    Sound o { v with live := l, lines := v.lines ++ [Envelope.body v.live.queue.journal.nextSeq now e] } := by
  cases h with
  | gone _ hquiet _ _ =>
    rw [Live.append, if_pos hquiet.1] at happ
    cases happ
    rcases hresult with ⟨seq, hseq⟩ | hbroken
    · cases hseq
    · cases hbroken
  | standing w hthere hcore hin hlanes hclosers =>
    obtain ⟨hopen, j, d, rfl, hd, hj, -⟩ := hcore.stored happ hresult
    exact .standing _ hthere (hcore.grown hd hj) (hin.same rfl rfl rfl _ _ _) { hlanes with }
      (.of_nil (hclosers.eq_nil_of_open hopen))

theorem Sound.accept (h : Sound o v) {l : Live} {now : Time.Stamp} {e : Event} {seq : UInt64}
    (happ : v.live.append now e = (l, .ok (some seq))) :
    Sound o { v with live := l, lines := v.lines ++ [Envelope.body seq now e] } := by
  rw [(Live.append_ok happ).1]
  exact h.store happ (.inl ⟨seq, rfl⟩)

theorem Sound.refuse (h : Sound o v) {l : Live} {now : Time.Stamp} {e : Event} {cause : RelayError}
    (happ : v.live.append now e = (l, .error (.error cause))) : Sound o { v with live := l } := by
  cases h with
  | gone _ hquiet _ _ =>
    rw [Live.append, if_pos hquiet.1] at happ
    cases happ
  | standing w hthere hcore hin hlanes hclosers =>
    obtain ⟨d, rfl, hd⟩ := hcore.refused happ
    exact .standing _ hthere (hcore.leave (by rwa [List.append_nil]) (.nil _)) (hin.same rfl rfl rfl _ _ _)
      { hlanes with } (hclosers.congr rfl id rfl List.prefix_rfl (.inl rfl))

theorem Sound.refusePartly (h : Sound o v) {now : Time.Stamp} (hvalid : now.Valid) {e : Event} {n k : Nat}
    (hopen : v.live.queue.closed = false) :
    Sound o { v with
      live.disk := Effect.crash n k (v.live.queue.journal.appendEffects v.live.disk.log
        (Envelope.line v.live.queue.journal.nextSeq now e)) v.live.disk } := by
  cases h with
  | gone _ hquiet _ _ =>
    rw [hquiet.1] at hopen
    cases hopen
  | standing w hthere hcore hin hlanes hclosers =>
    obtain ⟨extra, hd, hextra, -⟩ := hcore.broken (e := e) hvalid n k
    exact .standing _ hthere (hcore.leave hd hextra) (hin.same rfl rfl rfl _ _ _) { hlanes with }
      (hclosers.congr rfl id rfl List.prefix_rfl (.inl rfl))

/-- The pump cannot write the cursor, and the ledger takes the offset back. -/
theorem Sound.pumpFailing (h : Sound o v) {stop : Nat} (hphase : v.live.queue.phase = .committing stop)
    (n k : Nat) : Sound o { v with live := v.live.commitFailing n k stop } := by
  cases h with
  | gone _ hquiet _ _ =>
    rw [hquiet.2] at hphase
    cases hphase
  | standing w hthere hcore hin hlanes hclosers =>
    have hnone := hclosers.eq_nil fun hquiet => by
      rw [hquiet.2] at hphase
      cases hphase
    rw [hphase] at hin
    obtain ⟨hall, hline, i, hi, rfl, -⟩ := hin
    rcases hcommit : v.live.queue.journal.commitFailing n k (mark w.front i) v.live.disk with ⟨j, d⟩
    obtain ⟨w', hcore', hopens, hpast, hfront, -, hline'⟩ := hcore.commitFailing hi n k hcommit
    have hback := hcore'.putBack (hfront ▸ hi) .reading
    rw [hfront] at hback
    rw [Live.commitFailing, hcommit]
    exact .standing w' hthere hback ⟨fun s => by rw [hpast, hopens]; exact hall s, hline' hline⟩ { hlanes with }
      (.of_nil hnone)

theorem Sound.wait (h : Sound o v) : Sound o { v with live := v.live.tick } := by
  cases hphase : v.live.queue.phase with
  | idle =>
    have htick : v.live.tick = { v.live with queue := { v.live.queue with phase := .top } } := by
      rw [Live.tick, hphase]
    rw [htick]
    cases h with
    | gone _ hquiet _ _ =>
      rw [hquiet.2] at hphase
      cases hphase
    | standing w hthere hcore hin hlanes hclosers =>
      have hnone := hclosers.eq_nil fun hquiet => by
        rw [hquiet.2] at hphase
        cases hphase
      rw [hphase] at hin
      exact .standing w hthere { hcore with } hin { hlanes with } (.of_nil hnone)
  | _ =>
    have htick : v.live.tick = v.live := by rw [Live.tick, hphase]
    rw [htick]
    exact h

theorem Sound.take (h : Sound o v) {l : Live} {s : Stream} {e : Event} (ht : v.live.take? s = some (e, l)) :
    Sound o { v with live := l, held := Function.update v.held s (v.held s ++ [(v.position s, e)]) } := by
  obtain ⟨⟨keys, power, rfl⟩, -, -⟩ := Live.take?_eq ht
  cases h with
  | gone hgone hquiet hput hlanes => exact .gone hgone hquiet hput (hlanes.took ht)
  | standing w hthere hcore hin hlanes hclosers =>
    exact .standing w hthere { hcore with } (hin.same rfl rfl rfl _ _ _) (hlanes.took ht)
      (hclosers.congr rfl id rfl List.prefix_rfl (.inl rfl))

/-- A receipt is marked in the ledger, and what has been received of its oldest lines leaves it. -/
theorem Standing.received (h : Standing o v w) (hin : w.InPhase v v.live.queue.phase) (hlanes : Lanes v) {s : Stream}
    {i : Nat} {e : Event} {rest : List (Nat × Event)} (hheld : v.held s = (i, e) :: rest) :
    ∃ w', Standing o
        { v with
          live := v.live.acknowledge s
          held := Function.update v.held s rest
          got := Function.update v.got s (v.got s ++ [(i, e)]) } w' ∧
      w'.front ++ w'.opens = w.front ++ w.opens ∧ w'.past ++ w'.opens = w.past ++ w.opens ∧
      w'.line = w.line ∧ w.front <+: w'.front ∧
      ((v.live.queue.ledger.received s).ready = v.live.queue.ledger.ready ∧ w'.past = w.past ∨
        (v.live.queue.ledger.received s).ready = some (joined w'.front).length ∧
          w.front.length < w'.front.length) := by
  -- what is held has been put into the lane, so it was read
  have hmore : (v.got s).length < (events s (w.past ++ w.opens)).length := by
    have h1 := (hlanes.taken s).length_le
    have h2 := (hin.put s).length_le
    rw [hheld, List.length_append, List.length_cons] at h1
    rw [length_items] at h2
    omega
  obtain ⟨w', hcore', hrest⟩ := (h.receive (x := (i, e)) hmore (Function.update v.held s rest)).settle
  exact ⟨w', { hcore' with }, hrest⟩

theorem Sound.receive (h : Sound o v) {s : Stream} {i : Nat} {e : Event} {rest : List (Nat × Event)}
    (hheld : v.held s = (i, e) :: rest) :
    Sound o { v with
      live := v.live.acknowledge s
      held := Function.update v.held s rest
      got := Function.update v.got s (v.got s ++ [(i, e)]) } := by
  cases h with
  | gone hgone hquiet hput hlanes => exact .gone hgone hquiet hput (hlanes.received hheld)
  | standing w hthere hcore hin hlanes hclosers =>
    obtain ⟨w', hcore', hfront, hpast, hline, hle, hready⟩ := hcore.received hin hlanes hheld
    have hready' := hready.imp And.left And.right
    exact .standing w' hthere hcore' (hin.congr rfl rfl hfront hpast hline hle hready') (hlanes.received hheld)
      (hclosers.congr rfl id rfl hle hready')

/-- What is ready for the cursor is with somebody who closes the queue. -/
theorem Sound.takeReady (h : Sound o v) (hquiet : v.Quiet) (delete : Bool) :
    Sound o { v with
      live := v.live.takeReady
      closers := v.live.queue.ledger.ready.toList.map (delete, ·) ++ v.closers } := by
  cases h with
  | gone hgone _ hput hlanes => exact .gone hgone hquiet hput { hlanes with }
  | standing w hthere hcore hin hlanes hclosers =>
    rw [hquiet.2] at hin
    refine .standing w hthere { hcore with ready := fun _ h => by cases h } ?_ { hlanes with }
      ⟨fun _ => hquiet, fun x hx => ?_⟩
    · rw [show v.live.takeReady.queue.phase = .stopped from hquiet.2]
      exact hin
    · rcases List.mem_append.1 hx with hnew | hold
      · obtain ⟨stop, hstop, rfl⟩ := List.mem_map.1 hnew
        obtain ⟨i, hi, rfl⟩ := hcore.ready stop (Option.mem_toList.1 hstop)
        refine ⟨i, hi, ?_, fun hne => absurd rfl hne⟩
        have hmin := hcore.journal.min_mark i
        rw [hcore.mark_front hi] at hmin
        exact hmin
      · obtain ⟨i, hi, hmark, -⟩ := hclosers.taken x hold
        exact ⟨i, hi, hmark, fun hne => absurd rfl hne⟩

/-- Somebody who closes the queue commits what has been taken, or tries to. -/
theorem Sound.endClose (h : Sound o v) {x : Bool × Nat} (hx : x ∈ v.closers) {j : Journal} {d : Disk}
    (hmoves : ∀ w i, Standing o v w → i ≤ w.front.length → min x.2 v.live.queue.journal.len = mark w.front i →
      (v.live.queue.ledger.ready ≠ none → i < w.front.length) →
      ∃ w', Standing o { v with live := ⟨{ v.live.queue with journal := j }, d⟩ } w' ∧
        w'.opens = w.opens ∧ w'.past = w.past ∧
        (w'.front = w.front ∧ w'.lines = w.lines ∨ w'.lines = [] ∧ v.live.queue.ledger.ready = none)) :
    Sound o { v with live := ⟨{ v.live.queue with journal := j }, d⟩, closers := v.closers.erase x } := by
  cases h with
  | gone hgone hquiet hput hlanes => exact .gone hgone hquiet hput { hlanes with }
  | standing w hthere hcore hin hlanes hclosers =>
    have hquiet := hclosers.quiet (List.ne_nil_of_mem hx)
    obtain ⟨i, hi, hmark, hlt⟩ := hclosers.taken x hx
    obtain ⟨w', hcore', hopens, hpast, hlines⟩ := hmoves w i hcore hi hmark hlt
    refine .standing w' hthere { hcore' with } ?_ { hlanes with } ⟨fun _ => hquiet, fun y hy => ?_⟩
    · rw [hquiet.2] at hin
      rw [show ({ v.live.queue with journal := j } : Queue).phase = .stopped from hquiet.2]
      exact fun s => by rw [hpast, hopens]; exact hin s
    · obtain ⟨k, hk, hmark', hlt'⟩ := hclosers.taken y (List.mem_of_mem_erase hy)
      have hlen := hcore'.journal.len
      rcases hlines with ⟨hfront, hlines⟩ | ⟨hnil, hnone⟩
      · rw [hlines, ← hcore.journal.len] at hlen
        rw [hlen, hfront]
        exact ⟨k, hk, hmark', hlt'⟩
      · -- the log is empty, and what the others have taken is behind its end
        rw [hnil] at hlen
        rw [hlen]
        exact ⟨0, Nat.zero_le _, by rw [mark_zero]; exact Nat.min_zero _, fun hne => absurd hnone hne⟩

theorem Sound.finish (h : Sound o v) {stop : Nat} (hmem : (false, stop) ∈ v.closers) :
    Sound o { v with
      live := (v.live.endClose false (some stop)).1
      closers := v.closers.erase (false, stop) } := by
  rcases hcommit : v.live.queue.journal.commit stop v.live.disk with ⟨j, d, fault⟩
  have hend : v.live.endClose false (some stop) = (⟨{ v.live.queue with journal := j }, d⟩, .ok ()) := by
    rw [Live.endClose, if_neg Bool.false_ne_true]
    simp only [hcommit]
  rw [hend]
  refine h.endClose hmem fun w i hcore hi hmark hlt => ?_
  have hmin := v.live.queue.journal.commit_min stop v.live.disk
  rw [show min stop v.live.queue.journal.len = mark w.front i from hmark, hcommit] at hmin
  obtain ⟨w', hcore', hopens, hpast, hlines, -⟩ := hcore.commit hi hlt hmin
  exact ⟨w', hcore', hopens, hpast, hlines.imp_right And.right⟩

theorem Sound.finishFailing (h : Sound o v) {stop : Nat} (hmem : (false, stop) ∈ v.closers) (n k : Nat) :
    Sound o { v with
      live := v.live.endCloseFailing n k stop
      closers := v.closers.erase (false, stop) } := by
  rcases hcommit : v.live.queue.journal.commitFailing n k stop v.live.disk with ⟨j, d⟩
  rw [Live.endCloseFailing, hcommit]
  refine h.endClose hmem fun w i hcore hi hmark hlt => ?_
  have hmin := Journal.commitFailing_min n k v.live.queue.journal stop v.live.disk
  rw [show min stop v.live.queue.journal.len = mark w.front i from hmark, hcommit] at hmin
  obtain ⟨w', hcore', hopens, hpast, hfront, hlines, -⟩ := hcore.commitFailing hi n k hmin
  exact ⟨w', hcore', hopens, hpast, .inl ⟨hfront, hlines⟩⟩

/-- Removing the folder leaves the queue as it is. -/
theorem removeFolder_queue (l : Live) : l.removeFolder.1.queue = l.queue := by
  unfold Live.removeFolder
  split
  · split <;> rfl
  · rfl
  · rfl
  · rfl

theorem Sound.remove (h : Sound o v) (hquiet : v.Quiet) :
    Sound o { v with live := v.live.removeFolder.1, gone := true } := by
  have hqueue := removeFolder_queue v.live
  have hlanes := h.lanes
  have hquiet' : Service.Quiet { v with live := v.live.removeFolder.1, gone := true } := by
    rw [Quiet, hqueue]
    exact hquiet
  refine .gone rfl hquiet' h.handed ⟨hlanes.taken, fun hl s => ?_, fun hl s => ?_⟩
  · rw [hqueue] at hl ⊢
    exact hlanes.lane hl s
  · rw [hqueue] at hl ⊢
    exact hlanes.deaf hl s

/-- Every step keeps what holds at all times. -/
theorem Sound.step (h : Sound o v) {a : Happening} {v' : Service} (hstep : Step v a v') : Sound o v' := by
  cases hstep with
  | accepted _ happ => exact h.accept happ
  | untold _ happ => exact h.store happ (.inr rfl)
  | turnedAway _ => exact h
  | refused happ => exact h.refuse happ
  | refusedPartly n k hvalid hopen => exact h.refusePartly hvalid hopen
  | notified =>
    cases h with
    | gone hgone hquiet hput hlanes => exact .gone hgone hquiet hput { hlanes with }
    | standing w hthere hcore hin hlanes hclosers =>
      exact .standing w hthere { hcore with } (hin.same rfl rfl rfl _ _ _) { hlanes with }
        (hclosers.congr rfl id rfl List.prefix_rfl (.inl rfl))
  | pumped hstep => exact h.pump hstep
  | pumpedFailing n k hphase => exact h.pumpFailing hphase n k
  | waited => exact h.wait
  | took ht => exact h.take ht
  | received hheld => exact h.receive hheld
  | deafened =>
    have hdeaf : ∀ s, v.live.deafen.queue.lane s = [] := by
      intro s
      cases s with
      | keys => rfl
      | power => rfl
    have hlanes : Lanes { v with live := v.live.deafen } :=
      ⟨h.lanes.taken, fun hl => Bool.noConfusion hl, fun _ => hdeaf⟩
    cases h with
    | gone hgone hquiet hput _ => exact .gone hgone hquiet hput hlanes
    | standing w hthere hcore hin _ hclosers =>
      exact .standing w hthere { hcore with } (hin.same rfl rfl rfl _ _ _) hlanes
        (hclosers.congr rfl id rfl List.prefix_rfl (.inl rfl))
  | closing =>
    cases h with
    | gone hgone hquiet hput hlanes => exact .gone hgone ⟨rfl, hquiet.2⟩ hput { hlanes with }
    | standing w hthere hcore hin hlanes hclosers =>
      exact .standing w hthere { hcore with } (hin.same rfl rfl rfl _ _ _) { hlanes with }
        (hclosers.congr rfl (fun hquiet => ⟨rfl, hquiet.2⟩) rfl List.prefix_rfl (.inl rfl))
  | takes delete hquiet => exact h.takeReady hquiet delete
  | closed hmem => exact h.finish hmem
  | closedFailing n k hmem => exact h.finishFailing hmem n k
  | removed hquiet => exact h.remove hquiet

/-! ### Runs -/

/-- A queue that has been opened works on a journal that has been opened. -/
theorem exists_journal {path : String} {capacity : Nat} {place place' : Place} {q : Queue}
    (h : Queue.open? path capacity place = (place', .ok q)) :
    ∃ j, Journal.open place = (place', .ok j) ∧ q = .ofJournal j capacity := by
  unfold Queue.open? at h
  split at h
  next j hopen =>
    simp only [Prod.mk.injEq] at h
    obtain ⟨rfl, h⟩ := h
    split at h
    · cases h
      exact ⟨j, hopen, rfl⟩
    · cases h
  next => cases h
  next => cases h

/-- Opening a queue keeps the folder as it is, up to the torn end of its log, whether it succeeds or not. -/
theorem place_open {place place' : Place} {f : Folder} {log : Bytes} {c : Cursor} (h : place.Finds f log c)
    {path : String} {capacity : Nat} {result : Except Failure Queue}
    (hopen : Queue.open? path capacity place = (place', result)) :
    place' = .folder { f with log := some (.file (complete log)) } := by
  rw [Queue.open?, h.open_eq] at hopen
  generalize Journal.ofLog _ _ = opened at hopen
  rcases opened with (cause | _) | j
  · exact (congrArg Prod.fst hopen).symm
  · exact (congrArg Prod.fst hopen).symm
  · exact (congrArg Prod.fst hopen).symm

/-- The lines in front of a cursor that opening refuses are none. -/
theorem Origin.before_found {f : Folder} {log : Bytes} {c : Cursor} (h : (Origin.found f log c).refused) :
    (Origin.found f log c).before = [] := by
  obtain ⟨k, -, hstart, hmark | ⟨rfl, -⟩⟩ := Journal.exists_startOffset log c
  · exact absurd (hstart.trans hmark.symm) h
  · simp only [found, hstart, mark_zero, List.take_zero]
    rfl

section Start

variable {place place' : Place} {f : Folder} {log : Bytes} {c : Cursor} (h : place.Finds f log c)
  {path : String} {capacity : Nat} {q : Queue} (hopen : Queue.open? path capacity place = (place', .ok q))

include h hopen

/-- What is to be handed out after opening are the lines from the start offset on. -/
theorem lines_start :
    (start ⟨q, ⟨place', none⟩⟩).lines = Lines.lines (log.drop (Journal.startOffset log c)) := by
  obtain ⟨j, hopened, rfl⟩ := exists_journal hopen
  obtain ⟨-, i, hj, -, hstart, -⟩ := h.opened hopened
  have hd := h.stands hopened
  rw [← lines_complete] at hj
  rw [hstart, lines_drop_mark, ← lines_complete]
  exact hj.handOut hd

/-- A queue that has just been opened has read none of the lines that it is to hand out. -/
theorem sound_start : Sound (.found f log c) (start ⟨q, ⟨place', none⟩⟩) := by
  have hlines := lines_start h hopen
  obtain ⟨j, hopened, rfl⟩ := exists_journal hopen
  obtain ⟨-, i, hj, -, hstart, hc⟩ := h.opened hopened
  have hd := h.stands hopened
  have hi := hj.le
  rw [hstart, lines_drop_mark] at hlines
  have hwhole : (Lines.lines log).take i ++ ([] ++ (Lines.lines log).drop i) = Lines.lines log := by
    rw [List.nil_append, List.take_append_drop]
  refine .standing
    { head := f.head
      front := (Lines.lines log).take i
      opens := []
      unread := (Lines.lines log).drop i
      extra := []
      past := []
      owed := fun _ => 0
      line := i } rfl
    { disk := ?_
      unbroken := ?_
      extra := .nil _
      journal := ?_
      whole := hlines
      count := rfl
      front := ?_
      slots := rfl
      owed := fun _ => Nat.le_refl _
      got := fun _ => rfl
      ready := fun stop hstop => by cases hstop
      cursor := ⟨c, h.cursor, ?_⟩ }
    ⟨fun _ => rfl, ?_⟩ ⟨fun _ => List.prefix_rfl, fun _ s => ?_, fun hl => by cases hl⟩ (.of_nil rfl)
  · rw [View.log, View.lines, hwhole, List.append_nil, ← complete_eq]
    exact hd
  · rw [View.lines, hwhole]
    exact unbroken_lines log
  · rw [View.lines, hwhole]
    exact hj
  · simp only [Origin.found, hstart, lines_take_mark, List.append_nil, List.suffix_refl]
  · rcases hc with hmark | ⟨rfl, hnone⟩
    · refine .inl ⟨i, ?_, ?_⟩
      · rw [List.length_take]
        exact Nat.le_min.2 ⟨Nat.le_refl _, hi⟩
      · rw [hmark, mark, mark, List.take_take, Nat.min_self]
    · refine .inr ⟨fun heq => hnone 0 (by rw [← heq, hstart]), rfl, ?_, rfl⟩
      simp only [Origin.found, hstart, lines_take_mark, List.take_zero]
  · simp only [List.append_nil, List.length_take]
    exact (Nat.min_eq_left hi).symm
  · cases s with
    | keys => rfl
    | power => rfl

end Start

/-- What holds at all times holds in every run. -/
theorem Reaches.sound {v₀ : Service} (h : Reaches v₀ v) (h₀ : Sound o v₀) : Sound o v := by
  induction h with
  | refl => exact h₀
  | step _ hstep ih => exact ih.step hstep

/-! ### What has been received and what comes next -/

/-- What has been received are the first events of its stream. -/
theorem Sound.got_prefix (h : Sound o v) (s : Stream) : (v.got s).map Prod.snd <+: events s v.lines := by
  have htaken := (List.prefix_append (v.got s) (v.held s)).trans (h.lanes.taken s)
  rw [← items_map_snd s 0]
  exact (htaken.trans (h.handed s)).map _

/-- Everything in lines that are no longer in the ledger has been received. -/
theorem Standing.items_past_prefix (hcore : Standing o v w) (hin : w.InPhase v v.live.queue.phase)
    (hlanes : Lanes v) (s : Stream) : items s 0 w.past <+: v.got s := by
  have hgot := (List.prefix_append (v.got s) (v.held s)).trans ((hlanes.taken s).trans (hin.put s))
  have hpast : items s 0 w.past <+: items s 0 (w.past ++ w.opens) := by
    rw [items_append]
    exact List.prefix_append _ _
  refine List.prefix_of_prefix_length_le hpast hgot ?_
  rw [length_items, hcore.got s]
  exact Nat.le_add_right _ _

/-- A cursor in front of the ledger is where the next queue starts. -/
theorem Standing.lines_next (h : Standing o v w) {c : Cursor} {i : Nat} (hi : i ≤ w.front.length)
    (hc : c.offset = mark w.front i) :
    Journal.startOffset w.log c = c.offset ∧ Lines.lines (w.log.take c.offset) = w.front.take i ∧
      Lines.lines (w.log.drop c.offset) = w.front.drop i ++ (w.opens ++ w.unread) ++ v.left := by
  rw [← h.mark_front hi, ← mark_append_left (h.le_lines hi) v.left, ← h.lines_log] at hc
  have hle : i ≤ (Lines.lines w.log).length := by
    rw [h.lines_log, List.length_append]
    exact (h.le_lines hi).trans (Nat.le_add_right _ _)
  refine ⟨(Journal.startOffset_eq_iff w.log c).2 ⟨i, hle, hc⟩, ?_, ?_⟩
  · rw [hc, lines_take_mark, h.lines_log, List.take_append_of_le_length (h.le_lines hi), View.lines,
      List.take_append_of_le_length hi]
  · rw [hc, lines_drop_mark, h.lines_log, List.drop_append_of_le_length (h.le_lines hi), View.lines,
      List.drop_append_of_le_length hi]

end Service
end CecRelay
