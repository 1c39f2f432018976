import CecRelay.Proofs.Queue.Running

/-!
# Closing

Once closing has begun the pump hands out nothing more (`Service.Reaches.cancelled`), and after a few
steps it stops (`Live.ended_awaitPump`). What is in the lanes by then can still be taken, in order
(`Service.Lanes.take?`).
-/

namespace CecRelay

open Lines

/-- How many steps the pump takes at most when it is to stop. -/
def Phase.remaining : Phase → Nat
  | .stopped => 0
  | .top | .handing _ _ | .idle => 1
  | .moving _ => 2
  | .reading => 3
  | .committing _ => 4

namespace Live

variable {l : Live}

/-- The pump does not touch the flags. -/
theorem step?_flags {l' : Live} (h : l.step? = some l') : l'.queue.cancelled = l.queue.cancelled ∧
    l'.queue.closed = l.queue.closed ∧ l'.queue.listening = l.queue.listening := by
  unfold step? at h
  simp only at h
  split at h
  · split at h
    · cases h
      exact ⟨rfl, rfl, rfl⟩
    · split at h
      · cases h
        exact ⟨rfl, rfl, rfl⟩
      · cases h
        exact ⟨rfl, rfl, rfl⟩
  · cases h
    exact ⟨rfl, rfl, rfl⟩
  · split at h
    · cases h
      exact ⟨rfl, rfl, rfl⟩
    · split at h
      · cases h
        exact ⟨rfl, rfl, rfl⟩
      · cases h
        exact ⟨rfl, rfl, rfl⟩
  next e stop _ =>
    obtain ⟨⟨keys, power, heq⟩, -, -⟩ := l.queue.push_eq e
    split at h
    · cases h
      exact ⟨rfl, rfl, rfl⟩
    · split at h
      · cases h
        rw [heq]
        exact ⟨rfl, rfl, rfl⟩
      · cases h
  · cases h
    exact ⟨rfl, rfl, rfl⟩
  · split at h
    · cases h
      exact ⟨rfl, rfl, rfl⟩
    · split at h
      · cases h
        exact ⟨rfl, rfl, rfl⟩
      · cases h
  · cases h

theorem steps_flags (n : Nat) (l : Live) : (steps n l).queue.cancelled = l.queue.cancelled ∧
    (steps n l).queue.closed = l.queue.closed ∧ (steps n l).queue.listening = l.queue.listening := by
  induction n generalizing l with
  | zero => exact ⟨rfl, rfl, rfl⟩
  | succ n ih =>
    cases hstep : l.step? with
    | none =>
      rw [steps, hstep]
      exact ⟨rfl, rfl, rfl⟩
    | some l' =>
      obtain ⟨hcancelled, hclosed, hlistening⟩ := step?_flags hstep
      obtain ⟨hcancelled', hclosed', hlistening'⟩ := ih l'
      rw [steps, hstep]
      exact ⟨hcancelled'.trans hcancelled, hclosed'.trans hclosed, hlistening'.trans hlistening⟩

/-- A pump that is to stop takes a step, and then it has fewer of them before it. -/
theorem exists_step (hc : l.queue.cancelled = true) (hp : l.queue.phase ≠ .stopped) :
    ∃ l', l.step? = some l' ∧ l'.queue.phase.remaining < l.queue.phase.remaining := by
  cases hphase : l.queue.phase with
  | top =>
    rw [step?, hphase]
    exact ⟨_, if_pos hc, Nat.lt_succ_self 0⟩
  | committing stop =>
    rw [step?, hphase]
    exact ⟨_, rfl, Nat.lt_succ_self 3⟩
  | reading =>
    rw [step?, hphase]
    simp only
    split
    · exact ⟨_, rfl, by simp [Phase.remaining]⟩
    · split
      · exact ⟨_, rfl, by simp [Phase.remaining]⟩
      · exact ⟨_, rfl, by simp [Phase.remaining]⟩
  | handing e stop =>
    have hstop : (l.queue.cancelled || !l.queue.listening) = true := by rw [hc, Bool.true_or]
    rw [step?, hphase]
    exact ⟨_, if_pos hstop, Nat.lt_succ_self 0⟩
  | moving stop =>
    rw [step?, hphase]
    exact ⟨_, rfl, Nat.lt_succ_self 1⟩
  | idle =>
    rw [step?, hphase]
    exact ⟨_, if_pos hc, Nat.lt_succ_self 0⟩
  | stopped => exact absurd hphase hp

/-- A pump that is to stop has stopped after that many steps. -/
theorem ended_steps (hc : l.queue.cancelled = true) {n : Nat} (hn : l.queue.phase.remaining ≤ n) :
    (steps n l).ended = true := by
  induction n generalizing l with
  | zero =>
    rw [steps, ended, decide_eq_true_iff]
    cases hphase : l.queue.phase with
    | stopped => rfl
    | _ => rw [hphase] at hn; exact absurd hn (by simp [Phase.remaining])
  | succ n ih =>
    by_cases hp : l.queue.phase = .stopped
    · have hnone : l.step? = none := by rw [step?, hp]
      rw [steps, hnone, ended, decide_eq_true_iff]
      exact hp
    · obtain ⟨l', hstep, hless⟩ := exists_step hc hp
      rw [steps, hstep]
      exact ih ((step?_flags hstep).1.trans hc) (by omega)

/-- Waiting for the pump after closing has begun is waiting for its end. -/
theorem ended_awaitPump (hc : l.queue.cancelled = true) : l.awaitPump.ended = true := by
  refine ended_steps hc ?_
  cases l.queue.phase with
  | _ => simp [Phase.remaining]

/-- While nothing is ready the end of closing does nothing. -/
theorem finishClose_of_ready (h : l.queue.ledger.ready = none) : (l.finishClose false).1 = l := by
  rw [finishClose, h]
  show l.takeReady = l
  rw [takeReady, Ledger.takeReady, ← h]

/-- What is taken is the first in the lane. -/
theorem take?_fst (l : Live) (s : Stream) : (l.take? s).map Prod.fst = (l.queue.lane s).head? := by
  cases s with
  | keys =>
    cases hkeys : l.queue.keys with
    | nil => simp [take?, takeKey?, Queue.lane, hkeys]
    | cons k keys => simp [take?, takeKey?, Queue.lane, hkeys]
  | power =>
    cases hpower : l.queue.power with
    | nil => simp [take?, takePower?, Queue.lane, hpower]
    | cons p power => simp [take?, takePower?, Queue.lane, hpower]

end Live

namespace Service

variable {v v' : Service}

/-- Taking from a lane takes what was put there first of what has not been taken. -/
theorem Lanes.take? (h : Lanes v) (hl : v.live.queue.listening = true) (s : Stream) :
    (v.live.take? s).map Prod.fst =
      ((v.handed s).drop (v.got s ++ v.held s).length).head?.map Prod.snd := by
  rw [Live.take?_fst, ← h.lane hl s, List.head?_map]

/-- Appending changes the journal of the queue. -/
theorem append_queue (l : Live) (now : Time.Stamp) (e : Event) :
    ∃ j, (l.append now e).1.queue = { l.queue with journal := j } := by
  unfold Live.append
  split
  · exact ⟨l.queue.journal, rfl⟩
  · exact ⟨_, rfl⟩

/-- The end of closing changes the journal of the queue, and numbers nothing. -/
theorem endClose_queue (l : Live) (delete : Bool) (ready : Option Nat) :
    ∃ j, (l.endClose delete ready).1.queue = { l.queue with journal := j } ∧ j.nextSeq = l.queue.journal.nextSeq := by
  unfold Live.endClose
  split
  · exact ⟨l.queue.journal, removeFolder_queue l, rfl⟩
  · split
    · exact ⟨l.queue.journal, rfl, rfl⟩
    next stop => exact ⟨_, rfl, Journal.nextSeq_commit l.queue.journal stop l.disk⟩

/-- Once closing has begun nothing is put into the lanes any more, and a pump that has stopped stays so. -/
theorem Step.cancelled {a : Happening} (h : Step v a v') (hc : v.live.queue.cancelled = true) :
    v'.live.queue.cancelled = true ∧ v'.handed = v.handed ∧
      (v.live.queue.phase = .stopped → v'.live.queue.phase = .stopped) := by
  cases h with
  | @accepted _ now e _ _ happ | @untold _ now e _ happ | @refused _ now e _ happ =>
    obtain ⟨j, heq⟩ := append_queue v.live now e
    rw [happ] at heq
    exact ⟨(congrArg Queue.cancelled heq).trans hc, rfl, fun hp => (congrArg Queue.phase heq).trans hp⟩
  | @pumped l hstep =>
    have hlive := (pumped_same v l).1
    have hgoes : v.live.queue.phase ≠ .stopped := by
      intro hp
      rw [Live.step?, hp] at hstep
      cases hstep
    refine ⟨by rw [hlive]; exact (Live.step?_flags hstep).1.trans hc, ?_, fun hp => absurd hp hgoes⟩
    unfold Service.pumped
    split
    · rfl
    next e stop hphase =>
      -- the event in hand is kept back
      have hstop : (v.live.queue.cancelled || !v.live.queue.listening) = true := by rw [hc, Bool.true_or]
      rw [Live.step?, hphase] at hstep
      simp only [hstop, if_true, Option.some.injEq] at hstep
      subst hstep
      rfl
    · rfl
  | pumpedFailing n k hphase =>
    refine ⟨hc, rfl, fun hp => ?_⟩
    rw [hp] at hphase
    cases hphase
  | waited =>
    refine ⟨?_, rfl, fun hp => ?_⟩
    · obtain ⟨phase, heq⟩ := v.live.tick_eq
      rw [heq]
      exact hc
    · rw [Live.tick, hp]
      exact hp
  | took ht =>
    obtain ⟨⟨keys, power, rfl⟩, -, -⟩ := Live.take?_eq ht
    exact ⟨hc, rfl, id⟩
  | @closed stop _ =>
    obtain ⟨j, heq, -⟩ := endClose_queue v.live false (some stop)
    exact ⟨(congrArg Queue.cancelled heq).trans hc, rfl, fun hp => (congrArg Queue.phase heq).trans hp⟩
  | removed _ =>
    have hqueue := removeFolder_queue v.live
    exact ⟨(congrArg Queue.cancelled hqueue).trans hc, rfl, fun hp => (congrArg Queue.phase hqueue).trans hp⟩
  | closing => exact ⟨rfl, rfl, id⟩
  | _ => exact ⟨hc, rfl, id⟩

theorem Reaches.cancelled (h : Reaches v v') (hc : v.live.queue.cancelled = true) :
    v'.live.queue.cancelled = true ∧ v'.handed = v.handed ∧
      (v.live.queue.phase = .stopped → v'.live.queue.phase = .stopped) := by
  induction h with
  | refl => exact ⟨hc, rfl, id⟩
  | step _ hstep ih =>
    obtain ⟨hc', hsame, hstopped⟩ := hstep.cancelled ih.1
    exact ⟨hc', hsame.trans ih.2.1, fun hp => hstopped (ih.2.2 hp)⟩

/-- The pump leaves those who close the queue alone. -/
theorem pumped_closers (v : Service) (l : Live) : (v.pumped l).closers = v.closers := by
  unfold pumped
  split
  · rfl
  · split
    · rfl
    · rfl
  · rfl

/-- What a step does to those who close the queue: somebody takes what is ready, or has done with an offset. -/
theorem Step.closers_cases {a : Happening} (h : Step v a v') :
    v'.closers = v.closers ∨
    (v.Quiet ∧ ∃ delete, v' = { v with
      live := v.live.takeReady
      closers := v.live.queue.ledger.ready.toList.map (delete, ·) ++ v.closers }) ∨
    ∃ stop j d, (false, stop) ∈ v.closers ∧ v' = { v with
      live := ⟨{ v.live.queue with journal := j }, d⟩
      closers := v.closers.erase (false, stop) } := by
  cases h with
  | pumped _ => exact .inl (pumped_closers _ _)
  | takes delete hquiet => exact .inr (.inl ⟨hquiet, delete, rfl⟩)
  | closed hmem => exact .inr (.inr ⟨_, _, _, hmem, rfl⟩)
  | closedFailing n k hmem => exact .inr (.inr ⟨_, _, _, hmem, rfl⟩)
  | _ => exact .inl rfl

/-- While nothing is ready there is nothing to take. -/
theorem Step.nobody {a : Happening} (h : Step v a v') (hready : v.live.queue.ledger.ready = none)
    (hnobody : v.closers = []) : v'.closers = [] := by
  rcases h.closers_cases with hsame | ⟨-, delete, rfl⟩ | ⟨stop, j, d, hmem, -⟩
  · exact hsame.trans hnobody
  · show v.live.queue.ledger.ready.toList.map (delete, ·) ++ v.closers = []
    rw [hready, hnobody]
    rfl
  · rw [hnobody] at hmem
    cases hmem

/-- A queue that is closed and whose pump has stopped stays so. -/
theorem Step.quiet {a : Happening} (h : Step v a v') (hquiet : v.Quiet) : v'.Quiet := by
  cases h with
  | @accepted _ now e _ _ happ | @untold _ now e _ happ | @refused _ now e _ happ =>
    obtain ⟨j, heq⟩ := append_queue v.live now e
    rw [happ] at heq
    exact ⟨(congrArg Queue.closed heq).trans hquiet.1, (congrArg Queue.phase heq).trans hquiet.2⟩
  | pumped hpump =>
    rw [Live.step?, hquiet.2] at hpump
    cases hpump
  | pumpedFailing n k hphase =>
    rw [hquiet.2] at hphase
    cases hphase
  | waited =>
    have htick : v.live.tick = v.live := by rw [Live.tick, hquiet.2]
    rw [htick]
    exact hquiet
  | took ht =>
    obtain ⟨⟨keys, power, rfl⟩, -, -⟩ := Live.take?_eq ht
    exact hquiet
  | @closed stop _ =>
    obtain ⟨j, heq, -⟩ := endClose_queue v.live false (some stop)
    exact ⟨(congrArg Queue.closed heq).trans hquiet.1, (congrArg Queue.phase heq).trans hquiet.2⟩
  | removed _ =>
    have heq := removeFolder_queue v.live
    exact ⟨(congrArg Queue.closed heq).trans hquiet.1, (congrArg Queue.phase heq).trans hquiet.2⟩
  | closing => exact ⟨rfl, hquiet.2⟩
  | _ => exact hquiet

theorem Reaches.trans {v₀ : Service} (h : Reaches v₀ v) (h' : Reaches v v') : Reaches v₀ v' := by
  induction h' with
  | refl => exact h
  | step _ hstep ih => exact .step ih hstep

/-- The pump takes its steps one after the other. -/
theorem exists_reaches_steps (v : Service) (n : Nat) :
    ∃ v', Reaches v v' ∧ v'.live = Live.steps n v.live ∧ v'.got = v.got ∧ v'.held = v.held ∧ v'.gone = v.gone := by
  induction n generalizing v with
  | zero => exact ⟨v, .refl, rfl, rfl, rfl, rfl⟩
  | succ n ih =>
    cases hstep : v.live.step? with
    | none => exact ⟨v, .refl, by rw [Live.steps, hstep], rfl, rfl, rfl⟩
    | some l =>
      obtain ⟨v', hv', hlive, hgot, hheld, hgone⟩ := ih (v.pumped l)
      obtain ⟨hl, hgot', hheld', hgone', -⟩ := pumped_same v l
      refine ⟨v', .trans (.step .refl (.pumped hstep)) hv', ?_, hgot.trans hgot', hheld.trans hheld',
        hgone.trans hgone'⟩
      rw [hlive, hl, Live.steps, hstep]

/-- Once the pump has stopped the closing ends in a run in which the log is kept: what is ready is taken, and the cursor
moved. -/
theorem reaches_finishClose_false (hquiet : v.Quiet) : Reaches v { v with live := (v.live.finishClose false).1 } := by
  have htaken := Reaches.refl.step (Step.takes false hquiet)
  cases hready : v.live.queue.ledger.ready with
  | none =>
    rw [hready] at htaken
    rw [Live.finishClose, hready]
    exact htaken
  | some stop =>
    rw [hready] at htaken
    have hclosed := htaken.step (.closed List.mem_cons_self)
    rw [Live.finishClose, hready]
    simpa using hclosed

/-- Once the pump has stopped the closing ends in a run: what is ready is taken, and the folder is removed or the
cursor moved. -/
theorem exists_reaches_finishClose (hquiet : v.Quiet) (delete : Bool) :
    ∃ v', Reaches v v' ∧ v'.live = (v.live.finishClose delete).1 ∧ v'.got = v.got ∧ v'.held = v.held := by
  cases delete with
  | true => exact ⟨_, .step (.step .refl (.takes true hquiet)) (.removed hquiet), rfl, rfl, rfl⟩
  | false => exact ⟨_, reaches_finishClose_false hquiet, rfl, rfl, rfl⟩

/-- Closing is a run: closing begins, the pump stops, and closing ends. Nothing is put into the lanes and
nothing received in it. -/
theorem exists_reaches_close (v : Service) (delete : Bool) :
    ∃ v', Reaches v v' ∧ v'.live = (v.live.close delete).1 ∧ v'.live.queue.cancelled = true ∧
      v'.live.ended = true ∧ v'.handed = v.handed ∧ v'.got = v.got ∧ v'.held = v.held := by
  obtain ⟨v', hrun, hlive, hgot, hheld, -⟩ := exists_reaches_steps { v with live := v.live.beginClose } 5
  have hended : v'.live.ended = true := by
    rw [hlive]
    exact Live.ended_awaitPump rfl
  have hstopped : v'.live.queue.phase = .stopped := by rwa [Live.ended, decide_eq_true_iff] at hended
  have hquiet : v'.Quiet := ⟨by rw [hlive, (Live.steps_flags 5 _).2.1]; rfl, hstopped⟩
  have hclosing : Reaches v { v with live := v.live.beginClose } := .step .refl .closing
  obtain ⟨hcancelled, hhanded, -⟩ := hrun.cancelled rfl
  obtain ⟨v'', hlast, hlive'', hgot'', hheld''⟩ := exists_reaches_finishClose hquiet delete
  obtain ⟨hcancelled'', hhanded'', hstopped''⟩ := hlast.cancelled hcancelled
  refine ⟨v'', (hclosing.trans hrun).trans hlast, ?_, hcancelled'', ?_, hhanded''.trans hhanded,
    hgot''.trans hgot, hheld''.trans hheld⟩
  · rw [hlive'', hlive]
    rfl
  · rw [Live.ended, decide_eq_true_iff]
    exact hstopped'' hstopped

end Service
end CecRelay
