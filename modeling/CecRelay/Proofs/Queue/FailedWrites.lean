import CecRelay.Proofs.Queue.NextQueue

/-!
# When the cursor cannot be written

The pump takes the offset that is ready out of the ledger before it writes the cursor, and puts it back if that fails.
So whatever has failed before, the offset that is ready, or being committed, or else the cursor on disk is the end of
the first lines that have been received (`Service.Exact`), and the next round of the pump in which the cursor is written
leaves the next queue exactly the lines after those.

Closing takes the offset and does not put it back. If the write fails then, or one who has taken an older offset writes
it last, the offset is forgotten (`Service.Forgotten`) until another receipt settles more lines, and closing once more
does nothing. That is the only exception (`Life.Reached.cursor_remembered`).
-/

namespace CecRelay

open Lines

namespace Service

variable {o : Origin} {v₀ v v' : Service} {w : View} {a : Happening}

/-! ### What the next queue hands out -/

/-- The next queue hands out exactly the lines after the first ones that have been received. -/
def Persisted (v₀ v : Service) : Prop := ∃ n, v.Through n ∧ Leaves v₀ v n

/-- What a run has to start with. -/
structure Fresh (o : Origin) (v₀ : Service) : Prop where
  /-- What holds at all times. -/
  sound : Sound o v₀
  /-- Opening has not refused the cursor. -/
  counts : ¬ o.refused
  /-- The ledger has settled. -/
  settled : v₀.Settled
  /-- The log is no larger than a file may be. -/
  size : v₀.live.disk.log.length ≤ maxFileSize
  /-- Nothing is left behind its lines. -/
  whole : v₀.Whole
  /-- The cursor is where reading starts. -/
  exact : v₀.Exact

/-- That is so exactly if the cursor is at the end of those lines. -/
theorem Reaches.persisted_iff (hv : Reaches v₀ v) (h₀ : Fresh o v₀) (hthere : v.gone = false) :
    Persisted v₀ v ↔ v.CursorAtEdge := by
  have hs := hv.sound h₀.sound
  have hsettled := hv.settled h₀.settled
  constructor
  · rintro ⟨n, hthrough, hleaves⟩
    obtain rfl := hthrough.unique (hs.through hsettled hthere)
    cases hs with
    | gone hgone =>
      rw [hthere] at hgone
      cases hgone
    | standing w _ hcore _ _ _ =>
      obtain ⟨c, hc, ⟨i, hi, hmark⟩ | ⟨hrefused, -⟩⟩ := hcore.cursor
      · -- no line is in front of those that are handed out
        have hend : w.front.length ≤ i := by
          obtain ⟨f, hf, -⟩ := hcore.disk.finds hc
          obtain ⟨hstart, -, hnext⟩ := hcore.lines_next hi hmark
          have hoffers := hf.offers
          rw [hstart, hnext, ← hcore.rest_eq, List.append_assoc] at hoffers
          have hnone := hoffers.unique hleaves.next
          exact List.drop_eq_nil_iff.1 (List.append_left_eq_self.1 hnone)
        refine ⟨w.log, w.head, c, hcore.disk, hc, ?_, fun hpos hnil => ?_⟩
        · rw [hcore.atEdge_iff, hmark, mark_of_length_le hend]
        · have hall : v.lines.length = v.past := by
            rw [hcore.rest_eq] at hnil
            rw [hcore.whole, hnil, List.append_nil, hcore.past_eq]
          obtain ⟨log, hd, hempty, -⟩ := hleaves.empty hpos hall
          have hlog : w.log = log := hcore.disk.log_eq.symm.trans hd.log_eq
          refine ⟨?_, hcore.disk.head_unique hd⟩
          have hlines := hcore.lines_log
          rw [hlog, hempty] at hlines
          rw [hcore.journal.len, List.append_left_eq_self.1 hlines.symm]
          rfl
      · exact absurd hrefused h₀.counts
  · intro hedge
    exact ⟨v.past, hs.through hsettled hthere, hedge.leaves hs hthere (hv.whole_or_torn h₀.sound hthere h₀.whole)⟩

/-! ### The pump puts back what it could not write -/

/-- The pump has not moved the cursor. The disk may be in any state. -/
def PutsBack (v v' : Service) (stop : Nat) : Prop :=
  ∃ j d, j.len = v.live.queue.journal.len ∧
    v' = { v with
      live := ⟨{ v.live.queue with
        journal := j
        ledger := v.live.queue.ledger.putBack stop
        phase := .reading }, d⟩ }

/-- What is ready then is the end of the first lines that have been received. -/
theorem Exact.putBack (hx : v.Exact) (h : Standing o v w) (hin : w.InPhase v v.live.queue.phase) {stop : Nat}
    (hphase : v.live.queue.phase = .committing stop) (hback : v.PutsBack v' stop) : v'.Exact := by
  obtain ⟨j, d, hlen, rfl⟩ := hback
  refine ⟨fun ready hready => ?_, fun _ hstop => (by cases hstop), fun _ hnone _ => (by cases hnone)⟩
  have hedge : v.AtEdge ready ∧ 0 < ready := by
    simp only [Ledger.putBack, Option.some.injEq] at hready
    cases hbefore : v.live.queue.ledger.ready with
    | none =>
      rw [hbefore] at hready
      subst hready
      exact hx.committing stop hphase hbefore
    | some later =>
      -- what has become ready since is not in front of what could not be written
      obtain ⟨hat, hpos⟩ := hx.ready later hbefore
      rw [hphase] at hin
      obtain ⟨-, -, i, -, rfl, -⟩ := hin
      have hle := mark_le_length w.front i
      rw [← (h.atEdge_iff later).1 hat] at hle
      rw [hbefore] at hready
      simp only [Nat.max_eq_left hle] at hready
      exact hready ▸ ⟨hat, hpos⟩
  refine ⟨?_, hedge.2⟩
  show ready + (joined v.rest).length = j.len
  rw [hlen]
  exact hedge.1

/-- The pump goes on from a commit by a commit. It has moved the cursor, or it puts the offset back. -/
theorem Step.written_or_putsBack (hstep : Step v a v') (h : Standing o v w) (hin : w.InPhase v v.live.queue.phase)
    (hclosers : Closers v w) {stop : Nat} (hphase : v.live.queue.phase = .committing stop)
    (hgoes : v'.live.queue.phase ≠ .committing stop) : Written v a v' ∨ v.PutsBack v' stop := by
  have hworks : ¬ v.Quiet := fun hquiet => by
    rw [hquiet.2] at hphase
    cases hphase
  have hnobody := hclosers.eq_nil hworks
  have hheld : ∀ {stop}, (false, stop) ∉ v.closers := fun hmem => by
    rw [hnobody] at hmem
    cases hmem
  cases hstep with
  | @accepted _ now e _ _ happ | @untold _ now e _ happ | @refused _ now e _ happ =>
    obtain ⟨j, heq⟩ := append_queue v.live now e
    rw [happ] at heq
    exact absurd ((congrArg Queue.phase heq).trans hphase) hgoes
  | @pumped l hpump =>
    have hpumped : v.pumped l = { v with live := l } := by rw [Service.pumped, hphase]
    rw [hphase] at hin
    obtain ⟨-, -, i, hi, hstop, -⟩ := hin
    obtain ⟨old, hold, -⟩ := h.cursor
    rcases hcommit : v.live.queue.journal.commit stop v.live.disk with ⟨j, d, fault⟩
    have hlive : l = ⟨{ v.live.queue with
        journal := j
        ledger := if fault.isSome then v.live.queue.ledger.putBack stop else v.live.queue.ledger
        phase := .reading }, d⟩ := by
      rw [Live.step?, hphase] at hpump
      simp only [hcommit, Option.some.injEq] at hpump
      exact hpump.symm
    rw [hpumped]
    cases fault with
    | none =>
      refine .inl ⟨fun other hother _ => ?_, fun _ hmem => absurd hmem hheld⟩
      obtain rfl : other = stop := Phase.committing.inj (hother.symm.trans hphase)
      rw [hcommit]
      exact ⟨rfl, hpump⟩
    | some fault =>
      rw [hstop, ← h.mark_front hi] at hcommit
      rcases h.journal.commit_cases h.disk hold (h.le_lines hi) with
        ⟨j', d', head', fault', heq, -, -, hj, -⟩ | ⟨j', d', heq, -⟩
      · rw [heq] at hcommit
        cases hcommit
        exact .inr ⟨j, d, hj.len.trans h.journal.len.symm, by rw [hlive]; rfl⟩
      · rw [heq] at hcommit
        cases hcommit
  | @pumpedFailing other n k hother =>
    obtain rfl : other = stop := Phase.committing.inj (hother.symm.trans hphase)
    exact .inr ⟨_, _, Journal.len_commitFailing n k _ _ _, rfl⟩
  | waited =>
    have htick : v.live.tick = v.live := by rw [Live.tick, hphase]
    refine absurd ?_ hgoes
    show v.live.tick.queue.phase = .committing stop
    rw [htick, hphase]
  | took ht =>
    obtain ⟨⟨keys, power, rfl⟩, -, -⟩ := Live.take?_eq ht
    exact absurd hphase hgoes
  | takes delete hquiet => exact absurd hquiet hworks
  | closed hmem => exact absurd hmem hheld
  | closedFailing n k hmem => exact absurd hmem hheld
  | removed hquiet => exact absurd hquiet hworks
  | _ => exact absurd hphase hgoes

/-- Whether the cursor is written or not: it stays exact unless the last who held an offset has done with it. -/
theorem Exact.step_or_ended (hx : v.Exact) (hs : Sound o v) (hsize : v.live.disk.log.length ≤ maxFileSize)
    (hstep : Step v a v') (hthere' : v'.gone = false) :
    v'.Exact ∨ v.Quiet ∧ v.closers ≠ [] ∧ v'.live.queue.ledger.ready = none ∧ v'.closers = [] := by
  have hthere := hstep.there hthere'
  by_cases hcommits : ∃ stop, v.live.queue.phase = .committing stop ∧ v'.live.queue.phase ≠ .committing stop
  · obtain ⟨stop, hphase, hgoes⟩ := hcommits
    cases hs with
    | gone hgone =>
      rw [hthere] at hgone
      cases hgone
    | standing w hw hcore hin hlanes hclosers =>
      rcases hstep.written_or_putsBack hcore hin hclosers hphase hgoes with hwritten | hback
      · refine .inl (hx.step (.standing w hw hcore hin hlanes hclosers) hsize hstep hthere' hwritten.pump
          fun hquiet => ?_)
        rw [hquiet.2] at hphase
        cases hphase
      · exact .inl (hx.putBack hcore hin hphase hback)
  · by_cases hends : v.Quiet ∧ v.closers ≠ [] ∧ v'.live.queue.ledger.ready = none ∧ v'.closers = []
    · exact .inr hends
    · exact .inl (hx.step hs hsize hstep hthere' (fun stop hphase hgoes => absurd ⟨stop, hphase, hgoes⟩ hcommits)
        fun hquiet hheld hready hnobody => absurd ⟨hquiet, hheld, hready, hnobody⟩ hends)

/-! ### Closing forgets it -/

/-- The last who held an offset has done with it, nothing has become ready since, and something else is left to the next
queue. -/
structure Drops (v₀ v v' : Service) : Prop where
  /-- Closing comes to its end. -/
  quiet : v.Quiet
  /-- It does so in a step. -/
  step : ∃ a, Step v a v'
  /-- The folder is not removed. -/
  there : v'.gone = false
  /-- An offset is held. -/
  held : v.closers ≠ []
  /-- Nothing is ready. -/
  ready : v'.live.queue.ledger.ready = none
  /-- Nobody holds anything any more. -/
  nobody : v'.closers = []
  /-- It is not where the next queue starts. -/
  lost : ¬ Persisted v₀ v'

/-- Closing has dropped what was ready, and nothing has been settled since. -/
inductive Forgotten (v₀ : Service) : Service → Prop
  /-- It has just been dropped. -/
  | dropped {v v' : Service} : Reaches v₀ v → Drops v₀ v v' → Forgotten v₀ v'
  /-- As many lines as then are no longer in the ledger. -/
  | later {v v' : Service} {a : Happening} : Forgotten v₀ v → Step v a v' → v'.gone = false → v'.past = v.past →
    Forgotten v₀ v'

theorem Unmoved.cursorAtEdge (h : v.Unmoved v') (hquiet : v.Quiet) (hedge : v'.CursorAtEdge) : v.CursorAtEdge := by
  obtain ⟨hdisk, hjournal, hlines⟩ := h.still hquiet
  have hrest : v'.rest = v.rest := by rw [rest, rest, h.past, hlines]
  rw [CursorAtEdge, h.past, hdisk, hjournal, hrest] at hedge
  obtain ⟨log, head, c, hd, hc, hat, hempty⟩ := hedge
  rw [AtEdge, hrest, hjournal] at hat
  exact ⟨log, head, c, hd, hc, hat, hempty⟩

/-- What has been dropped stays so: the pump has stopped, nothing is ready or held, and the cursor is not at the end of
the first lines that have been received. -/
theorem Forgotten.holds (h : Forgotten v₀ v) (h₀ : Fresh o v₀) :
    Reaches v₀ v ∧ v.gone = false ∧ v.Quiet ∧ v.live.queue.ledger.ready = none ∧ v.closers = [] ∧
      ¬ v.CursorAtEdge := by
  induction h with
  | @dropped u u' hu hdrops =>
    obtain ⟨a, hstep⟩ := hdrops.step
    have hu' := hu.step hstep
    exact ⟨hu', hdrops.there, hstep.quiet hdrops.quiet, hdrops.ready, hdrops.nobody,
      mt (hu'.persisted_iff h₀ hdrops.there).2 hdrops.lost⟩
  | later _ hstep hthere hpast ih =>
    obtain ⟨hv, -, hquiet, hready, hnobody, hnot⟩ := ih
    have hnobody' := hstep.nobody hready hnobody
    rcases hstep.unmoved_or_exact (hv.sound h₀.sound) hthere hready hquiet.not_committing
      (hnobody'.trans hnobody.symm) with hunmoved | ⟨hmore, -⟩
    · exact ⟨hv.step hstep, hthere, hstep.quiet hquiet, hunmoved.ready, hnobody',
        mt (hunmoved.cursorAtEdge hquiet) hnot⟩
    · exact absurd hpast hmore

/-- Whatever has failed, the cursor is exact, unless closing has dropped what was ready for it. -/
theorem Reaches.exact_or_forgotten (hv : Reaches v₀ v) (h₀ : Fresh o v₀) (hthere : v.gone = false) :
    v.Exact ∨ Forgotten v₀ v := by
  induction hv with
  | refl => exact .inl h₀.exact
  | @step u u' a hu hstep ih =>
    have hthere₁ := hstep.there hthere
    have hs := hu.sound h₀.sound
    have hu' := hu.step hstep
    rcases ih hthere₁ with hx | hforgotten
    · rcases hx.step_or_ended hs (hu.size h₀.sound hthere₁ h₀.size) hstep hthere with
        hx' | ⟨hquiet, hheld, hnone, hnobody⟩
      · exact .inl hx'
      · by_cases hedge : u'.CursorAtEdge
        · refine .inl ⟨fun stop hstop => ?_, fun stop hphase => ?_, fun _ _ _ => hedge⟩
          · rw [hnone] at hstop
            cases hstop
          · rw [(hstep.quiet hquiet).2] at hphase
            cases hphase
        · exact .inr (.dropped hu ⟨hquiet, ⟨a, hstep⟩, hthere, hheld, hnone, hnobody,
            mt (hu'.persisted_iff h₀ hthere).1 hedge⟩)
    · obtain ⟨-, -, hquiet, hready, hnobody, -⟩ := hforgotten.holds h₀
      rcases hstep.unmoved_or_exact hs hthere hready hquiet.not_committing
        ((hstep.nobody hready hnobody).trans hnobody.symm) with hunmoved | ⟨-, hx, -⟩
      · exact .inr (.later hforgotten hstep hthere hunmoved.past)
      · exact .inl hx

theorem Reaches.exact_iff (hv : Reaches v₀ v) (h₀ : Fresh o v₀) (hthere : v.gone = false) :
    v.Exact ↔ ¬ Forgotten v₀ v := by
  constructor
  · intro hx hforgotten
    obtain ⟨-, -, hquiet, hready, hnobody, hnot⟩ := hforgotten.holds h₀
    refine hnot (hx.cursor (fun stop hphase => ?_) hready hnobody)
    rw [hquiet.2] at hphase
    cases hphase
  · exact (hv.exact_or_forgotten h₀ hthere).resolve_right

/-! ### The next attempt -/

theorem Reaches.there (h : Reaches v v') (hthere : v'.gone = false) : v.gone = false := by
  induction h with
  | refl => exact hthere
  | step _ hstep ih => exact ih (hstep.there hthere)

/-- After the top of a round of the pump, in which the cursor is written and nothing is received, it is at the end of
the first lines that have been received when the pump reads the next line or waits. -/
theorem Reaches.persisted_round (hv : Reaches v₀ v) (h₀ : Fresh o v₀) (htop : v.live.queue.phase = .top)
    (hrun : Runs (fun u a u' => Written u a u' ∧ Unreceived u a u') v v') (hthere : v'.gone = false)
    (hround : v'.live.queue.phase = .reading ∨ v'.live.queue.phase = .idle) : Persisted v₀ v' := by
  have hthere₁ := hrun.reaches.there hthere
  have hx : v.Exact := (hv.exact_iff h₀ hthere₁).2 fun hforgotten => by
    obtain ⟨-, -, hquiet, -⟩ := hforgotten.holds h₀
    rw [hquiet.2] at htop
    cases htop
  have hnobody : ∀ {u}, Reaches v₀ u → u.live.queue.phase ≠ .stopped → u.closers = [] := fun hu hgoes => by
    by_contra hheld
    exact hgoes ((hu.sound h₀.sound).quiet hheld).2
  have hrun' : Runs Steady v v' := hrun.mono fun _ _ _ hp => ⟨hp.1, fun _ => hp.2⟩
  have hx' := ((hrun'.exact (hv.sound h₀.sound) (hv.size h₀.sound hthere₁ h₀.size)
    (.inr ⟨hx, .inl (hnobody hv (by simp [htop]))⟩) hthere).resolve_left fun hstale => h₀.counts hstale.refused).1
  have hready := (hrun.looks (.inr (.inl htop))).ready (by rcases hround with h | h <;> simp [h])
    (by rcases hround with h | h <;> simp [h]) (by rcases hround with h | h <;> simp [h])
  exact ((hv.trans hrun.reaches).persisted_iff h₀ hthere).2
    (hx'.cursor (by rcases hround with h | h <;> simp [h]) hready
      (hnobody (hv.trans hrun.reaches) (by rcases hround with h | h <;> simp [h])))

/-- When nobody else closes the queue, what is ready is taken and written, if it can be. -/
theorem runs_finishClose (hquiet : v.Quiet) (hnobody : v.closers = [])
    (hok : ∀ stop, v.live.queue.ledger.ready = some stop →
      (v.live.queue.journal.commit stop v.live.disk).2.2 = none) :
    Runs Steady v { v with live := (v.live.finishClose false).1 } := by
  have htaken := Runs.refl.step (P := Steady) (Step.takes false hquiet)
    ⟨.of_phase _ hquiet.not_committing hnobody, fun _ _ _ h => (by cases h)⟩
  cases hready : v.live.queue.ledger.ready with
  | none =>
    rw [hready, hnobody] at htaken
    rw [Live.finishClose, hready, hnobody]
    exact htaken
  | some stop =>
    rw [hready, hnobody] at htaken
    rw [Live.finishClose, hready, hnobody]
    have hends := htaken.step (@Step.closed _ stop List.mem_cons_self)
      ⟨⟨fun other hother => absurd hother (hquiet.not_committing other), fun other hmem _ => ?_⟩,
        fun _ _ _ h => (by cases h)⟩
    · simpa using hends
    · obtain rfl : other = stop := congrArg Prod.snd (List.mem_singleton.1 hmem)
      exact ⟨hok _ hready, rfl⟩

/-- Closing that ends, and writes the cursor if it is to be written, leaves the next queue what it should unless an
earlier closing has dropped what was ready. -/
theorem Reaches.persisted_closed (hv : Reaches v₀ v) (h₀ : Fresh o v₀) (hthere : v.gone = false) (hquiet : v.Quiet)
    (hnobody : v.closers = []) (hrun : Runs Steady v { v with live := (v.live.finishClose false).1 }) :
    Persisted v₀ { v with live := (v.live.finishClose false).1 } ↔ ¬ Forgotten v₀ v := by
  rw [(hv.trans hrun.reaches).persisted_iff h₀ hthere]
  constructor
  · intro hedge hforgotten
    obtain ⟨-, -, -, hready, -, hnot⟩ := hforgotten.holds h₀
    exact hnot (by rwa [Live.finishClose_of_ready hready] at hedge)
  · intro hnot
    have hx := (hv.exact_iff h₀ hthere).2 hnot
    have hx' := ((hrun.exact (hv.sound h₀.sound) (hv.size h₀.sound hthere h₀.size) (.inr ⟨hx, .inl hnobody⟩)
      hthere).resolve_left fun hstale => h₀.counts hstale.refused).1
    obtain ⟨j, hqueue, -⟩ := endClose_queue v.live.takeReady false v.live.queue.ledger.ready
    refine hx'.cursor (fun stop hphase => ?_) (congrArg (fun q : Queue => q.ledger.ready) hqueue) hnobody
    have hstopped := (congrArg Queue.phase hqueue).trans hquiet.2
    rw [show (v.live.takeReady.endClose false v.live.queue.ledger.ready).1.queue.phase = .committing stop from hphase]
      at hstopped
    cases hstopped

/-- A pump at the top of a round takes what is ready and writes the cursor, if it can. -/
theorem exists_round (hnobody : v.closers = []) {stop : Nat} (htop : v.live.queue.phase = .top)
    (hgoes : v.live.queue.cancelled = false) (hready : v.live.queue.ledger.ready = some stop)
    (hok : (v.live.queue.journal.commit stop v.live.disk).2.2 = none) :
    ∃ l₁ l₂, v.live.step? = some l₁ ∧ l₁.step? = some l₂ ∧ l₂.queue.phase = .reading ∧
      Runs (fun u a u' => Written u a u' ∧ Unreceived u a u') v ((v.pumped l₁).pumped l₂) := by
  have hun : ∀ {u u'}, Unreceived u .silent u' := fun i e heq => by cases heq
  rcases hcommit : v.live.queue.journal.commit stop v.live.disk with ⟨j, d, fault⟩
  rw [hcommit] at hok
  obtain rfl : fault = none := hok
  obtain ⟨l₁, hl₁⟩ : ∃ l₁ : Live, l₁ =
      { v.live with queue := { v.live.queue with ledger.ready := none, phase := .committing stop } } := ⟨_, rfl⟩
  obtain ⟨l₂, hl₂⟩ : ∃ l₂ : Live, l₂ =
      ⟨{ v.live.queue with journal := j, ledger.ready := none, phase := .reading }, d⟩ := ⟨_, rfl⟩
  have hstep₁ : v.live.step? = some l₁ := by
    simp only [Live.step?, htop, hgoes, Bool.false_eq_true, if_false, Ledger.takeReady, hready, hl₁]
  have hstep₂ : l₁.step? = some l₂ := by
    simp only [Live.step?, hl₁, hl₂, hcommit, Option.isSome_none, Bool.false_eq_true, if_false]
  refine ⟨l₁, l₂, hstep₁, hstep₂, by rw [hl₂], ?_⟩
  have hpumped : (v.pumped l₁).live = l₁ := (pumped_same v l₁).1
  have hfirst := Runs.refl.step (P := fun u a u' => Written u a u' ∧ Unreceived u a u') (.pumped hstep₁)
    ⟨.of_phase _ (by simp [htop]) hnobody, hun⟩
  refine hfirst.step (.pumped (by rw [hpumped]; exact hstep₂)) ⟨⟨fun other hother _ => ?_, fun _ hmem => ?_⟩, hun⟩
  · rw [hpumped, hl₁] at hother
    obtain rfl : stop = other := Phase.committing.inj hother
    rw [hpumped, (pumped_same _ l₂).1]
    refine ⟨?_, hstep₂⟩
    rw [hl₁]
    exact congrArg (fun x => x.2.2) hcommit
  · rw [pumped_closers, hnobody] at hmem
    cases hmem

end Service

/-- A queue that is opened on what others have left starts with that. -/
theorem Life.Reached.fresh {place place' : Place} {h : History} (hl : Life.Reached (.down place) h) {path : String}
    {capacity : Nat} {q : Queue} (hopen : Queue.open? path capacity place = (place', .ok q)) :
    ∃ o, Service.Fresh o (.start ⟨q, ⟨place', none⟩⟩) := by
  obtain ⟨-, f, log, c, i, hf, hi, hc, -⟩ := hl.holds
  have hcounts := (Journal.startOffset_eq_iff log c).2 ⟨i, hi, hc⟩
  refine ⟨_, Service.sound_start hf hopen, fun hne => hne hcounts, Service.settled_start hopen, ?_,
    Service.whole_start hf hopen, Service.exact_start hf hopen hcounts⟩
  rw [Service.start, (Service.stands_start hf hopen).log_eq]
  exact hl.small.opens hf

/-- A queue is opened on what any number of queues before it have left, and any of its attempts to write the cursor may
have failed. The offset that is ready, or being committed, or else the cursor on disk is the end of the first lines that
have been received, exactly unless those who close the queue have taken what was ready without getting it to disk, and
nothing has been settled since. So a round of the pump in which the cursor is written leaves the next queue exactly
the lines after those, and if something is ready at the top of a round and the cursor can be written, two steps of the
pump do. Closing that nobody else takes part in and that writes the cursor, if it has something to write, does so too,
exactly unless an earlier closing has dropped it. -/
theorem Life.Reached.cursor_remembered {place place' : Place} {h : History} (hl : Life.Reached (.down place) h)
    {path : String} {capacity : Nat} {q : Queue} (hopen : Queue.open? path capacity place = (place', .ok q)) :
    let v₀ := Service.start ⟨q, ⟨place', none⟩⟩
    ∀ v, Service.Reaches v₀ v → v.gone = false →
      (v.Exact ↔ ¬ Service.Forgotten v₀ v) ∧
      (v.live.queue.phase = .top → ∀ v',
        Service.Runs (fun u a u' => Service.Written u a u' ∧ Service.Unreceived u a u') v v' → v'.gone = false →
        v'.live.queue.phase = .reading ∨ v'.live.queue.phase = .idle → Service.Persisted v₀ v') ∧
      (∀ stop, v.live.queue.phase = .top → v.live.queue.cancelled = false → v.live.queue.ledger.ready = some stop →
        (v.live.queue.journal.commit stop v.live.disk).2.2 = none →
        ∃ l₁ l₂, v.live.step? = some l₁ ∧ l₁.step? = some l₂ ∧ Service.Persisted v₀ ((v.pumped l₁).pumped l₂)) ∧
      (v.Quiet → v.closers = [] →
        (∀ stop, v.live.queue.ledger.ready = some stop →
          (v.live.queue.journal.commit stop v.live.disk).2.2 = none) →
        ∀ v', v' = { v with live := (v.live.finishClose false).1 } →
          Service.Reaches v v' ∧ (Service.Persisted v₀ v' ↔ ¬ Service.Forgotten v₀ v)) := by
  obtain ⟨o, h₀⟩ := hl.fresh hopen
  intro v₀ v hv hthere
  refine ⟨hv.exact_iff h₀ hthere, fun htop v' hrun hthere' => hv.persisted_round h₀ htop hrun hthere',
    fun stop htop hgoes hready hok => ?_, ?_⟩
  · have hnobody : v.closers = [] := by
      by_contra hheld
      have hstopped := ((hv.sound h₀.sound).quiet hheld).2
      rw [htop] at hstopped
      cases hstopped
    obtain ⟨l₁, l₂, hstep₁, hstep₂, hphase, hrun⟩ := Service.exists_round hnobody htop hgoes hready hok
    have hthere' : ((v.pumped l₁).pumped l₂).gone = false := by
      rw [(Service.pumped_same _ l₂).2.2.2.1, (Service.pumped_same v l₁).2.2.2.1, hthere]
    refine ⟨l₁, l₂, hstep₁, hstep₂, hv.persisted_round h₀ htop hrun hthere' (.inl ?_)⟩
    rw [(Service.pumped_same _ l₂).1, hphase]
  · rintro hquiet hnobody hok v' rfl
    have hrun := Service.runs_finishClose hquiet hnobody hok
    exact ⟨hrun.reaches, hv.persisted_closed h₀ hthere hquiet hnobody hrun⟩

/-- A key has been received, and closing fails to write the cursor. Closing once more does nothing, and the next queue
hands out the key again. -/
theorem Life.cursor_forgotten_one_key :
    let place' : Place := .folder { log := some (.file []) }
    let q : Queue := .ofJournal ⟨{}, 0, 0, 0⟩ 1
    let v₀ := Service.start ⟨q, ⟨place', none⟩⟩
    Reached (.down .missing) {} ∧ Queue.open? "q" 1 .missing = (place', .ok q) ∧
    ∃ v, Service.Reaches v₀ v ∧ v.gone = false ∧ v.Quiet ∧ v.got .keys = [(0, .key ⟨1, 0⟩)] ∧ v.Through 1 ∧
      (v.live.finishClose false).1 = v.live ∧ v.live.disk.place.HandsOut v.lines ∧ ¬ Service.Persisted v₀ v := by
  intro place' q v₀
  have hreached : Reached (.down .missing) {} := .bare trivial
  have hopen : Queue.open? "q" 1 .missing = (place', .ok q) := rfl
  obtain ⟨⟨live, lines, count, handed, held, got, closers, gone⟩, hrun, rfl, rfl, rfl, hgot, rfl, hlines⟩ :=
    Service.exists_runs_oneKey
  have hstopped := (hrun.reaches.step .closing).step
    (.pumped (l := (Live.oneKey ⟨[], some 112⟩ [] 112 .stopped true).beginClose) rfl)
  replace hlines : lines = [Envelope.body 0 ⟨⟨2024, 1, 1⟩, 0, 0, 0, 123456789⟩ (.key ⟨1, 0⟩)] := hlines
  have htaken := hstopped.step (.takes false ⟨rfl, rfl⟩)
  let live : Live := (Live.oneKey ⟨[], none⟩ [] 112 .stopped true).beginClose
  have hfails := @Service.Step.closedFailing ⟨live, lines, 1, handed, held, got, [(false, 112)], false⟩ 112 0 0
    List.mem_cons_self
  have hfailed := htaken.step hfails
  -- the key has been received
  have hthrough : ∀ {l}, Service.Through ⟨l, lines, 1, handed, held, got, [], false⟩ 1 := by
    refine ⟨Nat.le_refl 1, fun i hi line seq e hline hdecode => ?_, fun hlt => absurd hlt (Nat.lt_irrefl 1)⟩
    obtain rfl := Nat.lt_one_iff.1 hi
    rw [hlines] at hline
    cases hline
    rw [Envelope.decode?_body _ _ (by decide)] at hdecode
    cases hdecode
    rw [show Event.stream (.key ⟨1, 0⟩) = .keys from rfl, hgot]
    exact List.mem_cons_self
  -- the log is as it was, and there is no cursor
  have hfinds : (Place.folder { log := some (.file Store.keyLine) }).Finds
      { log := some (.file Store.keyLine) } Store.keyLine {} := ⟨⟨_, rfl, rfl⟩, rfl⟩
  have hoffers := hfinds.offers_mark (Nat.zero_le _) (mark_zero _).symm
  rw [List.drop_zero, Store.lines_keyLine, ← hlines] at hoffers
  have hlast : Journal.lastSeq? lines ≠ some Journal.greatest := fun hlast => by
    obtain ⟨line, hline, hnumber⟩ := List.mem_filterMap.1 (Journal.mem_numbers_of_lastSeq? hlast)
    rw [hlines] at hline
    cases List.mem_singleton.1 hline
    exact absurd (Envelope.eq_of_number?_body hnumber) (by decide)
  have hlost : ¬ Service.Persisted v₀
      ⟨live.endCloseFailing 0 0 112, lines, 1, handed, held, got, [], false⟩ := by
    rintro ⟨n, hn, hleaves⟩
    obtain rfl := hn.unique hthrough
    have hleft : Service.left ⟨live.endCloseFailing 0 0 112, lines, 1, handed, held, got, [], false⟩ = [] := by
      show Lines.lines (Store.keyLine.drop 112) = []
      rw [← Store.mark_keyLine, lines_drop_mark, Store.lines_keyLine]
      rfl
    have hnext := hleaves.next.unique hoffers
    rw [hleft, hlines] at hnext
    cases hnext
  have hforgotten := Service.Forgotten.dropped htaken
    ⟨⟨rfl, rfl⟩, ⟨_, hfails⟩, rfl, (by intro h; cases h), rfl, rfl, hlost⟩
  have hagain := (hreached.cursor_remembered hopen _ hfailed rfl).2.2.2 ⟨rfl, rfl⟩ rfl (fun _ h => (by cases h)) _ rfl
  exact ⟨hreached, hopen, _, hfailed, rfl, ⟨rfl, rfl⟩, hgot, hthrough, rfl, hoffers.handsOut_iff.2 hlast,
    fun h => hagain.2.1 h hforgotten⟩

end CecRelay
