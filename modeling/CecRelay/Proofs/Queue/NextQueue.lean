import CecRelay.Proofs.Queue.Exact

/-!
# What the next queue hands out

A queue is opened on any folder. The cursor on disk is never behind the first lines that have been received. When
closing has kept the log, and when the pump waits and nothing has been received since it last looked what is ready,
the next queue hands out exactly the lines after those, and if there are none the log is empty
(`Place.Finds.cursor_exact`).

There is one exception. A cursor that opening has refused stays where it is until another one is written. Until then
it is the one on disk, and once the log has grown as far it counts (`Service.Stale`, `Service.RefusedCounts`).

Several may close the queue at a time. The first takes what is ready, and until it has written that the others come
to their end with the cursor where it was.
-/

namespace CecRelay

open Lines

namespace Life

/-- The log is not longer than a file can be. -/
def Small : Life → Prop
  | .down place => ∀ f log c, place.Finds f log c → log.length ≤ maxFileSize
  | .up v => v.live.disk.log.length ≤ maxFileSize

theorem small_of_finds {place : Place} {f : Folder} {log : Bytes} {c : Cursor} (h : place.Finds f log c)
    (hsize : log.length ≤ maxFileSize) : Small (.down place) := by
  intro f' log' c' h'
  obtain ⟨f₀, hfolder, hlog⟩ := h.folder
  obtain ⟨f₁, hfolder', hlog'⟩ := h'.folder
  rw [hfolder] at hfolder'
  cases hfolder'
  rw [hlog] at hlog'
  cases hlog'
  exact hsize

/-- Opening cuts the log at most. -/
theorem Small.opens {place : Place} (hsmall : Small (.down place)) {f : Folder} {log : Bytes} {c : Cursor}
    (h : place.Finds f log c) : (complete log).length ≤ maxFileSize :=
  (Store.length_complete_le log).trans (hsmall f log c h)

theorem Reached.small {l : Life} {h : History} (hl : Reached l h) : Small l := by
  induction hl with
  | bare hbare =>
    obtain ⟨f, hf⟩ := hbare.finds
    exact small_of_finds hf (Nat.zero_le _)
  | opened hl hopen ih =>
    obtain ⟨-, f, log, c, -, hf, -⟩ := hl.holds
    obtain ⟨j, hopened, rfl⟩ := Service.exists_journal hopen
    rw [Small, Service.start, (hf.stands hopened).log_eq]
    exact ih.opens hf
  | notOpened hl hopen ih =>
    obtain ⟨-, f, log, c, -, hf, -⟩ := hl.holds
    rw [Service.place_open hf hopen]
    exact small_of_finds ⟨⟨_, rfl, rfl⟩, hf.cursor⟩ (ih.opens hf)
  | stepped hl hstep hthere' ih =>
    obtain ⟨-, -, o, hs, -⟩ := hl.holds
    exact (Service.Reaches.refl.step hstep).size hs hthere' ih
  | died hl ih =>
    obtain ⟨-, hthere, o, hs, -⟩ := hl.holds
    cases hs with
    | gone hgone =>
      rw [hthere] at hgone
      cases hgone
    | standing w _ hcore =>
      obtain ⟨c, hc, -⟩ := hcore.cursor
      obtain ⟨f, hf, -⟩ := hcore.disk.finds hc
      rw [Small, hcore.disk.log_eq] at ih
      exact small_of_finds hf ih

end Life

namespace Service

variable {o : Origin} {v v' : Service} {w : View}

/-- The cursor that opening has refused is still there, and nothing has been settled since. -/
structure Stale (o : Origin) (v : Service) : Prop where
  /-- Opening has refused it. -/
  refused : o.refused
  /-- All lines since opening are still in the ledger or not yet read. -/
  past : v.past = 0
  /-- Nothing is ready. -/
  ready : v.live.queue.ledger.ready = none
  /-- Nobody holds anything. -/
  closers : v.closers = []
  /-- Nothing is being committed. -/
  phase : ∀ stop, v.live.queue.phase ≠ .committing stop
  /-- The cursor. -/
  head : ∃ log, v.live.disk.Stands log o.head

/-! ### Opening -/

section Start

variable {place place' : Place} {f : Folder} {log : Bytes} {c : Cursor} (h : place.Finds f log c)
  {path : String} {capacity : Nat} {q : Queue} (hopen : Queue.open? path capacity place = (place', .ok q))

include h hopen

theorem stands_start : Disk.Stands ⟨place', none⟩ (complete log) f.head := by
  obtain ⟨j, hopened, rfl⟩ := exists_journal hopen
  exact h.stands hopened

/-- Opening starts at the cursor, and nothing has been received yet. -/
theorem exact_start (hcounts : Journal.startOffset log c = c.offset) : (start ⟨q, ⟨place', none⟩⟩).Exact := by
  have hlines := lines_start h hopen
  have hd := stands_start h hopen
  obtain ⟨j, hopened, rfl⟩ := exists_journal hopen
  obtain ⟨-, i, hj, -, hstart, -⟩ := h.opened hopened
  refine ⟨fun stop hstop => (by cases hstop), fun stop hstop => (by cases hstop), fun _ _ _ =>
    ⟨complete log, f.head, c, hd, h.cursor, ?_, fun hpos => absurd hpos (Nat.lt_irrefl 0)⟩⟩
  have hlen : j.len = (joined (Lines.lines log)).length := hj.len
  have hrest : rest (start ⟨.ofJournal j capacity, ⟨place', none⟩⟩) = (Lines.lines log).drop i := by
    rw [rest, hlines, hstart, lines_drop_mark]
    rfl
  have hwhole := congrArg (fun ls => (joined ls).length) (List.take_append_drop i (Lines.lines log))
  simp only [joined_append, List.length_append] at hwhole
  rw [AtEdge, hrest, ← hcounts, hstart, mark]
  exact hwhole.trans hlen.symm

omit h in
theorem settled_start : (start ⟨q, ⟨place', none⟩⟩).Settled := by
  obtain ⟨j, -, rfl⟩ := exists_journal hopen
  intro slot hslot
  cases hslot

theorem whole_start : (start ⟨q, ⟨place', none⟩⟩).Whole := by
  have hd := stands_start h hopen
  obtain ⟨j, hopened, rfl⟩ := exists_journal hopen
  obtain ⟨-, i, hj, -⟩ := h.opened hopened
  rw [Whole, start, hd.log_eq, complete_eq]
  exact hj.len.ge

/-- Opening starts at the cursor, or has refused it. -/
theorem stale_or_exact_start : (start ⟨q, ⟨place', none⟩⟩).Stale (.found f log c) ∨
    (start ⟨q, ⟨place', none⟩⟩).Exact ∧ (start ⟨q, ⟨place', none⟩⟩).Sole := by
  by_cases hcounts : Journal.startOffset log c = c.offset
  · exact .inr ⟨exact_start h hopen hcounts, .inl rfl⟩
  · have hd := stands_start h hopen
    obtain ⟨j, -, rfl⟩ := exists_journal hopen
    exact .inl ⟨hcounts, rfl, rfl, rfl, fun _ h => (by cases h), _, hd⟩

end Start

/-- The cursor has been written if it was to be, and nothing has been received while somebody who closes the queue held
an offset. -/
structure Steady (v : Service) (a : Happening) (v' : Service) : Prop where
  /-- The cursor. -/
  written : Written v a v'
  /-- What has been received. -/
  unreceived : v.closers ≠ [] → Unreceived v a v'

/-- The refused cursor stays where it is until more lines are settled, and then the end of those is ready. -/
theorem Stale.step (h : v.Stale o) (hs : Sound o v) {a : Happening} (hstep : Step v a v') (hthere' : v'.gone = false) :
    v'.Stale o ∨ v'.Exact ∧ v'.Sole := by
  have hnobody := hstep.nobody h.ready h.closers
  rcases hstep.unmoved_or_exact hs hthere' h.ready h.phase (hnobody.trans h.closers.symm) with hunmoved | ⟨-, hx, -⟩
  · obtain ⟨log, hd⟩ := h.head
    exact .inl ⟨h.refused, hunmoved.past.trans h.past, hunmoved.ready, hnobody, hunmoved.phase,
      hunmoved.head log _ hd⟩
  · exact .inr ⟨hx, .inl hnobody⟩

/-- A cursor that is written whenever it is to be stays exact, while one offset at a time is held. -/
theorem Runs.exact {v₀ : Service} (h : Runs Steady v₀ v) (hs₀ : Sound o v₀)
    (hsize₀ : v₀.live.disk.log.length ≤ maxFileSize) (h₀ : v₀.Stale o ∨ v₀.Exact ∧ v₀.Sole) (hthere : v.gone = false) :
    v.Stale o ∨ v.Exact ∧ v.Sole := by
  induction h with
  | refl => exact h₀
  | step hrun hstep hp ih =>
    have hthere₁ := hstep.there hthere
    have hs := hrun.reaches.sound hs₀
    have hsize := hrun.reaches.size hs₀ hthere₁ hsize₀
    rcases ih hthere₁ with hstale | ⟨hx, hsole⟩
    · exact hstale.step hs hstep hthere
    · exact .inr ⟨hx.written hsole hs hsize hstep hp.written hthere, hsole.step hx hs hstep hthere hp.unreceived⟩

/-- While the queue is open or the pump works, nobody holds an offset. -/
theorem Runs.steady {v₀ : Service} (h : Runs Written v₀ v) (hs₀ : Sound o v₀) (hgoes : ¬ v.Quiet) :
    Runs Steady v₀ v := by
  induction h with
  | refl => exact .refl
  | step hrun hstep hw ih =>
    have hgoes₁ := mt hstep.quiet hgoes
    exact (ih hgoes₁).step hstep ⟨hw, fun hheld => absurd ((hrun.reaches.sound hs₀).quiet hheld) hgoes₁⟩

/-! ### Rounds of the pump -/

/-- If something is ready for the cursor, the pump looks for it before it reads another line. -/
def Looks (v : Service) : Prop :=
  v.live.queue.ledger.ready = none ∨ v.live.queue.phase = .top ∨ (∃ stop, v.live.queue.phase = .moving stop) ∨
    v.live.queue.phase = .stopped

theorem Looks.same (h : v.Looks) (hready : v'.live.queue.ledger.ready = v.live.queue.ledger.ready)
    (hphase : v'.live.queue.phase = v.live.queue.phase) : v'.Looks := by
  rwa [Looks, hready, hphase]

/-- Anywhere else nothing is ready. -/
theorem Looks.ready (h : v.Looks) (htop : v.live.queue.phase ≠ .top)
    (hmoving : ∀ stop, v.live.queue.phase ≠ .moving stop) (hstopped : v.live.queue.phase ≠ .stopped) :
    v.live.queue.ledger.ready = none := by
  rcases h with hnone | hphase | ⟨stop, hphase⟩ | hphase
  · exact hnone
  · exact absurd hphase htop
  · exact absurd hphase (hmoving stop)
  · exact absurd hphase hstopped

/-- A step of the pump. -/
theorem Looks.pump (h : v.Looks) {l : Live} (hstep : v.live.step? = some l) (hw : Written v .silent (v.pumped l)) :
    (v.pumped l).Looks := by
  have hlive := (pumped_same v l).1
  rw [Looks, hlive]
  cases Live.turn_of_step? hstep with
  | takes => exact .inl rfl
  | @commits stop j d fault hphase hcommit =>
    have hok := (hw.pump stop hphase (by rw [hlive]; simp)).1
    rw [hcommit] at hok
    obtain rfl : fault = none := hok
    exact .inl (h.ready (by simp [hphase]) (by simp [hphase]) (by simp [hphase]))
  | passesOver => exact .inr (.inr (.inl ⟨_, rfl⟩))
  | handsOut hphase => exact .inl (h.ready (by simp [hphase]) (by simp [hphase]) (by simp [hphase]))
  | still hstill =>
    rcases h with hnone | htop | ⟨stop, hmoving⟩ | hstopped
    · exact .inl (by rw [hstill.ledger]; exact hnone)
    · -- it stops, or nothing is ready
      rw [Live.step?, htop] at hstep
      simp only at hstep
      split at hstep
      · cases hstep
        exact .inr (.inr (.inr rfl))
      · split at hstep
        next heq =>
          cases hstep
          exact .inl (congrArg Ledger.ready (Prod.mk.inj heq).2).symm
        next heq =>
          cases hstep
          exact .inl (Prod.mk.inj heq).1
    · rw [Live.step?, hmoving] at hstep
      cases hstep
      exact .inr (.inl rfl)
    · rw [Live.step?, hstopped] at hstep
      cases hstep

/-- Every step in which nothing is received and the cursor is written if it is to be. -/
theorem Looks.step (h : v.Looks) {a : Happening} (hstep : Step v a v') (hw : Written v a v')
    (hun : Unreceived v a v') : v'.Looks := by
  cases hstep with
  | @accepted _ now e _ _ happ | @untold _ now e _ happ | @refused _ now e _ happ =>
    obtain ⟨j, heq⟩ := append_queue v.live now e
    rw [happ] at heq
    exact h.same ((congrArg (fun q : Queue => q.ledger.ready) heq).trans rfl) ((congrArg Queue.phase heq).trans rfl)
  | pumped hpump => exact h.pump hpump hw
  | @pumpedFailing stop n k hphase =>
    have hphase' : (v.live.commitFailing n k stop).queue.phase = .reading := rfl
    obtain ⟨-, hpump⟩ := hw.pump _ hphase (by simp [hphase'])
    have hsame : v.pumped (v.live.commitFailing n k stop) = { v with live := v.live.commitFailing n k stop } := by
      rw [Service.pumped, hphase]
    rw [← hsame] at hw ⊢
    exact h.pump hpump hw
  | waited =>
    unfold Live.tick
    split
    · exact .inr (.inl rfl)
    · exact h
  | took ht =>
    obtain ⟨⟨keys, power, rfl⟩, -, -⟩ := Live.take?_eq ht
    exact h
  | received => exact absurd rfl (hun _ _)
  | takes => exact .inl rfl
  | @closed stop _ =>
    obtain ⟨j, heq, -⟩ := endClose_queue v.live false (some stop)
    exact h.same ((congrArg (fun q : Queue => q.ledger.ready) heq).trans rfl) ((congrArg Queue.phase heq).trans rfl)
  | removed hquiet =>
    exact .inr (.inr (.inr ((congrArg Queue.phase (removeFolder_queue _)).trans hquiet.2)))
  | _ => exact h

theorem Runs.mono {P Q : Service → Happening → Service → Prop} (himp : ∀ u a u', P u a u' → Q u a u') {v₀ : Service}
    (h : Runs P v₀ v) : Runs Q v₀ v := by
  induction h with
  | refl => exact .refl
  | step _ hstep hp ih => exact .step ih hstep (himp _ _ _ hp)

theorem Runs.trans {P : Service → Happening → Service → Prop} {v₀ : Service} (h : Runs P v₀ v) (h' : Runs P v v') :
    Runs P v₀ v' := by
  induction h' with
  | refl => exact h
  | step _ hstep hp ih => exact .step ih hstep hp

/-- In such steps from the top of a round on. -/
theorem Runs.looks {v₁ : Service} (h : Runs (fun u a u' => Written u a u' ∧ Unreceived u a u') v₁ v)
    (h₁ : v₁.Looks) : v.Looks := by
  induction h with
  | refl => exact h₁
  | step _ hstep hp ih => exact ih.step hstep hp.1 hp.2

/-! ### What is left to the next queue -/

/-- The next queue hands out the lines from the `n`-th on and what an append has left behind them, if it opens. If
there are no lines after the first `n`, the cursor is at the start and nothing is in the log, unless an append has
broken off since the last line was appended and what it left there is still to be cut off. -/
structure Leaves (v₀ v : Service) (n : Nat) : Prop where
  /-- The lines handed out next. -/
  next : v.live.disk.place.Offers (v.lines.drop n ++ v.left)
  /-- It opens unless their last number is the greatest of all. -/
  opens : v.live.disk.place.HandsOut (v.lines.drop n ++ v.left) ↔
    Journal.lastSeq? (v.lines.drop n ++ v.left) ≠ some Journal.greatest
  /-- There are none. -/
  empty : 0 < n → v.lines.length = n → ∃ log,
    v.live.disk.Stands log (some (.file (Cursor.bytes ⟨0, v.live.queue.journal.nextSeq⟩))) ∧
      Lines.lines log = v.left ∧ (log = [] ∨ v₀.Torn v)

/-- The cursor that opening has refused is still on disk, and it counts by now. -/
def RefusedCounts (f : Folder) (log : Bytes) (c : Cursor) (v : Service) : Prop :=
  Journal.startOffset log c ≠ c.offset ∧ ∃ f' log', v.live.disk.place.Finds f' log' c ∧ f'.head = f.head ∧
    Journal.startOffset log' c = c.offset

/-- A cursor at the end of the first lines that have been received. -/
theorem CursorAtEdge.leaves (h : v.CursorAtEdge) (hs : Sound o v) (hthere : v.gone = false) {v₀ : Service}
    (hwhole : v.Whole ∨ v₀.Torn v) : Leaves v₀ v v.past := by
  cases hs with
  | gone hgone =>
    rw [hthere] at hgone
    cases hgone
  | standing w _ hcore _ _ _ =>
    obtain ⟨log, head, c, hd, hc, hedge, hempty⟩ := h
    obtain rfl := hd.log_eq
    rw [hcore.atEdge_iff, ← mark_length] at hedge
    obtain ⟨hstart, -, hnext⟩ := hcore.lines_next (Nat.le_refl _) hedge
    obtain ⟨f, hf, -⟩ := hd.finds hc
    rw [hcore.disk.log_eq] at hf hd
    rw [List.drop_length, List.nil_append, ← hcore.rest_eq] at hnext
    have hoffers := hf.offers
    rw [hstart, hnext] at hoffers
    refine ⟨hoffers, hoffers.handsOut_iff, fun hpos hall => ?_⟩
    obtain ⟨hlen, rfl⟩ := hempty hpos (by rw [rest, ← hall, List.drop_length])
    have hnone : w.lines = [] := by
      rw [hcore.journal.len] at hlen
      cases hlines : w.lines with
      | nil => rfl
      | cons line ls =>
        rw [hlines] at hlen
        simp at hlen
    refine ⟨w.log, hd, ?_, hwhole.imp_left fun hw => ?_⟩
    · rw [hcore.lines_log, hnone, List.nil_append]
    · rw [Whole, hcore.disk.log_eq, hlen] at hw
      exact List.eq_nil_of_length_eq_zero (Nat.le_zero.1 hw)

/-- While the refused cursor does not count, the next queue hands out everything since opening. -/
theorem Stale.leaves {f : Folder} {log : Bytes} {c : Cursor} (h : v.Stale (.found f log c))
    (hc : Cursor.ofEntry f.head = .ok c) (hs : Sound (.found f log c) v) (hthere : v.gone = false) (v₀ : Service) :
    Leaves v₀ v v.past ∨ RefusedCounts f log c v := by
  cases hs with
  | gone hgone =>
    rw [hthere] at hgone
    cases hgone
  | standing w _ hcore _ _ _ =>
    obtain ⟨log', hd⟩ := h.head
    obtain rfl := hd.log_eq
    rw [hcore.disk.log_eq] at hd
    obtain ⟨f', hf', hhead⟩ := hd.finds hc
    by_cases hcounts : Journal.startOffset w.log c = c.offset
    · exact .inr ⟨h.refused, f', w.log, hf', hhead, hcounts⟩
    · -- no line is in front of the ledger
      have hpast : w.past = [] := List.eq_nil_of_length_eq_zero (hcore.past_eq.symm.trans h.past)
      have hfront : w.front = [] := by
        have hsuffix := hcore.front
        rw [Origin.before_found h.refused, hpast] at hsuffix
        exact List.suffix_nil.1 hsuffix
      have hlines : Lines.lines w.log = v.lines ++ v.left := by
        rw [hcore.lines_log, View.lines, hfront, hcore.whole, hpast]
      have hstart : Journal.startOffset w.log c = 0 := by
        obtain ⟨k, -, hk, hmark | ⟨rfl, -⟩⟩ := Journal.exists_startOffset w.log c
        · exact absurd (hk.trans hmark.symm) hcounts
        · exact hk.trans (mark_zero _)
      have hoffers := hf'.offers
      rw [hstart, List.drop_zero, hlines] at hoffers
      rw [h.past]
      exact .inl ⟨hoffers, hoffers.handsOut_iff, fun hpos => absurd hpos (Nat.lt_irrefl 0)⟩

end Service

/-- A queue is opened on any folder. At any time the cursor on disk is not behind the first of the lines read since
that have all been received or cannot be read, unless it is the one that opening has refused. As long as every
attempt to write the cursor succeeds, and nothing is received while somebody who closes the queue holds an offset,
each offset that is held once the pump has stopped is the end of those lines; and when nothing is ready and nobody
holds anything any more, the next queue hands out exactly the lines after them, and if there are none the cursor is at
the start and the log is empty but for what an append has left that has broken off since. So it is when the pump waits
and nothing has been received since it last was at the top of a round. But as long as the refused cursor is still there,
the next queue starts at it once it counts. -/
theorem Place.Finds.cursor_exact {place place' : Place} {f : Folder} {log : Bytes} {c : Cursor}
    (h : place.Finds f log c) (hsize : log.length ≤ maxFileSize) {path : String} {capacity : Nat} {q : Queue}
    (hopen : Queue.open? path capacity place = (place', .ok q)) :
    let v₀ := Service.start ⟨q, ⟨place', none⟩⟩
    (∀ v, Service.Reaches v₀ v → v.gone = false →
      ∃ n f' log' c', v.Through n ∧ v.live.disk.place.Finds f' log' c' ∧
        (Journal.startOffset log' c' = c'.offset ∧ v.lines.drop n ++ v.left <:+ lines (log'.drop c'.offset) ∨
          Journal.startOffset log c ≠ c.offset ∧ f'.head = f.head)) ∧
    (∀ v, Service.Runs Service.Steady v₀ v → v.Quiet → v.gone = false →
      ∃ n, v.Through n ∧
        (∀ x ∈ v.closers, x.2 + (joined (v.lines.drop n)).length = v.live.queue.journal.len) ∧
        (v.live.queue.ledger.ready = none → v.closers = [] →
          Service.Leaves v₀ v n ∨ Service.RefusedCounts f log c v)) ∧
    ∀ v₁ v, Service.Runs Service.Written v₀ v₁ → v₁.live.queue.phase = .top →
      Service.Runs (fun u a u' => Service.Written u a u' ∧ Service.Unreceived u a u') v₁ v →
      v.live.queue.phase = .idle → v.gone = false →
        ∃ n, v.Through n ∧ (Service.Leaves v₀ v n ∨ Service.RefusedCounts f log c v) := by
  intro v₀
  have hs₀ := Service.sound_start h hopen
  have hsettled₀ := Service.settled_start hopen
  have hsize₀ : v₀.live.disk.log.length ≤ maxFileSize := by
    rw [show v₀.live.disk = ⟨place', none⟩ from rfl, (Service.stands_start h hopen).log_eq]
    exact (Store.length_complete_le log).trans hsize
  have hthrough : ∀ {v}, Service.Reaches v₀ v → v.gone = false → v.Through v.past := fun hv hthere =>
    (hv.sound hs₀).through (hv.settled hsettled₀) hthere
  -- at any time at which the cursor is what is exact
  have hleaves : ∀ v, Service.Runs Service.Steady v₀ v → v.gone = false →
      (∀ stop, v.live.queue.phase ≠ .committing stop) → v.live.queue.ledger.ready = none → v.closers = [] →
      Service.Leaves v₀ v v.past ∨ Service.RefusedCounts f log c v := by
    intro v hrun hthere hphase hready hnobody
    have hv := hrun.reaches
    rcases hrun.exact hs₀ hsize₀ (Service.stale_or_exact_start h hopen) hthere with hstale | ⟨hx, -⟩
    · exact hstale.leaves h.cursor (hv.sound hs₀) hthere v₀
    · exact .inl ((hx.cursor hphase hready hnobody).leaves (hv.sound hs₀) hthere
        (hv.whole_or_torn hs₀ hthere (Service.whole_start h hopen)))
  refine ⟨fun v hv hthere => ?_, fun v hrun hquiet hthere => ?_, fun v₁ v hrun₁ htop hrun hidle hthere => ?_⟩
  · obtain ⟨f', log', c', hf', hwhere⟩ := (hv.sound hs₀).cursor_le hthere
    exact ⟨v.past, f', log', c', hthrough hv hthere, hf', hwhere⟩
  · refine ⟨v.past, hthrough hrun.reaches hthere, fun x hx => ?_, fun hready hnobody =>
      hleaves v hrun hthere hquiet.not_committing hready hnobody⟩
    rcases hrun.exact hs₀ hsize₀ (Service.stale_or_exact_start h hopen) hthere with
      hstale | ⟨-, hnone | ⟨y, hone, -, hy, -⟩⟩
    · rw [hstale.closers] at hx
      cases hx
    · rw [hnone] at hx
      cases hx
    · rw [hone] at hx
      obtain rfl := List.mem_singleton.1 hx
      exact hy
  · have hready := (hrun.looks (.inr (.inl htop))).ready (by simp [hidle]) (by simp [hidle]) (by simp [hidle])
    have hsteady := (hrun₁.trans (hrun.mono fun _ _ _ hp => hp.1)).steady hs₀ fun hquiet => by
      rw [hquiet.2] at hidle
      cases hidle
    have hnobody : v.closers = [] := by
      by_contra hheld
      have hstopped := ((hsteady.reaches.sound hs₀).quiet hheld).2
      rw [hidle] at hstopped
      cases hstopped
    exact ⟨v.past, hthrough hsteady.reaches hthere,
      hleaves v hsteady hthere (by simp [hidle]) hready hnobody⟩

/-! ### One key -/

/-- A queue with the line of one key in its log. -/
def Live.oneKey (ledger : Ledger) (keys : List KeyPress) (read : Nat) (phase : Phase) (wake : Bool) : Live :=
  ⟨{ journal := ⟨{}, read, 112, 1⟩, ledger := ledger, keys := keys, capacity := 1, phase := phase, wake := wake },
    ⟨.folder { log := some (.file Store.keyLine) }, none⟩⟩

/-- The queue when the key has been received and its log has been emptied. -/
def Live.noKey (phase : Phase) : Live :=
  ⟨{ journal := ⟨⟨0, 1⟩, 0, 0, 1⟩, capacity := 1, phase := phase, wake := true },
    ⟨.folder { log := some (.file []), head := some (.file (Cursor.bytes ⟨0, 1⟩)) }, none⟩⟩

/-- On a queue that has been opened where there was nothing the key is accepted. -/
theorem Live.append_oneKey :
    append ⟨.ofJournal ⟨{}, 0, 0, 0⟩ 1, ⟨.folder { log := some (.file []) }, none⟩⟩
      ⟨⟨2024, 1, 1⟩, 0, 0, 0, 123456789⟩ (.key ⟨1, 0⟩) = (oneKey {} [] 0 .top false, .ok (some 0)) := by
  have hkey := Store.append_keyLine { log := some (.file []) } rfl
  simp only [append, Queue.ofJournal, hkey]
  rfl

/-- The pump reads the line. -/
theorem Live.step?_oneKey : (oneKey {} [] 0 .reading false).step? =
    some (oneKey ⟨[⟨112, some .keys, false⟩], none⟩ [] 0 (.handing (.key ⟨1, 0⟩) 112) false) := by
  have hpeek := Store.peek_keyLine { log := some (.file Store.keyLine) } rfl
  have hdecode := Envelope.decode?_body 0 (.key ⟨1, 0⟩)
    (show Time.Stamp.Valid ⟨⟨2024, 1, 1⟩, 0, 0, 0, 123456789⟩ by decide)
  simp only [step?, oneKey, hpeek, hdecode]
  rfl

/-- The pump moves the cursor behind it. -/
theorem Live.step?_oneKey_committing :
    (oneKey ⟨[], none⟩ [] 112 (.committing 112) true).step? = some (noKey .reading) := by
  simp only [step?, oneKey, Store.commit_keyLine]
  rfl

namespace Service

/-- When the pump is not about to write the cursor, nor holds anybody an offset, nothing is to be written. -/
theorem Written.of_phase (a : Happening) {v v' : Service} (hphase : ∀ stop, v.live.queue.phase ≠ .committing stop)
    (hnobody : v.closers = []) : Written v a v' :=
  ⟨fun stop hstop => absurd hstop (hphase stop), fun stop hmem => by rw [hnobody] at hmem; cases hmem⟩

/-- The key has been received: the pump moves the cursor and waits. -/
theorem exists_runs_noKey {v₁ : Service} (h : v₁.live = .oneKey ⟨[], some 112⟩ [] 112 .top true)
    (hnobody : v₁.closers = []) :
    ∃ v, Runs (fun u a u' => Written u a u' ∧ Unreceived u a u') v₁ v ∧ v = { v₁ with live := .noKey .idle } := by
  obtain ⟨live, lines, count, handed, held, got, closers, gone⟩ := v₁
  cases h
  cases hnobody
  have h₁ := Runs.refl.step (P := fun u a u' => Written u a u' ∧ Unreceived u a u')
    (.pumped (v := ⟨.oneKey ⟨[], some 112⟩ [] 112 .top true, lines, count, handed, held, got, [], gone⟩)
      (l := .oneKey ⟨[], none⟩ [] 112 (.committing 112) true) rfl)
    ⟨.of_phase _ (fun _ h => (by cases h)) rfl, fun _ _ h => (by cases h)⟩
  have hwritten : Written
      ⟨.oneKey ⟨[], none⟩ [] 112 (.committing 112) true, lines, count, handed, held, got, [], gone⟩ .silent
      ⟨.noKey .reading, lines, count, handed, held, got, [], gone⟩ := by
    refine ⟨fun stop hstop _ => ?_, fun _ hmem => (by cases hmem)⟩
    cases hstop
    exact ⟨congrArg (fun x => x.2.2) Store.commit_keyLine, Live.step?_oneKey_committing⟩
  have h₂ := h₁.step (.pumped Live.step?_oneKey_committing) ⟨hwritten, fun _ _ h => (by cases h)⟩
  have h₃ := h₂.step (.pumped (l := .noKey .idle) rfl)
    ⟨.of_phase _ (fun _ h => (by cases h)) rfl, fun _ _ h => (by cases h)⟩
  exact ⟨_, h₃, rfl⟩

/-- A key is accepted, handed out and received. -/
theorem exists_runs_oneKey :
    ∃ v₁, Runs Written (start ⟨.ofJournal ⟨{}, 0, 0, 0⟩ 1, ⟨.folder { log := some (.file []) }, none⟩⟩) v₁ ∧
      v₁.live = .oneKey ⟨[], some 112⟩ [] 112 .top true ∧ v₁.gone = false ∧ v₁.closers = [] ∧
      v₁.got .keys = [(0, .key ⟨1, 0⟩)] ∧ v₁.count = 1 ∧
      v₁.lines = [Envelope.body 0 ⟨⟨2024, 1, 1⟩, 0, 0, 0, 123456789⟩ (.key ⟨1, 0⟩)] := by
  have hvalid : Time.Stamp.Valid ⟨⟨2024, 1, 1⟩, 0, 0, 0, 123456789⟩ := by decide
  have hlines : (start ⟨.ofJournal ⟨{}, 0, 0, 0⟩ 1, ⟨.folder { log := some (.file []) }, none⟩⟩).lines = [] := by
    simp [start, Journal.handOut, Journal.peek, Queue.ofJournal]
  have h₀ : Runs Written
      (start ⟨.ofJournal ⟨{}, 0, 0, 0⟩ 1, ⟨.folder { log := some (.file []) }, none⟩⟩) _ := .refl
  have h₁ := h₀.step (.accepted hvalid Live.append_oneKey) (.of_phase _ (fun _ h => (by cases h)) rfl)
  have h₂ := h₁.step (.pumped (l := .oneKey {} [] 0 .reading false) rfl) (.of_phase _ (fun _ h => (by cases h)) rfl)
  have h₃ := h₂.step (.pumped Live.step?_oneKey) (.of_phase _ (fun _ h => (by cases h)) rfl)
  have h₄ := h₃.step
    (.pumped (l := .oneKey ⟨[⟨112, some .keys, false⟩], none⟩ [⟨1, 0⟩] 0 (.moving 112) false) rfl)
    (.of_phase _ (fun _ h => (by cases h)) rfl)
  have h₅ := h₄.step
    (.took (s := .keys) (e := .key ⟨1, 0⟩)
      (l := .oneKey ⟨[⟨112, some .keys, false⟩], none⟩ [] 0 (.moving 112) false) rfl)
    (.of_phase _ (fun _ h => (by cases h)) rfl)
  have h₆ := h₅.step (.received (s := .keys) (i := 0) (e := .key ⟨1, 0⟩) rfl)
    (.of_phase _ (fun _ h => (by cases h)) rfl)
  have h₇ := h₆.step (.pumped (l := .oneKey ⟨[], some 112⟩ [] 112 .top true) rfl)
    (.of_phase _ (fun _ h => (by cases h)) rfl)
  exact ⟨_, h₇, rfl, rfl, rfl, rfl, rfl, congrArg (· ++ _) hlines⟩

end Service

/-- Where there was nothing a key is accepted and received, and the next queue hands out nothing. -/
theorem Place.cursor_exact_one_key :
    let f : Folder := { log := some (.file []) }
    let q : Queue := .ofJournal ⟨{}, 0, 0, 0⟩ 1
    Place.missing.Finds f [] {} ∧ Queue.open? "q" 1 .missing = (.folder f, .ok q) ∧
    ∃ v, Service.Reaches (.start ⟨q, ⟨.folder f, none⟩⟩) v ∧ v.live = .noKey .idle ∧
      v.got .keys = [(0, .key ⟨1, 0⟩)] ∧ v.Through 1 ∧ v.live.disk.place.HandsOut [] := by
  intro f q
  have hfinds : Place.missing.Finds f [] {} := ⟨⟨_, rfl, rfl⟩, rfl⟩
  have hopen : Queue.open? "q" 1 .missing = (.folder f, .ok q) := rfl
  obtain ⟨v₁, hrun₁, hlive, hthere, hnobody, hgot, hcount, hlines⟩ := Service.exists_runs_oneKey
  obtain ⟨v, hrun, rfl⟩ := Service.exists_runs_noKey hlive hnobody
  obtain ⟨n, hthrough, hleaves⟩ :=
    (hfinds.cursor_exact (Nat.zero_le _) hopen).2.2 v₁ _ hrun₁ (by rw [hlive]; rfl) hrun rfl hthere
  have hleaves := hleaves.resolve_right fun hrefused => hrefused.1 rfl
  have hdone : Service.Done { v₁ with live := .noKey .idle } 0 := by
    intro line seq e hline hdecode
    rw [hlines] at hline
    cases hline
    rw [Envelope.decode?_body _ _ (by decide)] at hdecode
    cases hdecode
    rw [show Event.stream (.key ⟨1, 0⟩) = .keys from rfl, hgot]
    exact List.mem_cons_self
  have hle := hthrough.le
  obtain rfl : n = 1 := by
    rcases Nat.eq_zero_or_pos n with rfl | hpos
    · exact absurd hdone (hthrough.next (by simp only [hcount, Nat.lt_one_iff]))
    · simp only [hcount] at hle
      omega
  have hnext := hleaves.opens
  rw [hlines] at hnext
  exact ⟨hfinds, hopen, _, (hrun₁.trans (hrun.mono fun _ _ _ hp => hp.1)).reaches, rfl, hgot, hthrough,
    hnext.2 (Option.some_ne_none _).symm⟩

end CecRelay
