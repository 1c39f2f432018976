import CecRelay.Proofs.Queue.Settled

/-!
# The cursor is exactly what has been received

As long as every attempt to write the cursor succeeds (`Service.Written`), an offset that is ready, or that
is being committed, or that somebody holds who closes the queue, or else the cursor on disk itself, is the end of
the first lines that have been received (`Service.Exact`, `Service.Sole`). So when nothing is ready any more and
nobody holds anything the next queue hands out exactly the lines after those, and a log that has been received
whole is empty.

Those who close the queue can write their offsets in any order, and an older one may come last. That cannot be when
nothing is received while somebody holds an offset, as then there is only one to hold.

The log holds nothing but lines, unless an append that broke off has left something behind
(`Service.Reaches.whole_or_torn`).
-/

namespace CecRelay

open Lines

namespace Service

variable {o : Origin} {v v' : Service} {w : View}

/-- Any number of steps, all of them as `P` says. -/
inductive Runs (P : Service → Happening → Service → Prop) (v₀ : Service) : Service → Prop
  /-- None. -/
  | refl : Runs P v₀ v₀
  /-- One more. -/
  | step {v v' : Service} {a : Happening} : Runs P v₀ v → Step v a v' → P v a v' → Runs P v₀ v'

theorem Runs.reaches {P : Service → Happening → Service → Prop} {v₀ : Service} (h : Runs P v₀ v) : Reaches v₀ v := by
  induction h with
  | refl => exact .refl
  | step _ hstep _ ih => exact .step ih hstep

/-! ### What steps do to the log -/

/-- Nothing is left in the log behind the lines of the queue. -/
def Whole (v : Service) : Prop := v.live.disk.log.length ≤ v.live.queue.journal.len

/-- An append breaks off, and what has been written of its line stays. -/
def Tears (v v' : Service) : Prop :=
  ¬ v'.Whole ∧ ∃ now e n k, now.Valid ∧ v.live.queue.closed = false ∧
    v' = { v with
      live.disk := Effect.crash n k (v.live.queue.journal.appendEffects v.live.disk.log
        (Envelope.line v.live.queue.journal.nextSeq now e)) v.live.disk }

/-- An append has broken off since the last line was appended, and ever since something has been left of it. -/
def Torn (v₀ v : Service) : Prop :=
  ∃ u u', Reaches v₀ u ∧ u.Tears u' ∧ Runs (fun _ _ v' => ¬ v'.Whole) u' v ∧ u.lines = v.lines

/-- What a step does to the log. -/
inductive Writes (v v' : Service) : Prop
  /-- Nothing. -/
  | same (h : v'.live.disk.log = v.live.disk.log) (len : v'.live.queue.journal.len = v.live.queue.journal.len)
    (lines : v'.lines = v.lines)
  /-- It is emptied. -/
  | emptied (h : v'.live.disk.log = [])
  /-- A line is put at its end, or what is left there is cut off. -/
  | whole (h : v'.Whole)
    (size : v.live.disk.log.length ≤ maxFileSize → v'.live.disk.log.length ≤ maxFileSize)
  /-- What has been written of a line is left at its end. -/
  | torn (h : v.Tears v')
    (size : v.live.disk.log.length ≤ maxFileSize → v'.live.disk.log.length ≤ maxFileSize)

/-- An event that is stored leaves nothing behind its line. -/
theorem Standing.writes_stored (h : Standing o v w) {l : Live} {now : Time.Stamp} {e : Event}
    {result : Except Failure (Option UInt64)} (happ : v.live.append now e = (l, result))
    (hresult : (∃ seq, result = .ok (some seq)) ∨ result = .error .broken) (lines : List Bytes) :
    v.Writes { v with live := l, lines := lines } := by
  obtain ⟨-, j, d, rfl, hd, hj, hsize⟩ := h.stored happ hresult
  refine .whole ?_ fun _ => ?_
  · rw [Whole, hd.log_eq]
    exact hj.len.ge
  · rw [hd.log_eq]
    exact hsize

/-- What each step does to the log. -/
theorem Step.writes (hs : Sound o v) {a : Happening} (hstep : Step v a v') (hthere : v.gone = false) :
    v.Writes v' ∨ v'.gone = true := by
  cases hs with
  | gone hgone =>
    rw [hthere] at hgone
    cases hgone
  | standing w _ hcore =>
    cases hstep with
    | accepted _ happ => exact .inl (hcore.writes_stored happ (.inl ⟨_, rfl⟩) _)
    | untold _ happ => exact .inl (hcore.writes_stored happ (.inr rfl) _)
    | refused happ =>
      obtain ⟨d, rfl, hd⟩ := hcore.refused happ
      refine .inl (.whole ?_ fun hsize => ?_)
      · rw [Whole, hd.log_eq]
        exact hcore.journal.len.ge
      · rw [hcore.disk.log_eq, View.log, List.length_append] at hsize
        rw [hd.log_eq]
        exact (Nat.le_add_right _ _).trans hsize
    | @refusedPartly now e n k hvalid hopen =>
      obtain ⟨extra, hd, -, hsize⟩ := hcore.broken (e := e) hvalid n k
      have hgrown := hd.log_eq
      refine .inl ?_
      by_cases hwhole : Whole { v with
          live.disk := Effect.crash n k (v.live.queue.journal.appendEffects v.live.disk.log
            (Envelope.line v.live.queue.journal.nextSeq now e)) v.live.disk }
      · exact .whole hwhole fun hle => by rw [hgrown]; exact hsize hle
      · exact .torn ⟨hwhole, now, e, n, k, hvalid, hopen, rfl⟩ fun hle => by rw [hgrown]; exact hsize hle
    | @pumped l hpump =>
      obtain ⟨hl, -, -, -, hlines⟩ := pumped_same v l
      cases Live.turn_of_step? hpump with
      | @commits stop _ _ _ _ hcommit =>
        have hlog := v.live.queue.journal.len_commit stop v.live.disk
        rw [hcommit] at hlog
        rcases hlog with ⟨hlen, heq⟩ | ⟨-, heq⟩
        · exact .inl (.same (by rw [hl]; exact heq) (by rw [hl]; exact hlen) hlines)
        · exact .inl (.emptied (by rw [hl]; exact heq))
      | still hstill => exact .inl (.same (by rw [hl, hstill.disk]) (by rw [hl, hstill.len]) hlines)
      | takes => exact .inl (.same (by rw [hl]) (by rw [hl]) hlines)
      | passesOver => exact .inl (.same (by rw [hl]) (by rw [hl]) hlines)
      | handsOut => exact .inl (.same (by rw [hl]) (by rw [hl]) hlines)
    | pumpedFailing n k =>
      exact .inl (.same (Journal.log_commitFailing n k _ _ _) (Journal.len_commitFailing n k _ _ _) rfl)
    | waited =>
      obtain ⟨phase, heq⟩ := v.live.tick_eq
      rw [heq]
      exact .inl (.same rfl rfl rfl)
    | took ht =>
      obtain ⟨⟨keys, power, rfl⟩, -, -⟩ := Live.take?_eq ht
      exact .inl (.same rfl rfl rfl)
    | @closed stop _ =>
      rcases v.live.queue.journal.len_commit stop v.live.disk with ⟨hlen, heq⟩ | ⟨-, heq⟩
      · exact .inl (.same heq hlen rfl)
      · exact .inl (.emptied heq)
    | closedFailing n k =>
      exact .inl (.same (Journal.log_commitFailing n k _ _ _) (Journal.len_commitFailing n k _ _ _) rfl)
    | removed => exact .inr rfl
    | _ => exact .inl (.same rfl rfl rfl)

/-- A folder that has been removed does not come back. -/
theorem Step.there {a : Happening} (hstep : Step v a v') (hthere : v'.gone = false) : v.gone = false := by
  cases hstep with
  | @pumped l _ => rwa [(pumped_same v l).2.2.2.1] at hthere
  | removed => cases hthere
  | _ => exact hthere

section Log

variable {v₀ : Service} (hv : Reaches v₀ v) (hs₀ : Sound o v₀) (hthere : v.gone = false)

include hv hs₀ hthere

/-- The log stays within the size of a file. -/
theorem Reaches.size (hsize : v₀.live.disk.log.length ≤ maxFileSize) : v.live.disk.log.length ≤ maxFileSize := by
  induction hv with
  | refl => exact hsize
  | step hv hstep ih =>
    have hthere₁ := hstep.there hthere
    have hsize₁ := ih hthere₁
    rcases hstep.writes (hv.sound hs₀) hthere₁ with hwrites | hgone
    · cases hwrites with
      | same heq => rwa [heq]
      | emptied heq => rw [heq]; exact Nat.zero_le _
      | whole _ hle => exact hle hsize₁
      | torn _ hle => exact hle hsize₁
    · rw [hthere] at hgone
      cases hgone

/-- Nothing is left behind the lines, unless an append has broken off since the last line was appended. -/
theorem Reaches.whole_or_torn (hwhole : v₀.Whole) : v.Whole ∨ v₀.Torn v := by
  induction hv with
  | refl => exact .inl hwhole
  | @step v v' _ hv hstep ih =>
    have hthere₁ := hstep.there hthere
    by_cases hwhole' : v'.Whole
    · exact .inl hwhole'
    rcases hstep.writes (hv.sound hs₀) hthere₁ with hwrites | hgone
    · cases hwrites with
      | same heq hlen hlines =>
        rcases ih hthere₁ with hwhole₁ | ⟨u, u', hu, htears, hu', hsame⟩
        · exact absurd (by rw [Whole, heq, hlen]; exact hwhole₁) hwhole'
        · exact .inr ⟨u, u', hu, htears, .step hu' hstep hwhole', hsame.trans hlines.symm⟩
      | emptied heq => exact absurd (by rw [Whole, heq]; exact Nat.zero_le _) hwhole'
      | whole h _ => exact absurd h hwhole'
      | torn htears _ =>
        refine .inr ⟨v, v', hv, htears, .refl, ?_⟩
        obtain ⟨-, _, _, _, _, -, -, rfl⟩ := htears
        rfl
    · rw [hthere] at hgone
      cases hgone

end Log

/-! ### Runs in which the cursor is written -/

/-- If the cursor was to be written in this step, it has been. -/
structure Written (v : Service) (_ : Happening) (v' : Service) : Prop where
  /-- The pump has not gone on before. -/
  pump : ∀ stop, v.live.queue.phase = .committing stop → v'.live.queue.phase ≠ .committing stop →
    (v.live.queue.journal.commit stop v.live.disk).2.2 = none ∧ v.live.step? = some v'.live
  /-- Nobody who closes the queue has done with an offset without writing it. -/
  close : ∀ stop, (false, stop) ∈ v.closers → v'.closers = v.closers.erase (false, stop) →
    (v.live.queue.journal.commit stop v.live.disk).2.2 = none ∧ v'.live = (v.live.endClose false (some stop)).1

/-- Nothing has been received in this step. -/
def Unreceived (_ : Service) (a : Happening) (_ : Service) : Prop := ∀ i e, a ≠ .received i e

/-! ### The cursor is exact -/

/-- The offset is the end of the first lines that have been received. -/
def AtEdge (v : Service) (stop : Nat) : Prop := stop + (joined v.rest).length = v.live.queue.journal.len

/-- The cursor on disk is, and a log that has been received whole is empty. -/
def CursorAtEdge (v : Service) : Prop :=
  ∃ log head c, v.live.disk.Stands log head ∧ Cursor.ofEntry head = .ok c ∧ v.AtEdge c.offset ∧
    (0 < v.past → v.rest = [] → v.live.queue.journal.len = 0 ∧
      head = some (.file (Cursor.bytes ⟨0, v.live.queue.journal.nextSeq⟩)))

/-- The offset that is ready for the cursor is the end of the first lines that have been received, or else
the one that is being committed, or else, if nobody holds any, the cursor on disk. -/
structure Exact (v : Service) : Prop where
  /-- The offset that is ready. -/
  ready : ∀ stop, v.live.queue.ledger.ready = some stop → v.AtEdge stop ∧ 0 < stop
  /-- The one that is being committed. -/
  committing : ∀ stop, v.live.queue.phase = .committing stop → v.live.queue.ledger.ready = none →
    v.AtEdge stop ∧ 0 < stop
  /-- The cursor. -/
  cursor : (∀ stop, v.live.queue.phase ≠ .committing stop) → v.live.queue.ledger.ready = none → v.closers = [] →
    v.CursorAtEdge

/-- At most one who closes the queue holds an offset. It is the end of the first lines that have been received. -/
def Sole (v : Service) : Prop :=
  v.closers = [] ∨ ∃ x, v.closers = [x] ∧ v.live.queue.ledger.ready = none ∧ v.AtEdge x.2 ∧ 0 < x.2

theorem Standing.atEdge_iff (h : Standing o v w) (stop : Nat) : v.AtEdge stop ↔ stop = (joined w.front).length := by
  rw [AtEdge, h.rest_eq, h.journal.len, View.lines, joined_append w.front, List.length_append]
  omega

/-- A commit of the end of the first lines that have been received, if it succeeds: that is where the cursor
is then, or all lines have been received and the log is empty. -/
theorem Standing.committed (h : Standing o v w) (hsize : v.live.disk.log.length ≤ maxFileSize) {stop : Nat}
    (hedge : v.AtEdge stop) (hpos : 0 < stop) {j : Journal} {d : Disk}
    (hcommit : v.live.queue.journal.commit stop v.live.disk = (j, d, none)) :
    ∃ log head c, d.Stands log head ∧ Cursor.ofEntry head = .ok c ∧
      c.offset + (joined v.rest).length = j.len ∧
      (v.rest = [] → j.len = 0 ∧ head = some (.file (Cursor.bytes ⟨0, j.nextSeq⟩))) := by
  obtain ⟨old, hold, -⟩ := h.cursor
  have hseq := Journal.nextSeq_commit v.live.queue.journal stop v.live.disk
  rw [hcommit] at hseq
  obtain rfl : stop = mark w.lines w.front.length := by
    rw [h.mark_front (Nat.le_refl _), mark_length]
    exact (h.atEdge_iff stop).1 hedge
  rw [h.disk.log_eq, View.log, List.length_append] at hsize
  have hle := mark_le_length w.lines w.front.length
  rcases h.journal.commit_cases h.disk hold (h.le_lines (Nat.le_refl _)) with
    ⟨j', d', head', fault, heq, hd, -, hj, hok⟩ | ⟨j', d', heq, hall, hd, hj, -⟩
  · rw [heq] at hcommit
    cases hcommit
    obtain ⟨-, hnot, rfl⟩ := hok rfl
    have hfits : mark w.lines w.front.length ≤ 0xFFFFFFFFFFFFFFFF := by
      simp only [maxFileSize] at hsize
      omega
    refine ⟨w.log, _, _, hd, by rw [Cursor.ofEntry_bytes, if_pos hfits], ?_, fun hrest => ?_⟩
    · rw [hj.len, ← h.journal.len]
      exact hedge
    · -- the commit would have emptied the log
      rw [AtEdge, hrest, joined_nil, List.length_nil, Nat.add_zero] at hedge
      exact absurd ⟨Nat.le_of_eq hedge.symm, by omega⟩ hnot
  · rw [heq] at hcommit
    cases hcommit
    have hrest : v.rest = [] := by
      have hlast := ((h.journal.delivered_iff (h.le_lines (Nat.le_refl _))).1 hall).1
      rw [View.lines, List.length_append] at hlast
      rw [h.rest_eq]
      exact List.eq_nil_of_length_eq_zero (by omega)
    refine ⟨[], _, _, hd, Store.ofEntry_empty _, ?_, fun _ => ⟨hj.len, by rw [hseq]⟩⟩
    rw [hrest, hj.len]
    rfl

namespace Exact

/-- What a step leaves alone of this stays exact. -/
theorem congr (hx : v.Exact) (hready : v'.live.queue.ledger.ready = v.live.queue.ledger.ready)
    (hclosers : v'.closers = v.closers) (hpast : v'.past = v.past) (hlines : v'.lines = v.lines)
    (hlen : v'.live.queue.journal.len = v.live.queue.journal.len)
    (hseq : v'.live.queue.journal.nextSeq = v.live.queue.journal.nextSeq)
    (hdisk : ∀ log head, v.live.disk.Stands log head → ∃ log', v'.live.disk.Stands log' head)
    (hphase : ∀ stop, v'.live.queue.phase = .committing stop ↔ v.live.queue.phase = .committing stop) : v'.Exact := by
  have hrest : v'.rest = v.rest := by rw [rest, rest, hlines, hpast]
  have hedge : ∀ {stop}, v.AtEdge stop → v'.AtEdge stop := fun {stop} h => by rwa [AtEdge, hrest, hlen]
  refine ⟨fun stop hstop => ?_, fun stop hstop hnone => ?_, fun hnot hnone hnobody => ?_⟩
  · rw [hready] at hstop
    exact (hx.ready stop hstop).imp_left hedge
  · rw [hready] at hnone
    exact (hx.committing stop ((hphase stop).1 hstop) hnone).imp_left hedge
  · rw [hready] at hnone
    rw [hclosers] at hnobody
    obtain ⟨log, head, c, hd, hc, hat, hempty⟩ :=
      hx.cursor (fun stop h => hnot stop ((hphase stop).2 h)) hnone hnobody
    obtain ⟨log', hd'⟩ := hdisk log head hd
    refine ⟨log', head, c, hd', hc, hedge hat, ?_⟩
    rw [hpast, hrest, hlen, hseq]
    exact hempty

/-- When the ledger has settled more lines, their end is ready, and what was there before makes no difference. -/
theorem of_settled (h : Standing o v w)
    (hready : v.live.queue.ledger.ready = some (joined w.front).length) (hmore : 0 < w.front.length) :
    v.Exact := by
  have hpos : 0 < (joined w.front).length := by
    cases hfront : w.front with
    | nil =>
      rw [hfront] at hmore
      cases hmore
    | cons line ls => simp
  refine ⟨fun stop hstop => ?_, fun stop _ hnone => ?_, fun _ hnone _ => ?_⟩
  · rw [hready] at hstop
    cases hstop
    exact ⟨(h.atEdge_iff _).2 rfl, hpos⟩
  · rw [hready] at hnone
    cases hnone
  · rw [hready] at hnone
    cases hnone

/-- When the ledger has settled, the offset that is ready is the end of what it has settled. -/
theorem settled (hx : v.Exact) {w' : View} (h : Standing o v w) (h' : Standing o v' w')
    (hready : v'.live.queue.ledger.ready = v.live.queue.ledger.ready ∧ w'.past = w.past ∨
      v'.live.queue.ledger.ready = some (joined w'.front).length ∧ w.front.length < w'.front.length)
    (hclosers : v'.closers = v.closers) (hlines : v'.lines = v.lines)
    (hlen : v'.live.queue.journal.len = v.live.queue.journal.len)
    (hseq : v'.live.queue.journal.nextSeq = v.live.queue.journal.nextSeq) (hdisk : v'.live.disk = v.live.disk)
    (hphase : ∀ stop, v'.live.queue.phase = .committing stop ↔ v.live.queue.phase = .committing stop) : v'.Exact := by
  rcases hready with ⟨hsame, hpast⟩ | ⟨hnew, hmore⟩
  · have hpast' : v'.past = v.past := by rw [h'.past_eq, h.past_eq, hpast]
    exact hx.congr hsame hclosers hpast' hlines hlen hseq (fun log head hd => ⟨log, by rwa [hdisk]⟩) hphase
  · exact .of_settled h' hnew (Nat.zero_lt_of_lt hmore)

theorem store (hx : v.Exact) (h : Standing o v w) {l : Live} {now : Time.Stamp} {e : Event}
    {result : Except Failure (Option UInt64)} (happ : v.live.append now e = (l, result))
    (hresult : (∃ seq, result = .ok (some seq)) ∨ result = .error .broken) :
    Exact { v with live := l, lines := v.lines ++ [Envelope.body v.live.queue.journal.nextSeq now e] } := by
  obtain ⟨-, j, d, rfl, hd, hj, -⟩ := h.stored happ hresult
  obtain ⟨line, hline⟩ : ∃ line, line = Envelope.body v.live.queue.journal.nextSeq now e := ⟨_, rfl⟩
  rw [← hline] at hd hj ⊢
  have hpast : v.past ≤ v.lines.length := by
    rw [h.past_eq, h.whole, List.length_append]
    exact Nat.le_add_right _ _
  have hrest : rest { v with live := ⟨{ v.live.queue with journal := j }, d⟩, lines := v.lines ++ [line] } =
      v.rest ++ [line] := List.drop_append_of_le_length hpast
  have hlen : j.len = v.live.queue.journal.len + (joined [line]).length := by
    rw [hj.len, joined_append, List.length_append, h.journal.len]
  have hedge : ∀ {stop}, v.AtEdge stop →
      AtEdge { v with live := ⟨{ v.live.queue with journal := j }, d⟩, lines := v.lines ++ [line] } stop := by
    intro stop hstop
    rw [AtEdge] at hstop ⊢
    rw [hrest, joined_append, List.length_append, hlen]
    omega
  refine ⟨fun stop hstop => (hx.ready stop hstop).imp_left hedge,
    fun stop hstop hnone => (hx.committing stop hstop hnone).imp_left hedge, fun hnot hnone hnobody => ?_⟩
  obtain ⟨log, head, c, hd', hc, hat, -⟩ := hx.cursor hnot hnone hnobody
  obtain rfl : w.head = head := h.disk.head_unique hd'
  refine ⟨_, w.head, c, hd, hc, hedge hat, fun _ hnil => ?_⟩
  rw [hrest] at hnil
  simp at hnil

/-- The pump has moved the cursor. -/
theorem committed (hx : v.Exact) (h : Standing o v w) (hin : w.InPhase v v.live.queue.phase)
    (hsize : v.live.disk.log.length ≤ maxFileSize) {stop : Nat} (hphase : v.live.queue.phase = .committing stop)
    (hok : (v.live.queue.journal.commit stop v.live.disk).2.2 = none) {l : Live} (hstep : v.live.step? = some l) :
    Exact { v with live := l } := by
  rw [hphase] at hin
  obtain ⟨-, -, i, hi, hmark, hlt⟩ := hin
  rcases hcommit : v.live.queue.journal.commit stop v.live.disk with ⟨j, d, fault⟩
  rw [hcommit] at hok
  obtain rfl : fault = none := hok
  rw [Live.step?, hphase] at hstep
  simp only [hcommit, Option.isSome_none, Bool.false_eq_true, if_false, Option.some.injEq] at hstep
  subst hstep
  refine ⟨fun r hr => ?_, fun _ hstop => (by cases hstop), fun _ hnone _ => ?_⟩
  · -- something is ready by now, so this commit was not about the last line
    obtain ⟨hedge, hpos⟩ := hx.ready r hr
    refine ⟨?_, hpos⟩
    have hless := hlt (by rw [hr]; exact fun hne => by cases hne)
    obtain ⟨old, hold, -⟩ := h.cursor
    rw [hmark, ← h.mark_front hi] at hcommit
    rcases h.journal.commit_cases h.disk hold (h.le_lines hi) with
      ⟨j', d', head', fault, heq, -, -, hj, -⟩ | ⟨j', d', heq, hall, -⟩
    · rw [heq] at hcommit
      cases hcommit
      rw [AtEdge] at hedge ⊢
      rw [hj.len, ← h.journal.len]
      exact hedge
    · have hlast := ((h.journal.delivered_iff (h.le_lines hi)).1 hall).1
      rw [View.lines, List.length_append] at hlast
      omega
  · obtain ⟨hedge, hpos⟩ := hx.committing stop hphase hnone
    obtain ⟨log, head, c, hd, hc, hat, hempty⟩ := h.committed hsize hedge hpos hcommit
    exact ⟨log, head, c, hd, hc, hat, fun _ => hempty⟩

/-- Somebody who closes the queue takes what is ready. -/
theorem takes (hx : v.Exact) (hquiet : v.Quiet) (delete : Bool) :
    Exact { v with
      live := v.live.takeReady
      closers := v.live.queue.ledger.ready.toList.map (delete, ·) ++ v.closers } := by
  refine ⟨fun _ hr => (by cases hr), fun stop hstop => ?_, fun hnot _ hnobody => ?_⟩
  · rw [show v.live.takeReady.queue.phase = .stopped from hquiet.2] at hstop
    cases hstop
  · cases hready : v.live.queue.ledger.ready with
    | none =>
      rw [hready] at hnobody
      exact hx.cursor hnot hready hnobody
    | some stop =>
      rw [hready] at hnobody
      cases hnobody

/-- Somebody who closes the queue has done with an offset. If something is ready, the log is as long as before. -/
theorem finished (hx : v.Exact) (hquiet : v.Quiet) {j : Journal} {d : Disk} {closers : List (Bool × Nat)}
    (hlen : v.live.queue.ledger.ready ≠ none → j.len = v.live.queue.journal.len)
    (hcursor : v.live.queue.ledger.ready = none → closers = [] →
      CursorAtEdge { v with live := ⟨{ v.live.queue with journal := j }, d⟩, closers := closers }) :
    Exact { v with live := ⟨{ v.live.queue with journal := j }, d⟩, closers := closers } := by
  refine ⟨fun stop hstop => ?_, fun stop hstop => ?_, fun _ hnone hnobody => hcursor hnone hnobody⟩
  · obtain ⟨hedge, hpos⟩ := hx.ready stop hstop
    refine ⟨?_, hpos⟩
    rw [AtEdge] at hedge ⊢
    rw [hlen (by rw [show v.live.queue.ledger.ready = some stop from hstop]; exact Option.some_ne_none _)]
    exact hedge
  · rw [show ({ v.live.queue with journal := j } : Queue).phase = .stopped from hquiet.2] at hstop
    cases hstop

/-- A step of the pump. -/
theorem pump (hx : v.Exact) (h : Standing o v w) (hin : w.InPhase v v.live.queue.phase)
    (hsize : v.live.disk.log.length ≤ maxFileSize) {l : Live} (hstep : v.live.step? = some l)
    (hok : ∀ stop, v.live.queue.phase = .committing stop →
      (v.live.queue.journal.commit stop v.live.disk).2.2 = none) : (v.pumped l).Exact := by
  have hlive := (pumped_same v l).1
  cases Live.turn_of_step? hstep with
  | takes hphase hready =>
    rw [Service.pumped, hphase]
    refine ⟨fun _ hr => (by cases hr), fun stop hstop _ => ?_, fun hnot _ _ => absurd rfl (hnot _)⟩
    cases hstop
    exact hx.ready _ hready
  | commits hphase hcommit =>
    have hcommitted := hx.committed h hin hsize hphase (hok _ hphase) hstep
    rw [Service.pumped, hphase]
    exact hcommitted
  | passesOver hphase hpeek hdecode =>
    rw [hphase] at hin
    obtain ⟨w', h', -, -, -, -, hready⟩ := h.passedOver hin.2 hpeek hdecode
    rw [Service.pumped, hphase]
    exact hx.settled h { h' with } hready rfl rfl rfl rfl rfl (fun stop => by simp [hphase])
  | handsOut hphase =>
    rw [Service.pumped, hphase]
    refine hx.congr rfl rfl ?_ rfl rfl rfl (fun log head hd => ⟨log, hd⟩) (fun stop => by simp [hphase])
    simp only [past, Ledger.handedOut, List.length_append, List.length_singleton, reduceCtorEq, if_false,
      Nat.add_sub_add_right]
  | still hstill =>
    exact hx.congr (by rw [hlive, hstill.ledger]) (pumped_closers v l) (past_pumped hstill) (pumped_same v l).2.2.2.2
      (by rw [hlive, hstill.len]) (by rw [hlive, hstill.nextSeq])
      (fun log head hd => ⟨log, by rwa [hlive, hstill.disk]⟩)
      (fun stop => iff_of_false (by rw [hlive]; exact hstill.after stop) (hstill.before stop))

end Exact

/-- As long as something is ready nobody who closes the queue holds the end of the log. -/
theorem Closers.lt_len (h : Closers v w) (hcore : Standing o v w) {x : Bool × Nat} (hx : x ∈ v.closers)
    (hready : v.live.queue.ledger.ready ≠ none) : x.2 < v.live.queue.journal.len := by
  obtain ⟨i, hi, hmark, hlt⟩ := h.taken x hx
  have hle := hcore.le_lines (Nat.le_refl w.front.length)
  have hend : i < w.lines.length := (hlt hready).trans_le hle
  have hless : mark w.lines i < mark w.lines w.lines.length := mark_lt hend hend
  rw [mark_length, ← hcore.journal.len, hcore.mark_front hi, ← hmark] at hless
  omega

namespace Exact

/-- Every step, if the pump writes the cursor when it is to be written, and the last of those who close the queue
leaves it where it should be. -/
theorem step (hx : v.Exact) (hs : Sound o v) (hsize : v.live.disk.log.length ≤ maxFileSize) {a : Happening}
    (hstep : Step v a v') (hthere' : v'.gone = false)
    (hpump : ∀ stop, v.live.queue.phase = .committing stop → v'.live.queue.phase ≠ .committing stop →
      (v.live.queue.journal.commit stop v.live.disk).2.2 = none ∧ v.live.step? = some v'.live)
    (hclose : v.Quiet → v.closers ≠ [] → v'.live.queue.ledger.ready = none → v'.closers = [] → v'.CursorAtEdge) :
    v'.Exact := by
  have hthere := hstep.there hthere'
  cases hs with
  | gone hgone =>
    rw [hthere] at hgone
    cases hgone
  | standing w _ hcore hin hlanes hclosers =>
    cases hstep with
    | accepted _ happ =>
      rw [(Live.append_ok happ).1]
      exact hx.store hcore happ (.inl ⟨_, rfl⟩)
    | untold _ happ => exact hx.store hcore happ (.inr rfl)
    | refused happ =>
      obtain ⟨d, rfl, hd⟩ := hcore.refused happ
      exact hx.congr rfl rfl rfl rfl rfl rfl
        (fun log head hd' => ⟨_, hcore.disk.head_unique hd' ▸ hd⟩) (fun _ => Iff.rfl)
    | @refusedPartly now e n k hvalid _ =>
      obtain ⟨extra, hd, -⟩ := hcore.broken (e := e) hvalid n k
      exact hx.congr rfl rfl rfl rfl rfl rfl
        (fun log head hd' => ⟨_, hcore.disk.head_unique hd' ▸ hd⟩) (fun _ => Iff.rfl)
    | @pumped l hgoes =>
      refine hx.pump hcore hin hsize hgoes fun stop hphase => (hpump stop hphase ?_).1
      rw [(pumped_same v l).1]
      rw [Live.step?, hphase] at hgoes
      cases hgoes
      exact fun h => (by cases h)
    | @pumpedFailing stop n k hphase =>
      have hphase' : (v.live.commitFailing n k stop).queue.phase = .reading := rfl
      obtain ⟨hok, hgoes⟩ := hpump _ hphase (by simp [hphase'])
      exact hx.committed hcore hin hsize hphase hok hgoes
    | waited =>
      unfold Live.tick
      split
      next hphase =>
        exact hx.congr rfl rfl rfl rfl rfl rfl (fun log _ hd => ⟨log, hd⟩) (fun stop => by simp [hphase])
      next => exact hx
    | took ht =>
      obtain ⟨⟨keys, power, rfl⟩, -, -⟩ := Live.take?_eq ht
      exact hx.congr rfl rfl rfl rfl rfl rfl (fun log _ hd => ⟨log, hd⟩) (fun _ => Iff.rfl)
    | received hheld =>
      obtain ⟨w', hcore', -, -, -, -, hready⟩ := hcore.received hin hlanes hheld
      exact hx.settled hcore hcore' hready rfl rfl rfl rfl rfl (fun _ => Iff.rfl)
    | takes delete hquiet => exact hx.takes hquiet delete
    | @closed stop hmem =>
      have hheld := List.ne_nil_of_mem hmem
      refine hx.finished (hclosers.quiet hheld) (fun hready => ?_) (hclose (hclosers.quiet hheld) hheld)
      have hlt : stop < v.live.queue.journal.len := hclosers.lt_len hcore hmem hready
      rcases v.live.queue.journal.len_commit stop v.live.disk with ⟨hlen, -⟩ | ⟨⟨hle, -⟩, -⟩
      · exact hlen
      · omega
    | @closedFailing stop n k hmem =>
      have hheld := List.ne_nil_of_mem hmem
      exact hx.finished (hclosers.quiet hheld) (fun _ => Journal.len_commitFailing n k _ stop _)
        (hclose (hclosers.quiet hheld) hheld)
    | removed => cases hthere'
    | _ => exact hx.congr rfl rfl rfl rfl rfl rfl (fun log _ hd => ⟨log, hd⟩) (fun _ => Iff.rfl)

end Exact

/-! ### Nothing is settled -/

/-- Nothing is settled or taken, and the cursor stays as it is. When the queue is closed and the pump has stopped,
nothing happens to the log either. -/
structure Unmoved (v v' : Service) : Prop where
  /-- As many lines as before are no longer in the ledger. -/
  past : v'.past = v.past
  /-- Nothing is ready. -/
  ready : v'.live.queue.ledger.ready = none
  /-- Nothing is being committed. -/
  phase : ∀ stop, v'.live.queue.phase ≠ .committing stop
  /-- The cursor. -/
  head : ∀ log head, v.live.disk.Stands log head → ∃ log', v'.live.disk.Stands log' head
  /-- The log. -/
  still : v.Quiet → v'.live.disk = v.live.disk ∧ v'.live.queue.journal = v.live.queue.journal ∧ v'.lines = v.lines

theorem Unmoved.same (hready : v.live.queue.ledger.ready = none)
    (hphase : ∀ stop, v.live.queue.phase ≠ .committing stop) : v.Unmoved v :=
  ⟨rfl, hready, hphase, fun log _ hd => ⟨log, hd⟩, fun _ => ⟨rfl, rfl, rfl⟩⟩

/-- Where nothing is ready, being committed or taken, a step leaves the cursor alone, or more lines are settled and
their end is ready. Once the pump has stopped only a receipt does that. -/
theorem Step.unmoved_or_exact {a : Happening} (hstep : Step v a v') (hs : Sound o v) (hthere' : v'.gone = false)
    (hready : v.live.queue.ledger.ready = none) (hphase : ∀ stop, v.live.queue.phase ≠ .committing stop)
    (hclosers : v'.closers = v.closers) :
    v.Unmoved v' ∨ v'.past ≠ v.past ∧ v'.Exact ∧ (v.Quiet → ∃ i e, a = .received i e) := by
  have hthere := hstep.there hthere'
  have herase : ∀ {stop}, (false, stop) ∈ v.closers → v.closers.erase (false, stop) ≠ v.closers := by
    intro stop hmem heq
    have hlen := List.length_erase_of_mem hmem
    rw [heq] at hlen
    have := List.length_pos_of_mem hmem
    omega
  cases hs with
  | gone hgone =>
    rw [hthere] at hgone
    cases hgone
  | standing w _ hcore hin hlanes _ =>
    have hmore : ∀ {u : Service} {w' : View} {ls : List Bytes}, Standing o u w' →
        w'.front ++ w'.opens = w.front ++ ls → w'.past ++ w'.opens = w.past ++ ls →
        w.front.length < w'.front.length → u.past ≠ v.past := by
      intro u w' ls h' hfront hpast hless
      have h1 := congrArg List.length hfront
      have h2 := congrArg List.length hpast
      rw [List.length_append, List.length_append] at h1 h2
      rw [h'.past_eq, hcore.past_eq]
      omega
    cases hstep with
    | accepted _ happ =>
      obtain ⟨hopen, j, d, rfl, hd, -⟩ := hcore.stored happ (.inl ⟨_, rfl⟩)
      exact .inl ⟨rfl, hready, hphase, fun _ _ hd' => ⟨_, hcore.disk.head_unique hd' ▸ hd⟩,
        fun hquiet => absurd hopen (by rw [hquiet.1]; simp)⟩
    | untold _ happ =>
      obtain ⟨hopen, j, d, rfl, hd, -⟩ := hcore.stored happ (.inr rfl)
      exact .inl ⟨rfl, hready, hphase, fun _ _ hd' => ⟨_, hcore.disk.head_unique hd' ▸ hd⟩,
        fun hquiet => absurd hopen (by rw [hquiet.1]; simp)⟩
    | @refused _ now e cause happ =>
      have hgoes : ¬ v.Quiet := fun hquiet => by
        rw [Live.append, if_pos hquiet.1] at happ
        cases happ
      obtain ⟨d, rfl, hd⟩ := hcore.refused happ
      exact .inl ⟨rfl, hready, hphase, fun _ _ hd' => ⟨_, hcore.disk.head_unique hd' ▸ hd⟩,
        fun hquiet => absurd hquiet hgoes⟩
    | @refusedPartly now e n k hvalid hopen =>
      obtain ⟨extra, hd, -⟩ := hcore.broken (e := e) hvalid n k
      exact .inl ⟨rfl, hready, hphase, fun _ _ hd' => ⟨_, hcore.disk.head_unique hd' ▸ hd⟩,
        fun hquiet => absurd hopen (by rw [hquiet.1]; simp)⟩
    | @pumped l hpump =>
      have hlive := (pumped_same v l).1
      have hgoes : ¬ v.Quiet := fun hquiet => by
        rw [Live.step?, hquiet.2] at hpump
        cases hpump
      cases Live.turn_of_step? hpump with
      | takes _ hsome =>
        rw [hready] at hsome
        cases hsome
      | commits hcommitting => exact absurd hcommitting (hphase _)
      | passesOver hreading hpeek hdecode =>
        rw [hreading] at hin
        obtain ⟨w', hcore', hfront, hpast, -, -, ⟨hsame, hpast'⟩ | ⟨hnew, hless⟩⟩ :=
          hcore.passedOver hin.2 hpeek hdecode
        · rw [Service.pumped, hreading]
          refine .inl ⟨?_, hsame.trans hready, fun _ h => (by cases h), fun log _ hd => ⟨log, hd⟩,
            fun hquiet => absurd hquiet hgoes⟩
          have hpast'' := hcore'.past_eq
          rw [hpast', ← hcore.past_eq] at hpast''
          exact hpast''
        · rw [Service.pumped, hreading]
          have hread : Standing o { v with
              live.queue.ledger := v.live.queue.ledger.passedOver _
              live.queue.phase := .moving _
              count := v.count + 1 } w' := { hcore' with }
          exact .inr ⟨hmore hread hfront hpast hless, .of_settled hread hnew (Nat.zero_lt_of_lt hless),
            fun hquiet => absurd hquiet hgoes⟩
      | handsOut hreading =>
        rw [Service.pumped, hreading]
        refine .inl ⟨?_, hready, fun _ h => (by cases h), fun log _ hd => ⟨log, hd⟩,
          fun hquiet => absurd hquiet hgoes⟩
        simp only [past, Ledger.handedOut, List.length_append, List.length_singleton, reduceCtorEq, if_false,
          Nat.add_sub_add_right]
      | still hstill =>
        refine .inl ⟨(past_pumped hstill), ?_, ?_, ?_, fun hquiet => absurd hquiet hgoes⟩
        · rw [hlive, hstill.ledger]
          exact hready
        · rw [hlive]
          exact hstill.after
        · rw [hlive, hstill.disk]
          exact fun log _ hd => ⟨log, hd⟩
    | pumpedFailing n k hcommitting => exact absurd hcommitting (hphase _)
    | waited =>
      unfold Live.tick
      split
      next hidle =>
        refine .inl ⟨rfl, hready, fun _ h => (by cases h), fun log _ hd => ⟨log, hd⟩, fun hquiet => ?_⟩
        rw [hquiet.2] at hidle
        cases hidle
      next => exact .inl (.same hready hphase)
    | took ht =>
      obtain ⟨⟨keys, power, rfl⟩, -, -⟩ := Live.take?_eq ht
      exact .inl ⟨rfl, hready, hphase, fun log _ hd => ⟨log, hd⟩, fun _ => ⟨rfl, rfl, rfl⟩⟩
    | received hheld =>
      obtain ⟨w', hcore', hfront, hpast, -, -, ⟨hsame, hpast'⟩ | ⟨hnew, hless⟩⟩ := hcore.received hin hlanes hheld
      · exact .inl ⟨by rw [hcore'.past_eq, hcore.past_eq, hpast'], hsame.trans hready, hphase,
          fun log _ hd => ⟨log, hd⟩, fun _ => ⟨rfl, rfl, rfl⟩⟩
      · exact .inr ⟨hmore hcore' hfront hpast hless, .of_settled hcore' hnew (Nat.zero_lt_of_lt hless),
          fun _ => ⟨_, _, rfl⟩⟩
    | takes => exact .inl ⟨rfl, rfl, hphase, fun log _ hd => ⟨log, hd⟩, fun _ => ⟨rfl, rfl, rfl⟩⟩
    | closed hmem => exact absurd hclosers (herase hmem)
    | closedFailing n k hmem => exact absurd hclosers (herase hmem)
    | removed => cases hthere'
    | _ => exact .inl ⟨rfl, hready, hphase, fun log _ hd => ⟨log, hd⟩, fun _ => ⟨rfl, rfl, rfl⟩⟩

/-! ### One who closes the queue at a time -/

theorem Sole.nobody (h : v.closers = []) : v.Sole := .inl h

/-- While nothing is received when somebody holds an offset, at most one offset is held. -/
theorem Sole.step (h : v.Sole) (hx : v.Exact) (hs : Sound o v) {a : Happening} (hstep : Step v a v')
    (hthere' : v'.gone = false) (hun : v.closers ≠ [] → Unreceived v a v') : v'.Sole := by
  rcases hstep.closers_cases with hsame | ⟨hquiet, delete, rfl⟩ | ⟨stop, j, d, hmem, rfl⟩
  · rcases h with hnone | ⟨x, hone, hready, hedge, hpos⟩
    · exact .inl (hsame.trans hnone)
    · have hheld : v.closers ≠ [] := by rw [hone]; simp
      have hquiet := hs.quiet hheld
      rcases hstep.unmoved_or_exact hs hthere' hready hquiet.not_committing hsame with
        hunmoved | ⟨-, -, hreceived⟩
      · obtain ⟨-, hjournal, hlines⟩ := hunmoved.still hquiet
        refine .inr ⟨x, hsame.trans hone, hunmoved.ready, ?_, hpos⟩
        rw [AtEdge, rest, hunmoved.past, hlines, hjournal]
        exact hedge
      · obtain ⟨i, e, heq⟩ := hreceived hquiet
        exact absurd heq (hun hheld i e)
  · cases hready : v.live.queue.ledger.ready with
    | none =>
      rcases h with hnone | ⟨x, hone, -, hedge, hpos⟩
      · exact .inl hnone
      · exact .inr ⟨x, hone, rfl, hedge, hpos⟩
    | some stop =>
      rcases h with hnone | ⟨x, -, hnone, -⟩
      · refine .inr ⟨(delete, stop), ?_, rfl, hx.ready stop hready⟩
        rw [hnone]
        rfl
      · rw [hready] at hnone
        cases hnone
  · rcases h with hnone | ⟨x, hone, -⟩
    · rw [hnone] at hmem
      cases hmem
    · refine .inl ?_
      rw [hone] at hmem ⊢
      rw [List.mem_singleton.1 hmem, List.erase_cons_head]

/-- When the last who held an offset has written it the cursor is exact. -/
theorem Sole.cursorAtEdge (h : v.Sole) (hs : Sound o v) (hsize : v.live.disk.log.length ≤ maxFileSize) {a : Happening}
    (hstep : Step v a v') (hw : Written v a v') (hthere' : v'.gone = false) (hheld : v.closers ≠ [])
    (hnobody : v'.closers = []) : v'.CursorAtEdge := by
  rcases hstep.closers_cases with hsame | ⟨-, delete, rfl⟩ | ⟨stop, j, d, hmem, rfl⟩
  · exact absurd (hsame.symm.trans hnobody) hheld
  · exact absurd (List.append_eq_nil_iff.1 hnobody).2 hheld
  · rcases h with hnone | ⟨x, hone, -, hedge, hpos⟩
    · exact absurd hnone hheld
    · rw [hone] at hmem
      obtain rfl := List.mem_singleton.1 hmem
      obtain ⟨hok, hend⟩ := hw.close stop (by rw [hone]; exact hmem) rfl
      cases hs with
      | gone hgone =>
        rw [hgone] at hthere'
        cases hthere'
      | standing w _ hcore _ _ _ =>
        rcases hcommit : v.live.queue.journal.commit stop v.live.disk with ⟨j', d', fault⟩
        rw [hcommit] at hok
        obtain rfl : fault = none := hok
        have hend' : (v.live.endClose false (some stop)).1 = ⟨{ v.live.queue with journal := j' }, d'⟩ := by
          rw [Live.endClose, if_neg Bool.false_ne_true]
          simp only [hcommit]
        rw [hend'] at hend
        cases hend
        obtain ⟨log, head, c, hd, hc, hat, hempty⟩ := hcore.committed hsize hedge hpos hcommit
        exact ⟨log, head, c, hd, hc, hat, fun _ => hempty⟩

/-- Every step in which the cursor is written if it is to be, while at most one offset is held. -/
theorem Exact.written (hx : v.Exact) (h : v.Sole) (hs : Sound o v) (hsize : v.live.disk.log.length ≤ maxFileSize)
    {a : Happening} (hstep : Step v a v') (hw : Written v a v') (hthere' : v'.gone = false) : v'.Exact :=
  hx.step hs hsize hstep hthere' hw.pump fun _ hheld _ hnobody =>
    h.cursorAtEdge hs hsize hstep hw hthere' hheld hnobody

end Service
end CecRelay
