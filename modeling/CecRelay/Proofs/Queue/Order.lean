import CecRelay.Proofs.Queue.Closing

/-!
# The order of events

What is received of a stream are the first events of its lines, in the order of the log; closing leaves
what has been put into the lanes and adds nothing to it; and the next queue on the folder starts no later
than at the first event of each stream that has not been received, unless a cursor that opening has
refused counts by then (`Service.Reaches.in_order`). It reads what an append has left behind the lines that
broke off, and it cannot be opened behind the greatest number of all.
-/

namespace CecRelay

open Lines

namespace Service

/-- What is left of a list is an end of its second part when the first part is gone. -/
theorem drop_suffix_iff {α : Type} (xs ys : List α) (n : Nat) : (xs ++ ys).drop n <:+ ys ↔ xs.length ≤ n := by
  constructor
  · intro h
    have hlen := h.length_le
    rw [List.length_drop, List.length_append] at hlen
    omega
  · intro h
    rw [List.drop_append, List.drop_eq_nil_of_le h, List.nil_append]
    exact List.drop_suffix _ _

variable {o : Origin} {v : Service} {w : View}

namespace Standing

/-- All in front of the ledger that has been read since opening has been received. -/
theorem events_front_le (h : Standing o v w) (hbefore : o.before = []) (i : Nat) (s : Stream) :
    (events s (w.front.take i)).length ≤ (v.got s).length := by
  obtain ⟨more, hmore⟩ := h.front
  rw [hbefore, List.nil_append] at hmore
  have hpast : (events s w.past).length = (events s more).length + (events s w.front).length := by
    rw [← hmore, events_append, List.length_append]
  have hfront : (events s w.front).length =
      (events s (w.front.take i)).length + (events s (w.front.drop i)).length := by
    rw [← List.length_append, ← events_append, List.take_append_drop]
  rw [h.got s]
  omega

/-- What has not been received is in the lines from the ledger on. -/
theorem left_suffix (h : Standing o v w) (s : Stream) :
    (events s (v.lines ++ v.left)).drop (v.got s).length <:+ events s (w.opens ++ w.unread ++ v.left) := by
  rw [h.whole, List.append_assoc w.past, events_append, drop_suffix_iff, h.got s]
  exact Nat.le_add_right _ _

/-- From a cursor in front of the ledger the next queue leaves out nothing that has not been received. -/
theorem next_of_mark (h : Standing o v w) {c : Cursor} {i : Nat} (hi : i ≤ w.front.length)
    (hc : c.offset = mark w.front i) :
    (∀ s, (events s (v.lines ++ v.left)).drop (v.got s).length <:+
      events s (Lines.lines (w.log.drop (Journal.startOffset w.log c)))) ∧
    (o.before = [] → ∀ s, (events s (Lines.lines (w.log.take c.offset))).length ≤ (v.got s).length) := by
  obtain ⟨hstart, hfront, hnext⟩ := h.lines_next hi hc
  rw [hstart, hfront, hnext]
  constructor
  · intro s
    rw [List.append_assoc, events_append s (w.front.drop i)]
    exact (h.left_suffix s).trans (List.suffix_append _ _)
  · exact fun hbefore s => h.events_front_le hbefore i s

/-- While every line since opening is in the log, it hangs on the cursor what the next queue leaves out. -/
theorem next_of_past (h : Standing o v w) (hall : w.front = w.past) (c : Cursor) :
    (∀ s, (events s (v.lines ++ v.left)).drop (v.got s).length <:+
      events s (Lines.lines (w.log.drop (Journal.startOffset w.log c)))) ↔
    ¬ (Journal.startOffset w.log c = c.offset ∧
      ∃ s, (v.got s).length < (events s (Lines.lines (w.log.take c.offset))).length) := by
  have hlines : Lines.lines w.log = v.lines ++ v.left := by rw [h.lines_log, View.lines, hall, h.whole]
  obtain ⟨k, -, hstart, hmark | ⟨rfl, hnone⟩⟩ := Journal.exists_startOffset w.log c
  · have hparts : ∀ s, (events s (v.lines ++ v.left)).drop (v.got s).length <:+
        events s ((Lines.lines w.log).drop k) ↔
        (events s ((Lines.lines w.log).take k)).length ≤ (v.got s).length := by
      intro s
      rw [← drop_suffix_iff _ (events s ((Lines.lines w.log).drop k)), ← events_append, List.take_append_drop,
        hlines]
    rw [hstart, hmark, lines_drop_mark, lines_take_mark, forall_congr' hparts]
    constructor
    · rintro hle ⟨-, s, hless⟩
      exact absurd (hle s) (Nat.not_le.2 hless)
    · intro hstale s
      by_contra hmore
      exact hstale ⟨rfl, s, Nat.not_le.1 hmore⟩
  · rw [hstart, mark_zero, List.drop_zero, hlines]
    refine iff_of_true (fun s => List.drop_suffix _ _) ?_
    rintro ⟨hzero, -⟩
    exact hnone 0 (hzero.symm.trans (mark_zero _).symm)

end Standing

/-- What has not been received is in the log. -/
theorem Sound.left_suffix (h : Sound o v) (hthere : v.gone = false) (s : Stream) :
    (events s (v.lines ++ v.left)).drop (v.got s).length <:+ events s (Lines.lines v.live.disk.log) := by
  cases h with
  | gone hgone =>
    rw [hthere] at hgone
    cases hgone
  | standing w _ hcore =>
    rw [hcore.disk.log_eq, hcore.lines_log, View.lines, List.append_assoc, events_append s w.front]
    exact (hcore.left_suffix s).trans (List.suffix_append _ _)

/-- The next queue leaves out an event that has not been received when the cursor that opening has refused
is still there, counts by now, and is behind such an event. -/
theorem Sound.next_iff {f : Folder} {log : Bytes} {c : Cursor} (hc : Cursor.ofEntry f.head = .ok c)
    (h : Sound (.found f log c) v) (hthere : v.gone = false) :
    ∃ f' log' c', v.live.disk.place.Finds f' log' c' ∧
      ((∀ s, (events s (v.lines ++ v.left)).drop (v.got s).length <:+
          events s (Lines.lines (log'.drop (Journal.startOffset log' c')))) ↔
        ¬ (Journal.startOffset log c ≠ c.offset ∧ f'.head = f.head ∧ Journal.startOffset log' c = c.offset ∧
          ∃ s, (v.got s).length < (events s (Lines.lines (log'.take c.offset))).length)) := by
  cases h with
  | gone hgone _ _ _ =>
    rw [hthere] at hgone
    cases hgone
  | standing w _ hcore _ _ _ =>
    obtain ⟨c', hc', hcursor⟩ := hcore.cursor
    obtain ⟨f', hf', hhead⟩ := hcore.disk.finds hc'
    have hsame : f'.head = f.head → c' = c := by
      intro heq
      rw [← hhead, heq, hc] at hc'
      cases hc'
      rfl
    refine ⟨f', w.log, c', hf', ?_⟩
    rcases hcursor with ⟨i, hi, hmark⟩ | ⟨hrefused, hstill, -, hall⟩
    · obtain ⟨hnext, hle⟩ := hcore.next_of_mark hi hmark
      refine iff_of_true hnext ?_
      rintro ⟨hrefused, heq, -, s, hmore⟩
      obtain rfl := hsame heq
      exact absurd (hle (Origin.before_found hrefused) s) (Nat.not_le.2 hmore)
    · have heq : f'.head = f.head := hhead.trans hstill
      obtain rfl := hsame heq
      rw [hcore.next_of_past hall c']
      constructor
      · rintro hnot ⟨-, -, hcounts, hmore⟩
        exact hnot ⟨hcounts, hmore⟩
      · rintro hnot ⟨hcounts, hmore⟩
        exact hnot ⟨hrefused, heq, hcounts, hmore⟩

/-- A queue is opened on any folder, with lanes of any length, and takes any steps. What has been received
of a stream are the first events of its lines. Closing puts nothing into the lanes and stops the pump;
from then on what is left in the lanes is taken in order, and nothing else. The next queue on the folder
leaves out no event that has not been received, unless the cursor that opening has refused is still there,
counts by now, and is behind such an event. It can be opened unless the last number it would read is the
greatest of all. -/
theorem Reaches.in_order {place place' : Place} {f : Folder} {log : Bytes} {c : Cursor}
    (h : place.Finds f log c) {path : String} {capacity : Nat} {q : Queue}
    (hopen : Queue.open? path capacity place = (place', .ok q)) (hv : Reaches (start ⟨q, ⟨place', none⟩⟩) v) :
    (∀ s, (v.got s).map Prod.snd <+: events s v.lines) ∧
    (∀ delete, ∃ v', Reaches v v' ∧ v'.live = (v.live.close delete).1 ∧
      v'.live.queue.cancelled = true ∧ v'.live.ended = true ∧
      v'.handed = v.handed ∧ v'.got = v.got ∧ v'.held = v.held) ∧
    (v.live.queue.cancelled = true → ∀ v', Reaches v v' →
      v'.handed = v.handed ∧ (v.live.ended = true → v'.live.ended = true) ∧
      ∀ s, v'.got s ++ v'.held s <+: v.handed s ∧
        (v'.live.queue.listening = true → (v'.live.take? s).map Prod.fst =
          ((v.handed s).drop (v'.got s ++ v'.held s).length).head?.map Prod.snd)) ∧
    (v.gone = false → ∃ f' log' c', v.live.disk.place.Finds f' log' c' ∧
      (v.live.disk.place.HandsOut (Lines.lines (log'.drop (Journal.startOffset log' c'))) ↔
        Journal.lastSeq? (Lines.lines (log'.drop (Journal.startOffset log' c'))) ≠ some Journal.greatest) ∧
      ((∀ s, (events s (v.lines ++ v.left)).drop (v.got s).length <:+
          events s (Lines.lines (log'.drop (Journal.startOffset log' c')))) ↔
        ¬ (Journal.startOffset log c ≠ c.offset ∧ f'.head = f.head ∧ Journal.startOffset log' c = c.offset ∧
          ∃ s, (v.got s).length < (events s (Lines.lines (log'.take c.offset))).length))) := by
  have hsound := hv.sound (sound_start h hopen)
  refine ⟨hsound.got_prefix, exists_reaches_close v, ?_, ?_⟩
  · intro hc v' hrun
    have hlanes := (hrun.sound hsound).lanes
    obtain ⟨-, hhanded, hstopped⟩ := hrun.cancelled hc
    refine ⟨hhanded, ?_, fun s => ?_⟩
    · simp only [Live.ended, decide_eq_true_iff]
      exact hstopped
    · rw [← hhanded]
      exact ⟨hlanes.taken s, fun hl => hlanes.take? hl s⟩
  · intro hthere
    obtain ⟨f', log', c', hf', hiff⟩ := hsound.next_iff h.cursor hthere
    exact ⟨f', log', c', hf', hf'.offers.handsOut_iff, hiff⟩

/-! ### A cursor that counts by mistake -/

/-- A folder with a log, and a cursor that says that 112 bytes have been delivered. -/
def staleFolder (log : Option Entry) : Folder := { log := log, head := some (.file (Cursor.bytes ⟨112, 0⟩)) }

theorem finds_stale : Place.Finds (.folder (staleFolder none)) (staleFolder (some (.file []))) [] ⟨112, 0⟩ := by
  have hcursor : Cursor.ofEntry (some (.file (Cursor.bytes ⟨112, 0⟩))) = .ok ⟨112, 0⟩ := by
    rw [Cursor.ofEntry_bytes]
    rfl
  exact ⟨⟨_, rfl, rfl⟩, hcursor⟩

theorem open_stale : Queue.open? "q" 1 (.folder (staleFolder none)) =
    (.folder (staleFolder (some (.file []))), .ok (.ofJournal ⟨{}, 0, 0, 0⟩ 1)) := by
  rw [Queue.open?, finds_stale.open_eq]
  rfl

/-- A key is appended. Its line is 112 bytes long. -/
theorem append_stale :
    Live.append ⟨.ofJournal ⟨{}, 0, 0, 0⟩ 1, ⟨.folder (staleFolder (some (.file []))), none⟩⟩
      ⟨⟨2024, 1, 1⟩, 0, 0, 0, 123456789⟩ (.key ⟨1, 0⟩) =
    (⟨.ofJournal ⟨{}, 0, 112, 1⟩ 1, ⟨.folder (staleFolder (some (.file Store.keyLine))), none⟩⟩,
      .ok (some 0)) := by
  have hkey := Store.append_keyLine (staleFolder (some (.file []))) rfl
  simp only [Live.append, Queue.ofJournal, hkey]
  rfl

theorem events_keyLine : events .keys (Lines.lines (Store.keyLine.take 112)) = [.key ⟨1, 0⟩] := by
  have hvalid : Time.Stamp.Valid ⟨⟨2024, 1, 1⟩, 0, 0, 0, 123456789⟩ := by decide
  have htake := lines_take_mark Store.keyLine 1
  rw [Store.mark_keyLine, Store.lines_keyLine] at htake
  rw [htake, List.take_succ_cons, events_cons_some (Envelope.decode?_body _ _ hvalid)]
  rfl

/-- A key is accepted on an empty log, on a cursor that was there before and says that 112 bytes have been
delivered. The line is 112 bytes long, and the next queue leaves the key out. -/
theorem Reaches.out_of_order :
    let place : Place := .folder { head := some (.file (Cursor.bytes ⟨112, 0⟩)) }
    let f : Folder := { log := some (.file []), head := some (.file (Cursor.bytes ⟨112, 0⟩)) }
    let q : Queue := .ofJournal ⟨{}, 0, 0, 0⟩ 1
    place.Finds f [] ⟨112, 0⟩ ∧ Queue.open? "q" 1 place = (.folder f, .ok q) ∧
    ∃ v, Reaches (start ⟨q, ⟨.folder f, none⟩⟩) v ∧ v.gone = false ∧
      ∃ f' log' c', v.live.disk.place.Finds f' log' c' ∧
        v.live.disk.place.HandsOut (Lines.lines (log'.drop (Journal.startOffset log' c'))) ∧
        ¬ ∀ s, (events s (v.lines ++ v.left)).drop (v.got s).length <:+
          events s (Lines.lines (log'.drop (Journal.startOffset log' c'))) := by
  intro place f q
  have hvalid : Time.Stamp.Valid ⟨⟨2024, 1, 1⟩, 0, 0, 0, 123456789⟩ := by decide
  have hfinds : place.Finds f [] ⟨112, 0⟩ := finds_stale
  have hopen : Queue.open? "q" 1 place = (.folder f, .ok q) := open_stale
  have hrun := Reaches.step .refl (Step.accepted (v := start ⟨q, ⟨.folder f, none⟩⟩) hvalid append_stale)
  obtain ⟨-, -, -, hnext⟩ := hrun.in_order hfinds hopen
  obtain ⟨f', log', c', hf', hout, hiff⟩ := hnext rfl
  obtain ⟨f₀, hfolder, hlog⟩ := hf'.folder
  cases hfolder
  cases hlog
  have hc := hf'.cursor.symm.trans finds_stale.cursor
  cases hc
  have hnone : Lines.lines (Store.keyLine.drop (Journal.startOffset Store.keyLine ⟨112, 0⟩)) = [] := by
    rw [Store.startOffset_keyLine, ← Store.mark_keyLine, lines_drop_mark, Store.lines_keyLine]
    rfl
  refine ⟨hfinds, hopen, _, hrun, rfl, _, _, _, hf',
    hout.2 (by rw [hnone]; exact (Option.some_ne_none _).symm),
    fun hall => hiff.1 hall ⟨by decide, rfl, Store.startOffset_keyLine, .keys, ?_⟩⟩
  rw [events_keyLine]
  exact Nat.zero_lt_one

end Service
end CecRelay
