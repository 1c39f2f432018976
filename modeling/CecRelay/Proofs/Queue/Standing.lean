import CecRelay.Proofs.Queue.Service

/-!
# What the lanes, the cursor and the ledger keep

The parts of `Service.Sound`, each with one lemma for each thing that happens to it. Events are taken out
of the lanes, marked as received and put in (`Service.Lanes`). The cursor moves or cannot be written, the
ledger settles and takes receipts, the pump reads a line and the log grows (`Service.Standing`).
-/

namespace CecRelay

open Lines

/-! ### Waiting, taking and appending -/

/-- When the pump has waited as long as it waits, its phase may be another. -/
theorem Live.tick_eq (l : Live) : ∃ phase, l.tick = { l with queue := { l.queue with phase := phase } } := by
  unfold tick
  split
  · exact ⟨.top, rfl⟩
  · exact ⟨l.queue.phase, rfl⟩

/-- Taking an event changes the lane of its stream and nothing else. -/
theorem Live.take?_eq {l l' : Live} {s : Stream} {e : Event} (h : l.take? s = some (e, l')) :
    (∃ keys power, l' = { l with queue := { l.queue with keys := keys, power := power } }) ∧
      l.queue.lane s = e :: l'.queue.lane s ∧ ∀ t, t ≠ s → l'.queue.lane t = l.queue.lane t := by
  cases s with
  | keys =>
    obtain ⟨⟨k, l₁⟩, hk, heq⟩ := Option.map_eq_some_iff.1 h
    cases heq
    unfold takeKey? at hk
    split at hk
    next => cases hk
    next k' keys hkeys =>
      cases hk
      refine ⟨⟨keys, l.queue.power, rfl⟩, by simp [Queue.lane, hkeys], fun t ht => ?_⟩
      cases t with
      | keys => exact absurd rfl ht
      | power => rfl
  | power =>
    obtain ⟨⟨p, l₁⟩, hp, heq⟩ := Option.map_eq_some_iff.1 h
    cases heq
    unfold takePower? at hp
    split at hp
    next => cases hp
    next p' power hpower =>
      cases hp
      refine ⟨⟨l.queue.keys, power, rfl⟩, by simp [Queue.lane, hpower], fun t ht => ?_⟩
      cases t with
      | keys => rfl
      | power => exact absurd rfl ht

/-- An event goes to the end of the lane of its stream. -/
theorem Queue.push_eq (q : Queue) (e : Event) :
    (∃ keys power, q.push e = { q with keys := keys, power := power }) ∧
      (q.push e).lane e.stream = q.lane e.stream ++ [e] ∧
      ∀ t, t ≠ e.stream → (q.push e).lane t = q.lane t := by
  cases e with
  | key k =>
    refine ⟨⟨q.keys ++ [k], q.power, rfl⟩, by simp [push, lane, Event.stream], fun t ht => ?_⟩
    cases t with
    | keys => exact absurd rfl ht
    | power => rfl
  | power p =>
    refine ⟨⟨q.keys, q.power ++ [p], rfl⟩, by simp [push, lane, Event.stream], fun t ht => ?_⟩
    cases t with
    | keys => rfl
    | power => exact absurd rfl ht

/-- An event is accepted under the next number. -/
theorem Live.append_ok {l l' : Live} {now : Time.Stamp} {e : Event} {seq : UInt64}
    (h : l.append now e = (l', .ok (some seq))) :
    seq = l.queue.journal.nextSeq ∧ Journal.succ? l.queue.journal.nextSeq = some l'.queue.journal.nextSeq := by
  unfold append at h
  split at h
  · cases h
  · rcases happ : l.queue.journal.append now e l.disk with ⟨j, d, result⟩
    rw [happ] at h
    cases result with
    | ok number =>
      cases h
      exact Journal.append_ok happ
    | error failure => cases h

namespace Service

namespace Lanes

variable {v : Service}

theorem took (h : Lanes v) {l : Live} {s : Stream} {e : Event} (ht : v.live.take? s = some (e, l)) :
    Lanes { v with live := l, held := Function.update v.held s (v.held s ++ [(v.position s, e)]) } := by
  obtain ⟨⟨keys, power, rfl⟩, hlane, hother⟩ := Live.take?_eq ht
  have hlisten : v.live.queue.listening = true := by
    cases hl : v.live.queue.listening with
    | true => rfl
    | false =>
      have hnil := h.deaf hl s
      rw [hlane] at hnil
      cases hnil
  -- what is next among those put into the lane is what has been taken
  obtain ⟨rest, hrest⟩ := h.taken s
  have hmap := h.lane hlisten s
  rw [← hrest, List.drop_left, hlane] at hmap
  obtain ⟨⟨i, e'⟩, rest, rfl⟩ : ∃ x xs, rest = x :: xs := by
    cases rest with
    | nil => cases hmap
    | cons x xs => exact ⟨x, xs, rfl⟩
  simp only [List.map_cons, List.cons.injEq] at hmap
  obtain ⟨rfl, hmap⟩ := hmap
  have hposition : v.position s = i := by
    rw [position, ← hrest, List.drop_left]
    rfl
  rw [hposition]
  refine ⟨fun t => ?_, fun _ t => ?_, fun hl => by rw [hlisten] at hl; cases hl⟩
  · by_cases hts : t = s
    · subst hts
      refine ⟨rest, ?_⟩
      simp only [Function.update_self, ← hrest, List.append_assoc, List.cons_append, List.nil_append]
    · simp only [Function.update_of_ne hts]
      exact h.taken t
  · by_cases hts : t = s
    · subst hts
      have hdrop : (v.got t ++ (v.held t ++ [(i, e')])).length = (v.got t ++ v.held t).length + 1 := by
        simp only [List.length_append, List.length_singleton]
        omega
      simp only [Function.update_self]
      rw [hdrop, ← hrest, ← List.drop_drop, List.drop_left]
      exact hmap
    · simp only [Function.update_of_ne hts]
      exact (h.lane hlisten t).trans (hother t hts).symm

/-- Marking an event as received changes nothing in the lanes. -/
theorem received (h : Lanes v) {s : Stream} {i : Nat} {e : Event} {rest : List (Nat × Event)}
    (hheld : v.held s = (i, e) :: rest) :
    Lanes { v with
      live := v.live.acknowledge s
      held := Function.update v.held s rest
      got := Function.update v.got s (v.got s ++ [(i, e)]) } := by
  have hsame : ∀ t, Function.update v.got s (v.got s ++ [(i, e)]) t ++ Function.update v.held s rest t =
      v.got t ++ v.held t := by
    intro t
    by_cases hts : t = s
    · subst hts
      simp only [Function.update_self, hheld, List.append_assoc, List.singleton_append]
    · simp only [Function.update_of_ne hts]
  have hlane : ∀ t, (v.live.acknowledge s).queue.lane t = v.live.queue.lane t := by
    intro t
    cases t with
    | keys => rfl
    | power => rfl
  refine ⟨fun t => ?_, fun hl t => ?_, fun hl t => ?_⟩
  · simp only [hsame]
    exact h.taken t
  · simp only [hsame, hlane]
    exact h.lane hl t
  · rw [hlane]
    exact h.deaf hl t

/-- The event in hand is put into its lane. -/
theorem pushed (h : Lanes v) (hl : v.live.queue.listening = true) (e : Event) (i : Nat) (phase : Phase) :
    Lanes { v with
      live := { v.live with queue := { v.live.queue.push e with phase := phase } }
      handed := Function.update v.handed e.stream (v.handed e.stream ++ [(i, e)]) } := by
  obtain ⟨⟨keys, power, heq⟩, hlane, hother⟩ := v.live.queue.push_eq e
  have hlane' : ∀ t, ({ v.live.queue.push e with phase := phase } : Queue).lane t =
      (v.live.queue.push e).lane t := by
    intro t
    cases t with
    | keys => rfl
    | power => rfl
  have hlisten : ({ v.live.queue.push e with phase := phase } : Queue).listening = true := by
    rw [heq]
    exact hl
  refine ⟨fun t => ?_, fun _ t => ?_, fun hdeaf => by rw [hlisten] at hdeaf; cases hdeaf⟩
  · by_cases hts : t = e.stream
    · subst hts
      simp only [Function.update_self]
      exact (h.taken e.stream).trans (List.prefix_append _ _)
    · simp only [Function.update_of_ne hts]
      exact h.taken t
  · rw [hlane']
    by_cases hts : t = e.stream
    · subst hts
      simp only [Function.update_self]
      rw [List.drop_append_of_le_length (h.taken e.stream).length_le, List.map_append, h.lane hl, hlane]
      rfl
    · simp only [Function.update_of_ne hts]
      rw [hother t hts]
      exact h.lane hl t

end Lanes

/-! ### The cursor and the journal -/

variable {o : Origin} {v : Service} {w : View}

theorem Leftover.nil (seq : UInt64) : Leftover seq [] := .inl rfl

/-- At most one line is left behind the lines, and it is under the next number. -/
theorem Leftover.lines {seq : UInt64} {extra : Bytes} (h : Leftover seq extra) :
    Lines.lines extra = [] ∨ ∃ now e, now.Valid ∧ Lines.lines extra = [Envelope.body seq now e] := by
  rcases h with rfl | ⟨now, e, m, hvalid, rfl⟩
  · exact .inl rfl
  · exact (Journal.At.lines_take_line seq now e m).imp_right fun hl => ⟨now, e, hvalid, hl⟩

namespace Standing

theorem mark_front (_h : Standing o v w) {i : Nat} (hi : i ≤ w.front.length) : mark w.lines i = mark w.front i := by
  rw [View.lines, mark_append_left hi]

theorem le_lines (_h : Standing o v w) {i : Nat} (hi : i ≤ w.front.length) : i ≤ w.lines.length := by
  rw [View.lines, List.length_append]
  exact hi.trans (Nat.le_add_right _ _)

theorem front_le (_h : Standing o v w) : (w.front ++ w.opens).length ≤ w.lines.length := by
  rw [View.lines, ← List.append_assoc]
  exact (List.prefix_append _ _).length_le

/-- The log holds the last of the lines that were there and of those since opening. -/
theorem lines_suffix (h : Standing o v w) : w.lines <:+ o.before ++ v.lines := by
  rw [View.lines, h.whole, ← List.append_assoc o.before]
  exact List.suffix_append_self_iff.2 h.front

/-- The offset behind the lines read. -/
theorem mark_opens (_h : Standing o v w) :
    mark w.lines (w.front ++ w.opens).length = (joined (w.front ++ w.opens)).length := by
  rw [View.lines, ← List.append_assoc, mark_append_left (Nat.le_refl _), mark_length]

/-- What is left behind the lines is what is in the log behind the part that the journal knows of. -/
theorem left_eq (h : Standing o v w) : v.left = Lines.lines w.extra := by
  rw [left, h.disk.log_eq, h.journal.len, View.log, List.drop_left]

theorem lines_log (h : Standing o v w) : Lines.lines w.log = w.lines ++ v.left := by
  rw [View.log, lines_joined_append h.unbroken, h.left_eq]

end Standing

/-- A cursor that has been moved is on a mark in front of the ledger again. -/
theorem View.CursorHolds.moved (h : w.CursorHolds o) {i : Nat} (hi : i ≤ w.front.length) {rest : List Bytes}
    {seq : UInt64} {head : Option Entry} (hm : Journal.Moved (w.front ++ rest) seq i w.head head) (n : Nat) :
    View.CursorHolds { w with head := head, line := n } o := by
  obtain ⟨c, hc, hcursor⟩ := h
  cases hm with
  | old => exact ⟨c, hc, hcursor⟩
  | @new k hk =>
    have hle : k ≤ w.front.length := by
      rcases hk with rfl | rfl
      · exact hi
      · exact Nat.zero_le _
    refine ⟨_, Cursor.ofEntry_bytes _, .inl ?_⟩
    split
    · exact ⟨k, hle, mark_append_left hle rest⟩
    · exact ⟨0, Nat.zero_le _, (mark_zero _).symm⟩

namespace Standing

/-- The journal and the disk after a commit. -/
theorem commit (h : Standing o v w) {i : Nat} (hi : i ≤ w.front.length)
    (hready : v.live.queue.ledger.ready ≠ none → i < w.front.length) {j : Journal} {d : Disk}
    {fault : Option Fault} (hcommit : v.live.queue.journal.commit (mark w.front i) v.live.disk = (j, d, fault)) :
    ∃ w', Standing o { v with live := ⟨{ v.live.queue with journal := j }, d⟩ } w' ∧
      w'.opens = w.opens ∧ w'.past = w.past ∧
      (w'.front = w.front ∧ w'.lines = w.lines ∨
        fault = none ∧ w'.lines = [] ∧ v.live.queue.ledger.ready = none) ∧
      (w.line = (w.front ++ w.opens).length → w'.line = (w'.front ++ w'.opens).length) := by
  obtain ⟨c, hc, -⟩ := h.cursor
  have hseq := Journal.nextSeq_commit v.live.queue.journal (mark w.front i) v.live.disk
  rw [hcommit] at hseq
  rw [← h.mark_front hi] at hcommit
  rcases h.journal.commit_cases h.disk hc (h.le_lines hi) with
    ⟨j', d', head', fault', heq, hd, hmoved, hj, -⟩ | ⟨j', d', heq, hall, hd, hj, -⟩
  · rw [heq] at hcommit
    cases hcommit
    have hextra : Leftover j.nextSeq w.extra := hseq ▸ h.extra
    refine ⟨{ w with head := head', line := max w.line i },
      { h with disk := hd, extra := hextra, journal := hj, cursor := h.cursor.moved hi hmoved _ }, rfl, rfl,
      .inl ⟨rfl, rfl⟩, fun hline => ?_⟩
    have hle : i ≤ w.line := by
      rw [hline, List.length_append]
      exact hi.trans (Nat.le_add_right _ _)
    exact (Nat.max_eq_left hle).trans hline
  · -- all lines have been delivered, so nothing is in the ledger, unread or ready
    rw [heq] at hcommit
    cases hcommit
    obtain ⟨hlast, -⟩ := (h.journal.delivered_iff (h.le_lines hi)).1 hall
    have hsum : w.front.length = w.front.length + (w.opens.length + w.unread.length) := by
      rw [View.lines, List.length_append, List.length_append] at hlast
      omega
    have hopens : w.opens = [] := List.eq_nil_of_length_eq_zero (by omega)
    have hunread : w.unread = [] := List.eq_nil_of_length_eq_zero (by omega)
    have hnone : v.live.queue.ledger.ready = none := by
      by_contra hne
      have := hready hne
      have := h.le_lines hi
      rw [View.lines, List.length_append] at hlast
      omega
    have hslots := h.slots
    rw [hopens] at hslots
    have hnil : ∀ head, View.lines { w with head := head, front := [], extra := [], line := 0 } = [] := by
      intro head
      rw [View.lines, hopens, hunread]
      rfl
    refine ⟨{ w with
        head := some (.file (Cursor.bytes ⟨0, v.live.queue.journal.nextSeq⟩))
        front := []
        extra := []
        line := 0 },
      { disk := ?_
        unbroken := ?_
        extra := .nil _
        journal := ?_
        whole := h.whole
        count := h.count
        front := List.nil_suffix
        slots := ?_
        owed := h.owed
        got := h.got
        ready := fun stop hstop => ?_
        cursor := ⟨_, Cursor.ofEntry_bytes _, .inl ⟨0, Nat.zero_le _, ?_⟩⟩ }, rfl, rfl,
      .inr ⟨rfl, hnil _, hnone⟩, fun _ => ?_⟩
    · rw [View.log, hnil]
      exact hd
    · rw [hnil]
      exact fun _ hl => by cases hl
    · rw [hnil]
      exact hj
    · rw [hopens]
      exact hslots
    · rw [hnone] at hstop
      cases hstop
    · split <;> rfl
    · rw [hopens]
      rfl

/-- The journal and the disk after a commit that could not write the cursor. -/
theorem commitFailing (h : Standing o v w) {i : Nat} (hi : i ≤ w.front.length) (n k : Nat) {j : Journal}
    {d : Disk} (hcommit : v.live.queue.journal.commitFailing n k (mark w.front i) v.live.disk = (j, d)) :
    ∃ w', Standing o { v with live := ⟨{ v.live.queue with journal := j }, d⟩ } w' ∧
      w'.opens = w.opens ∧ w'.past = w.past ∧ w'.front = w.front ∧ w'.lines = w.lines ∧
      (w.line = (w.front ++ w.opens).length → w'.line = (w'.front ++ w'.opens).length) := by
  have hseq := Journal.nextSeq_commitFailing n k v.live.queue.journal (mark w.front i) v.live.disk
  rw [hcommit] at hseq
  have hextra : Leftover j.nextSeq w.extra := hseq ▸ h.extra
  rw [← h.mark_front hi] at hcommit
  obtain ⟨head', hd, hmoved, hj⟩ := h.journal.commitFailing_stands h.disk (h.le_lines hi) n k
  rw [hcommit] at hd hj
  refine ⟨{ w with head := head', line := max w.line i },
    { h with disk := hd, extra := hextra, journal := hj, cursor := h.cursor.moved hi hmoved _ }, rfl, rfl, rfl,
    rfl, fun hline => ?_⟩
  have hle : i ≤ w.line := by
    rw [hline, List.length_append]
    exact hi.trans (Nat.le_add_right _ _)
  exact (Nat.max_eq_left hle).trans hline

/-- The ledger takes back an offset that could not be written. -/
theorem putBack (h : Standing o v w) {i : Nat} (hi : i ≤ w.front.length) (phase : Phase) :
    Standing o
      { v with
        live.queue.ledger := v.live.queue.ledger.putBack (mark w.front i)
        live.queue.phase := phase } w := by
  refine { h with ready := fun stop hstop => ?_ }
  simp only [Ledger.putBack, Option.some.injEq] at hstop
  split at hstop
  next => exact ⟨i, hi, hstop.symm⟩
  next ready heq =>
    obtain ⟨k, hk, rfl⟩ := h.ready ready heq
    rcases Nat.le_total i k with hik | hik
    · exact ⟨k, hk, by rw [← hstop, Nat.max_eq_left (mark_mono hik)]⟩
    · exact ⟨i, hi, by rw [← hstop, Nat.max_eq_right (mark_mono hik)]⟩

/-! ### The ledger -/

/-- The ledger settles, and what was settled is in front of it. -/
theorem settle (h : Standing o v w) :
    ∃ w', Standing o { v with live.queue.ledger := v.live.queue.ledger.settle } w' ∧
      w'.front ++ w'.opens = w.front ++ w.opens ∧ w'.past ++ w'.opens = w.past ++ w.opens ∧
      w'.line = w.line ∧ w.front <+: w'.front ∧
      (v.live.queue.ledger.settle.ready = v.live.queue.ledger.ready ∧ w'.past = w.past ∨
        v.live.queue.ledger.settle.ready = some (joined w'.front).length ∧ w.front.length < w'.front.length) := by
  obtain ⟨done, rest, hopens, howed, heq⟩ :=
    @Ledger.settleSlots_slotsOf w.owed (joined w.front).length w.opens v.live.queue.ledger.ready
  rw [← h.slots] at heq
  have hstart : (joined w.front).length + (joined done).length = (joined (w.front ++ done)).length := by
    rw [joined_append, List.length_append]
  have hready : v.live.queue.ledger.settle.ready =
      if done = [] then v.live.queue.ledger.ready else some (joined (w.front ++ done)).length := by
    rw [Ledger.settle, heq, hstart]
  have hfront : w.front ++ done ++ rest = w.front ++ w.opens := by rw [hopens, List.append_assoc]
  have hpast : w.past ++ done ++ rest = w.past ++ w.opens := by rw [hopens, List.append_assoc]
  have hlines : w.front ++ done ++ (rest ++ w.unread) = w.lines := by
    rw [← List.append_assoc, hfront, List.append_assoc, View.lines]
  refine ⟨{ w with
      front := w.front ++ done
      opens := rest
      past := w.past ++ done
      owed := fun s => w.owed s - (events s done).length },
    { disk := ?_
      unbroken := ?_
      extra := h.extra
      journal := ?_
      whole := ?_
      count := ?_
      front := ?_
      slots := ?_
      owed := fun s => ?_
      got := fun s => ?_
      ready := fun stop hstop => ?_
      cursor := ?_ }, hfront, hpast, rfl, List.prefix_append _ _, ?_⟩
  · rw [View.log, View.lines, hlines]
    exact h.disk
  · rw [View.lines, hlines]
    exact h.unbroken
  · rw [View.lines, hlines]
    exact h.journal
  · rw [← List.append_assoc, hpast, List.append_assoc]
    exact h.whole
  · rw [hpast]
    exact h.count
  · rw [← List.append_assoc]
    exact List.suffix_append_self_iff.2 h.front
  · simp only [Ledger.settle, heq, hstart]
  · have hs := h.owed s
    rw [hopens, events_append, List.length_append] at hs
    simp only
    omega
  · have hs := h.got s
    have hd := howed s
    simp only [events_append, List.length_append]
    omega
  · have hgrow : ∀ i, i ≤ w.front.length → i ≤ (w.front ++ done).length := fun i hi => by
      rw [List.length_append]
      exact hi.trans (Nat.le_add_right _ _)
    rw [hready] at hstop
    split at hstop
    · obtain ⟨i, hi, rfl⟩ := h.ready stop hstop
      exact ⟨i, hgrow i hi, (mark_append_left hi done).symm⟩
    · cases hstop
      exact ⟨_, Nat.le_refl _, (mark_length _).symm⟩
  · obtain ⟨c, hc, ⟨i, hi, hmark⟩ | ⟨hrefused, hhead, hbefore, hall⟩⟩ := h.cursor
    · refine ⟨c, hc, .inl ⟨i, ?_, hmark.trans (mark_append_left hi done).symm⟩⟩
      rw [List.length_append]
      exact hi.trans (Nat.le_add_right _ _)
    · exact ⟨c, hc, .inr ⟨hrefused, hhead, hbefore, congrArg (· ++ done) hall⟩⟩
  · by_cases hdone : done = []
    · exact .inl ⟨by rw [hready, if_pos hdone], by simp only [hdone, List.append_nil]⟩
    · refine .inr ⟨by rw [hready, if_neg hdone], ?_⟩
      have := List.length_pos_iff.2 hdone
      rw [List.length_append]
      omega

/-- A receipt: one more event of its stream has been received of the lines in the ledger. -/
theorem receive (h : Standing o v w) {s : Stream} {x : Nat × Event}
    (hmore : (v.got s).length < (events s (w.past ++ w.opens)).length) (held : Stream → List (Nat × Event)) :
    Standing o
      { v with
        live.queue.ledger := { v.live.queue.ledger with
          slots := Ledger.markFirst s v.live.queue.ledger.slots }
        held := held
        got := Function.update v.got s (v.got s ++ [x]) }
      { w with owed := Function.update w.owed s (w.owed s + 1) } := by
  have hs := h.got s
  rw [events_append, List.length_append] at hmore
  refine { h with slots := ?_, owed := fun t => ?_, got := fun t => ?_ }
  · simp only [h.slots, Ledger.markFirst_slotsOf]
  · by_cases hts : t = s
    · subst hts
      simp only [Function.update_self]
      omega
    · simp only [Function.update_of_ne hts]
      exact h.owed t
  · by_cases hts : t = s
    · subst hts
      simp only [Function.update_self, List.length_append, List.length_singleton]
      omega
    · simp only [Function.update_of_ne hts]
      exact h.got t

/-- The pump reads a line, which goes into the ledger. -/
theorem read (h : Standing o v w) {line : Bytes} {unread : List Bytes} (hunread : w.unread = line :: unread)
    {slot : Slot} (hslot : v.live.queue.ledger.slots ++ [slot] =
      Ledger.slotsOf w.owed (joined w.front).length (w.opens ++ [line])) (phase : Phase) :
    Standing o
      { v with
        live.queue.ledger := { v.live.queue.ledger with slots := v.live.queue.ledger.slots ++ [slot] }
        live.queue.phase := phase
        count := v.count + 1 }
      { w with opens := w.opens ++ [line], unread := unread } := by
  have hsplit : w.opens ++ w.unread = w.opens ++ [line] ++ unread := by
    rw [hunread, List.append_assoc, List.singleton_append]
  have hlines : View.lines { w with opens := w.opens ++ [line], unread := unread } = w.lines := by
    rw [View.lines, View.lines, hsplit]
  refine { h with
    disk := ?_, unbroken := ?_, journal := ?_, whole := ?_, count := ?_, slots := hslot, owed := fun s => ?_ }
  · rw [View.log, hlines]
    exact h.disk
  · rw [hlines]
    exact h.unbroken
  · rw [hlines]
    exact h.journal
  · rw [← hsplit]
    exact h.whole
  · rw [← List.append_assoc, List.length_append, List.length_singleton, h.count]
  · rw [events_append, List.length_append]
    exact (h.owed s).trans (Nat.le_add_right _ _)

/-- The log has more lines behind those that were there, and something else is left behind them. -/
theorem grow (h : Standing o v w) {new : List Bytes} {extra : Bytes} {d : Disk}
    (hd : d.Stands (joined (w.lines ++ new) ++ extra) w.head) (hnew : Unbroken new) {j : Journal}
    (hextra : Leftover j.nextSeq extra) (hj : j.At (w.lines ++ new) w.line) :
    Standing o { v with live := ⟨{ v.live.queue with journal := j }, d⟩, lines := v.lines ++ new }
      { w with unread := w.unread ++ new, extra := extra } := by
  have hlines : View.lines { w with unread := w.unread ++ new, extra := extra } = w.lines ++ new := by
    simp only [View.lines, List.append_assoc]
  refine { h with disk := ?_, unbroken := ?_, extra := hextra, journal := ?_, whole := ?_ }
  · rw [View.log, hlines]
    exact hd
  · rw [hlines]
    exact h.unbroken.append hnew
  · rw [hlines]
    exact hj
  · rw [h.whole]
    simp only [List.append_assoc]

/-- The log has the same lines, and something else is left behind them. -/
theorem leave (h : Standing o v w) {extra : Bytes} {d : Disk} (hd : d.Stands (joined w.lines ++ extra) w.head)
    (hextra : Leftover v.live.queue.journal.nextSeq extra) :
    Standing o { v with live.disk := d } { w with extra := extra } :=
  { h with disk := hd, extra := hextra }

/-! ### Appending and reading -/

/-- An event that comes to the queue is turned away, refused, or becomes the last line of the log. -/
theorem append_cases (h : Standing o v w) (now : Time.Stamp) (e : Event) :
    (v.live.queue.closed = true ∧ v.live.append now e = (v.live, .ok none)) ∨
    (∃ d cause, v.live.append now e = (⟨v.live.queue, d⟩, .error (.error cause)) ∧
      d.Stands (joined w.lines) w.head) ∨
    v.live.queue.closed = false ∧ ∃ j d,
      d.Stands (joined (w.lines ++ [Envelope.body v.live.queue.journal.nextSeq now e])) w.head ∧
      j.At (w.lines ++ [Envelope.body v.live.queue.journal.nextSeq now e]) w.line ∧
      (joined (w.lines ++ [Envelope.body v.live.queue.journal.nextSeq now e])).length ≤ maxFileSize ∧
      (v.live.append now e =
          (⟨{ v.live.queue with journal := j }, d⟩, .ok (some v.live.queue.journal.nextSeq)) ∧
        Journal.succ? v.live.queue.journal.nextSeq = some j.nextSeq ∨
        v.live.append now e = (⟨{ v.live.queue with journal := j }, d⟩, .error .broken) ∧
        v.live.queue.journal.nextSeq = Journal.greatest ∧ j.nextSeq = Journal.greatest) := by
  rw [Live.append]
  cases hclosed : v.live.queue.closed with
  | true => exact .inl ⟨rfl, rfl⟩
  | false =>
    simp only [Bool.false_eq_true, if_false]
    rcases h.journal.append_cases h.disk now e with
      ⟨d, cause, heq, hd⟩ | ⟨j, d, hd, hj, -, hsize, ⟨heq, hnext⟩ | ⟨heq, hnext⟩⟩
    · rw [heq]
      exact .inr (.inl ⟨d, cause, rfl, hd⟩)
    · rw [heq]
      exact .inr (.inr ⟨trivial, j, d, hd, hj, hsize, .inl ⟨rfl, hnext⟩⟩)
    · rw [heq]
      exact .inr (.inr ⟨trivial, j, d, hd, hj, hsize, .inr ⟨rfl, hnext⟩⟩)

/-- An event that is stored, whether its number is told or not, is the last line of the log. -/
theorem stored (h : Standing o v w) {l : Live} {now : Time.Stamp} {e : Event} {result : Except Failure (Option UInt64)}
    (happ : v.live.append now e = (l, result))
    (hresult : (∃ seq, result = .ok (some seq)) ∨ result = .error .broken) :
    v.live.queue.closed = false ∧ ∃ j d, l = ⟨{ v.live.queue with journal := j }, d⟩ ∧
      d.Stands (joined (w.lines ++ [Envelope.body v.live.queue.journal.nextSeq now e])) w.head ∧
      j.At (w.lines ++ [Envelope.body v.live.queue.journal.nextSeq now e]) w.line ∧
      (joined (w.lines ++ [Envelope.body v.live.queue.journal.nextSeq now e])).length ≤ maxFileSize := by
  rcases h.append_cases now e with
    ⟨-, heq⟩ | ⟨d, cause, heq, -⟩ | ⟨hopen, j, d, hd, hj, hsize, ⟨heq, -⟩ | ⟨heq, -⟩⟩
  · rw [heq] at happ
    cases happ
    rcases hresult with ⟨seq, hseq⟩ | hbroken
    · cases hseq
    · cases hbroken
  · rw [heq] at happ
    cases happ
    rcases hresult with ⟨seq, hseq⟩ | hbroken
    · cases hseq
    · cases hbroken
  · rw [heq] at happ
    cases happ
    exact ⟨hopen, j, d, rfl, hd, hj, hsize⟩
  · rw [heq] at happ
    cases happ
    exact ⟨hopen, j, d, rfl, hd, hj, hsize⟩

/-- An event that is refused leaves the lines of the log as they are, and nothing behind them. -/
theorem refused (h : Standing o v w) {l : Live} {now : Time.Stamp} {e : Event} {cause : RelayError}
    (happ : v.live.append now e = (l, .error (.error cause))) :
    ∃ d, l = ⟨v.live.queue, d⟩ ∧ d.Stands (joined w.lines) w.head := by
  rcases h.append_cases now e with ⟨-, heq⟩ | ⟨d, cause, heq, hd⟩ | ⟨-, j, d, -, -, -, ⟨heq, -⟩ | ⟨heq, -⟩⟩
  · rw [heq] at happ
    cases happ
  · rw [heq] at happ
    cases happ
    exact ⟨d, rfl, hd⟩
  · rw [heq] at happ
    cases happ
  · rw [heq] at happ
    cases happ

/-- With its line the event is the last of those since opening. -/
theorem grown (h : Standing o v w) {now : Time.Stamp} {e : Event} {j : Journal} {d : Disk}
    (hd : d.Stands (joined (w.lines ++ [Envelope.body v.live.queue.journal.nextSeq now e])) w.head)
    (hj : j.At (w.lines ++ [Envelope.body v.live.queue.journal.nextSeq now e]) w.line) :
    Standing o
      { v with
        live := ⟨{ v.live.queue with journal := j }, d⟩
        lines := v.lines ++ [Envelope.body v.live.queue.journal.nextSeq now e] }
      { w with unread := w.unread ++ [Envelope.body v.live.queue.journal.nextSeq now e], extra := [] } :=
  h.grow (by rwa [List.append_nil]) (unbroken_singleton (Envelope.newline_not_mem_body _ _ _)) (.nil _) hj

/-- What an append leaves that breaks off. -/
theorem broken (h : Standing o v w) {now : Time.Stamp} {e : Event} (hvalid : now.Valid) (n k : Nat) :
    ∃ extra, (Effect.crash n k (v.live.queue.journal.appendEffects v.live.disk.log
        (Envelope.line v.live.queue.journal.nextSeq now e)) v.live.disk).Stands (joined w.lines ++ extra) w.head ∧
      Leftover v.live.queue.journal.nextSeq extra ∧
      (v.live.disk.log.length ≤ maxFileSize → (joined w.lines ++ extra).length ≤ maxFileSize) := by
  obtain ⟨extra, hd, hextra, hsize⟩ := h.journal.crash_append h.disk now e n k
  rw [h.disk.log_eq]
  refine ⟨extra, hd, ?_, hsize⟩
  rcases hextra with rfl | ⟨m, rfl⟩
  · exact h.extra
  · exact .inr ⟨now, e, m, hvalid, rfl⟩

/-- The line that the pump reads is the first of those not yet read. -/
theorem peek (h : Standing o v w) (hline : w.line = (w.front ++ w.opens).length) {line : Bytes} {stop : Nat}
    (hpeek : v.live.queue.journal.peek v.live.disk = some (line, stop)) :
    ∃ unread, w.unread = line :: unread ∧ stop = (joined w.front).length + (joined (w.opens ++ [line])).length ∧
      w.line + 1 = (w.front ++ (w.opens ++ [line])).length := by
  have hget : w.lines[w.line]? = w.unread[0]? := by
    rw [View.lines, ← List.append_assoc, hline, List.getElem?_append_right (Nat.le_refl _), Nat.sub_self]
  rw [h.journal.peek_append h.unbroken h.disk.log_eq, hget] at hpeek
  obtain ⟨_, hfirst, heq⟩ := Option.map_eq_some_iff.1 hpeek
  cases heq
  cases hunread : w.unread with
  | nil =>
    rw [hunread] at hfirst
    cases hfirst
  | cons first unread =>
    rw [hunread] at hfirst
    cases hfirst
    have hread : w.line + 1 = (w.front ++ (w.opens ++ [line])).length := by
      rw [← List.append_assoc, List.length_append, ← hline, List.length_singleton]
    have hsplit : w.front ++ (w.opens ++ line :: unread) = w.front ++ (w.opens ++ [line]) ++ unread := by
      simp
    refine ⟨unread, rfl, ?_, hread⟩
    rw [View.lines, hunread, hread, hsplit, mark_append_left (Nat.le_refl _), mark_length, joined_append,
      List.length_append]

/-- A line that cannot be read is passed over. -/
theorem passedOver (h : Standing o v w) (hline : w.line = (w.front ++ w.opens).length) {line : Bytes} {stop : Nat}
    (hpeek : v.live.queue.journal.peek v.live.disk = some (line, stop)) (hdecode : Envelope.decode? line = none) :
    ∃ w', Standing o
        { v with
          live.queue.ledger := v.live.queue.ledger.passedOver stop
          live.queue.phase := .moving stop
          count := v.count + 1 } w' ∧
      w'.front ++ w'.opens = w.front ++ (w.opens ++ [line]) ∧
      w'.past ++ w'.opens = w.past ++ (w.opens ++ [line]) ∧ w'.line = w.line ∧ w.front <+: w'.front ∧
      ((v.live.queue.ledger.passedOver stop).ready = v.live.queue.ledger.ready ∧ w'.past = w.past ∨
        (v.live.queue.ledger.passedOver stop).ready = some (joined w'.front).length ∧
          w.front.length < w'.front.length) := by
  obtain ⟨unread, hunread, rfl, -⟩ := h.peek hline hpeek
  have hslot := @Ledger.slotsOf_append_none w.owed (joined w.front).length w.opens line hdecode
  rw [← h.slots] at hslot
  exact (h.read hunread hslot.symm (.moving _)).settle

/-- A line that can be read is handed out. -/
theorem handedOut (h : Standing o v w) (hline : w.line = (w.front ++ w.opens).length) {line : Bytes} {stop : Nat}
    (hpeek : v.live.queue.journal.peek v.live.disk = some (line, stop)) {seq : UInt64} {e : Event}
    (hdecode : Envelope.decode? line = some (seq, e)) :
    ∃ unread, Standing o
        { v with
          live.queue.ledger := v.live.queue.ledger.handedOut e.stream stop
          live.queue.phase := .handing e stop
          count := v.count + 1 }
        { w with opens := w.opens ++ [line], unread := unread } := by
  obtain ⟨unread, hunread, rfl, -⟩ := h.peek hline hpeek
  have hslot := @Ledger.slotsOf_append_some w.owed (joined w.front).length w.opens line seq e hdecode
    (h.owed e.stream)
  rw [← h.slots] at hslot
  exact ⟨unread, h.read hunread hslot.symm (.handing e _)⟩

end Standing

end Service
end CecRelay
