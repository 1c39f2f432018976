import CecRelay.Proofs.Queue.Journal

/-!
# Recovery from a crash at any point

A store lives through appends, reading, commits and deaths, in any order and from an empty folder on
(`Store.Reached`). In every state that it can reach, the cursor on disk is the mark of a line
(`Store.Sound`). So an operation may break off after any part of its changes: the folder opens again,
and what is handed out then has lost no line and holds no partial one
(`Store.Reached.recovers`).
-/

namespace CecRelay

open Lines

/-- The place opens, and these are the lines handed out from then on. -/
def Place.HandsOut (place : Place) (out : List Bytes) : Prop :=
  ∃ place' j, Journal.open place = (place', .ok j) ∧ j.handOut ⟨place', none⟩ = out

theorem Place.HandsOut.unique {place : Place} {out out' : List Bytes} (h : place.HandsOut out)
    (h' : place.HandsOut out') : out = out' := by
  obtain ⟨_, j, hopen, rfl⟩ := h
  obtain ⟨_, j', hopen', rfl⟩ := h'
  rw [hopen] at hopen'
  cases hopen'
  rfl

/-- Opening finds one thing. -/
theorem Place.Finds.unique {place : Place} {f f' : Folder} {log log' : Bytes} {c c' : Cursor}
    (h : place.Finds f log c) (h' : place.Finds f' log' c') : f = f' ∧ log = log' ∧ c = c' := by
  obtain ⟨⟨f₀, hfolder, hlog⟩, hc⟩ := h
  obtain ⟨⟨f₁, hfolder', hlog'⟩, hc'⟩ := h'
  rw [hfolder] at hfolder'
  cases hfolder'
  rw [hlog] at hlog'
  cases hlog'
  rw [hc] at hc'
  cases hc'
  exact ⟨rfl, rfl, rfl⟩

/-- These are the lines at the place from where reading starts. -/
def Place.Offers (place : Place) (out : List Bytes) : Prop :=
  ∃ f log c, place.Finds f log c ∧ lines (log.drop (Journal.startOffset log c)) = out

theorem Place.Offers.unique {place : Place} {out out' : List Bytes} (h : place.Offers out) (h' : place.Offers out') :
    out = out' := by
  obtain ⟨f, log, c, hf, rfl⟩ := h
  obtain ⟨f', log', c', hf', rfl⟩ := h'
  obtain ⟨rfl, rfl, rfl⟩ := hf.unique hf'
  rfl

/-- What is handed out are these lines. -/
theorem Place.HandsOut.offers {place : Place} {out : List Bytes} (h : place.HandsOut out) : place.Offers out := by
  obtain ⟨place', j, hopen, rfl⟩ := h
  obtain ⟨f, log, c, hf⟩ := Journal.exists_finds hopen
  have hd := hf.stands hopen
  obtain ⟨-, i, hj, -, hstart, -⟩ := hf.opened hopen
  rw [← lines_complete] at hj
  refine ⟨f, log, c, hf, ?_⟩
  rw [hj.handOut hd, hstart, lines_drop_mark, lines_complete]

/-- They are handed out unless the last of them has the greatest number. -/
theorem Place.Offers.handsOut_iff {place : Place} {out : List Bytes} (h : place.Offers out) :
    place.HandsOut out ↔ Journal.lastSeq? out ≠ some Journal.greatest := by
  obtain ⟨f, log, c, hf, rfl⟩ := h
  rw [← hf.open_iff]
  constructor
  · rintro ⟨place', j, hopen, -⟩
    exact ⟨place', j, hopen⟩
  · rintro ⟨place', j, hopen⟩
    have hout : place.HandsOut (j.handOut ⟨place', none⟩) := ⟨place', j, hopen, rfl⟩
    rwa [hout.offers.unique ⟨f, log, c, hf, rfl⟩] at hout

theorem Place.Finds.offers {place : Place} {f : Folder} {log : Bytes} {c : Cursor} (h : place.Finds f log c) :
    place.Offers (lines (log.drop (Journal.startOffset log c))) :=
  ⟨f, log, c, h, rfl⟩

/-- They are those from that of the cursor on, or all. -/
theorem Place.Finds.exists_offers {place : Place} {f : Folder} {log : Bytes} {c : Cursor}
    (h : place.Finds f log c) : ∃ i ≤ (lines log).length, place.Offers ((lines log).drop i) ∧
      (c.offset = mark (lines log) i ∨ i = 0 ∧ ∀ k, c.offset ≠ mark (lines log) k) := by
  obtain ⟨i, hi, hstart, hc⟩ := Journal.exists_startOffset log c
  have hoffers := h.offers
  rw [hstart, lines_drop_mark] at hoffers
  exact ⟨i, hi, hoffers, hc⟩

/-- A cursor on a mark is where they start. -/
theorem Place.Finds.offers_mark {place : Place} {f : Folder} {log : Bytes} {c : Cursor}
    (h : place.Finds f log c) {i : Nat} (hi : i ≤ (lines log).length) (hc : c.offset = mark (lines log) i) :
    place.Offers ((lines log).drop i) := by
  have hoffers := h.offers
  rwa [(Journal.startOffset_eq_iff log c).2 ⟨i, hi, hc⟩, hc, lines_drop_mark] at hoffers

/-- There is nothing of a queue at the place: no folder, or one in which no file of a queue is. -/
def Place.Bare : Place → Prop
  | .missing => True
  | .folder f => f.log = none ∧ f.head = none ∧ f.tmp = none
  | _ => False

theorem Place.Bare.finds {place : Place} (h : place.Bare) : ∃ f, place.Finds f [] {} := by
  match place with
  | .missing => exact ⟨_, ⟨⟨_, rfl, rfl⟩, rfl⟩⟩
  | .folder ⟨none, none, none, _, _⟩ => exact ⟨_, ⟨⟨_, rfl, rfl⟩, rfl⟩⟩

/-- A store. -/
inductive Store
  /-- Nobody has it open; what stands at its path. -/
  | down (place : Place)
  /-- It is open. -/
  | up (j : Journal) (d : Disk)

namespace Store

/-- The states that a store can come to, each with the ends of the lines handed out since the log was
last emptied. A death may come between two operations or in the middle of one. -/
inductive Reached : Store → List Nat → Prop
  /-- At first there is nothing. -/
  | bare {place : Place} : place.Bare → Reached (.down place) []
  /-- It is opened. -/
  | opened {place place' : Place} {j : Journal} {ends : List Nat} : Reached (.down place) ends →
    Journal.open place = (place', .ok j) → Reached (.up j ⟨place', none⟩) ends
  /-- Opening dies when it has made the folder. -/
  | diedMakingFolder {place : Place} {f : Folder} {ends : List Nat} : Reached (.down place) ends →
    Journal.madeFolder place = .ok f → Reached (.down (.folder f)) ends
  /-- Opening dies when it has made the log. -/
  | diedMakingLog {place : Place} {f₀ f : Folder} {log : Bytes} {ends : List Nat} :
    Reached (.down place) ends → Journal.madeFolder place = .ok f₀ → Journal.madeLog f₀ = .ok (f, log) →
    Reached (.down (.folder f)) ends
  /-- An event is appended. -/
  | appended {j j' : Journal} {d d' : Disk} {ends : List Nat} {now : Time.Stamp} {e : Event}
    {seq : UInt64} : Reached (.up j d) ends → j.append now e d = (j', d', .ok seq) →
    Reached (.up j' d') ends
  /-- A line is handed out. -/
  | peeked {j : Journal} {d : Disk} {ends : List Nat} {line : Bytes} {stop : Nat} :
    Reached (.up j d) ends → j.peek d = some (line, stop) → Reached (.up j d) (stop :: ends)
  /-- The store moves on behind a line handed out. -/
  | advanced {j : Journal} {d : Disk} {ends : List Nat} {stop : Nat} : Reached (.up j d) ends →
    stop ∈ ends → Reached (.up (j.advance stop) d) ends
  /-- The cursor moves behind a line handed out. -/
  | committed {j j' : Journal} {d d' : Disk} {ends : List Nat} {stop : Nat} : Reached (.up j d) ends →
    stop ∈ ends → j.head.offset ≤ stop → j.commit stop d = (j', d', none) →
    Reached (.up j' d') (if j.delivered stop then [] else ends)
  /-- The process dies. -/
  | died {j : Journal} {d : Disk} {ends : List Nat} : Reached (.up j d) ends → Reached (.down d.place) ends
  /-- The process dies appending. -/
  | diedAppending {j : Journal} {d : Disk} {ends : List Nat} (now : Time.Stamp) (e : Event) (n k : Nat) :
    Reached (.up j d) ends →
    Reached (.down (Effect.crash n k (j.appendEffects d.log (Envelope.line j.nextSeq now e)) d).place) ends
  /-- The process dies committing. -/
  | diedCommitting {j : Journal} {d : Disk} {ends : List Nat} {stop : Nat} (n k : Nat) :
    Reached (.up j d) ends → stop ∈ ends → j.head.offset ≤ stop →
    Reached (.down (Effect.crash n k (j.commitEffects stop) d).place)
      (if (Effect.crash n k (j.commitEffects stop) d).log = [] then [] else ends)

/-! ### The cursor on disk is a mark -/

/-- The cursor and the ends are marks of the log. -/
structure Sound (log : Bytes) (c : Cursor) (ends : List Nat) : Prop where
  /-- The log is no larger than a file may be. -/
  size : log.length ≤ maxFileSize
  /-- The cursor is in front of a line. -/
  cursor : ∃ i ≤ (lines log).length, c.offset = mark (lines log) i
  /-- The ends are behind lines. -/
  ends : ∀ stop ∈ ends, ∃ i ≤ (lines log).length, stop = mark (lines log) i

/-- A store is sound when what stands on disk is, and the open store knows the cursor. No line has the greatest
number, unless an append has broken off behind it; then the store is not opened again. -/
def Holds : Store → List Nat → Prop
  | .down place, ends => ∃ f log c, place.Finds f log c ∧ Sound log c ends ∧
    (Journal.greatest ∉ numbers (lines log) ∨
      Journal.lastSeq? (lines (log.drop (Journal.startOffset log c))) = some Journal.greatest)
  | .up j d, ends => ∃ log head c r, d.Stands log head ∧ Cursor.ofEntry head = .ok c ∧
    j.head.offset = c.offset ∧ j.At (lines log) r ∧ Sound log c ends ∧ Journal.greatest ∉ numbers (lines log)

theorem length_complete_le (log : Bytes) : (complete log).length ≤ log.length := by
  rw [complete, List.length_take]
  exact Nat.min_le_right _ _

namespace Sound

variable {log : Bytes} {c : Cursor} {ends : List Nat}

theorem complete (h : Sound log c ends) : Sound (complete log) c ends := by
  obtain ⟨hsize, hcursor, hends⟩ := h
  refine ⟨(length_complete_le log).trans hsize, ?_, ?_⟩
  · rwa [lines_complete]
  · rwa [lines_complete]

/-- Marks of the lines that were there are marks of those and a new one. -/
theorem grow (h : Sound log c ends) {log' : Bytes} {new : List Bytes} (hsize : log'.length ≤ maxFileSize)
    (hl : lines log' = lines log ++ new) : Sound log' c ends := by
  obtain ⟨-, ⟨i, hi, hc⟩, hends⟩ := h
  have hle : (lines log).length ≤ (lines log').length := by
    rw [hl, List.length_append]
    exact Nat.le_add_right _ _
  refine ⟨hsize, ⟨i, hi.trans hle, ?_⟩, fun stop hstop => ?_⟩
  · rw [hl, mark_append_left hi, hc]
  · obtain ⟨k, hk, heq⟩ := hends stop hstop
    exact ⟨k, hk.trans hle, by rw [hl, mark_append_left hk, heq]⟩

/-- The bytes of a cursor on a mark are read as that cursor. -/
theorem ofEntry_mark (h : Sound log c ends) (i : Nat) (seq : UInt64) :
    Cursor.ofEntry (some (.file (Cursor.bytes ⟨mark (lines log) i, seq⟩))) = .ok ⟨mark (lines log) i, seq⟩ := by
  have hle : mark (lines log) i ≤ 0xFFFFFFFFFFFFFFFF := by
    have h1 := mark_le_length (lines log) i
    have h2 := length_complete_le log
    have h3 := h.size
    rw [complete_eq] at h2
    simp only [maxFileSize] at h3
    omega
  rw [Cursor.ofEntry_bytes, if_pos hle]

end Sound

/-- The cursor on disk after an attempt to move it is on a mark again. -/
theorem Sound.moved {log : Bytes} {c : Cursor} {ends : List Nat} (h : Sound log c ends)
    {head head' : Option Entry} (hc : Cursor.ofEntry head = .ok c) {i : Nat} (hi : i ≤ (lines log).length)
    {seq : UInt64} (hm : Journal.Moved (lines log) seq i head head') :
    ∃ c', Cursor.ofEntry head' = .ok c' ∧ (c' = c ∨ ∃ k, (k = i ∨ k = 0) ∧ c'.offset = mark (lines log) k) ∧
      Sound log c' ends := by
  cases hm with
  | old => exact ⟨c, hc, .inl rfl, h⟩
  | @new k hk =>
    have hle : k ≤ (lines log).length := by
      rcases hk with rfl | rfl
      · exact hi
      · exact Nat.zero_le _
    exact ⟨_, h.ofEntry_mark k seq, .inr ⟨k, hk, rfl⟩, h.size, ⟨k, hle, rfl⟩, h.ends⟩

theorem sound_empty (seq : UInt64) : Sound [] ⟨0, seq⟩ [] :=
  ⟨Nat.zero_le _, ⟨0, Nat.zero_le _, (mark_zero _).symm⟩, fun _ h => by cases h⟩

theorem ofEntry_empty (seq : UInt64) :
    Cursor.ofEntry (some (.file (Cursor.bytes ⟨0, seq⟩))) = .ok ⟨0, seq⟩ := by
  rw [Cursor.ofEntry_bytes, if_pos (Nat.zero_le _)]

theorem Holds.opened {place place' : Place} {j : Journal} {ends : List Nat} (h : Holds (.down place) ends)
    (hopen : Journal.open place = (place', .ok j)) : Holds (.up j ⟨place', none⟩) ends := by
  obtain ⟨f, log, c, hf, hs, hbelow⟩ := h
  have hd := hf.stands hopen
  obtain ⟨-, i, hj, hoff, -, hc⟩ := hf.opened hopen
  have hmark : c.offset = mark (lines log) i := by
    rcases hc with hc | ⟨-, hc⟩
    · exact hc
    · obtain ⟨k, -, hk⟩ := hs.cursor
      exact absurd hk (hc k)
  have hopens := hf.open_iff.1 ⟨place', j, hopen⟩
  refine ⟨complete log, f.head, c, i, hd, hf.cursor, hoff.trans hmark.symm, by rwa [lines_complete], hs.complete, ?_⟩
  rw [lines_complete]
  exact hbelow.resolve_right hopens

theorem Holds.madeLog {place : Place} {f₀ f : Folder} {log : Bytes} {ends : List Nat}
    (h : Holds (.down place) ends) (hfolder : Journal.madeFolder place = .ok f₀)
    (hlog : Journal.madeLog f₀ = .ok (f, log)) : Holds (.down (.folder f)) ends := by
  obtain ⟨f', log', c, hf, hs⟩ := h
  exact ⟨f', log', c, hf.madeLog hfolder hlog, hs⟩

/-- With a line more that has another number than the greatest none has the greatest. -/
theorem greatest_not_mem {ls : List Bytes} (h : Journal.greatest ∉ numbers ls) {seq : UInt64} {now : Time.Stamp}
    {e : Event} (hseq : seq ≠ Journal.greatest) : Journal.greatest ∉ numbers (ls ++ [Envelope.body seq now e]) := by
  rw [numbers_append, List.mem_append, not_or]
  refine ⟨h, fun hmem => ?_⟩
  obtain ⟨line, hline, hnumber⟩ := List.mem_filterMap.1 hmem
  rw [List.mem_singleton.1 hline] at hnumber
  exact hseq (Envelope.eq_of_number?_body hnumber).symm

/-- A line more that has the greatest number is the last that has a number, or none has the greatest. -/
theorem greatest_last {ls : List Bytes} (h : Journal.greatest ∉ numbers ls) (new : Bytes) (i : Nat)
    (hi : i ≤ ls.length) : Journal.greatest ∉ numbers (ls ++ [new]) ∨
      Journal.lastSeq? ((ls ++ [new]).drop i) = some Journal.greatest := by
  by_cases hnew : Envelope.number? new = some Journal.greatest
  · right
    rw [List.drop_append_of_le_length hi, Journal.lastSeq?_eq, numbers_append, numbers, numbers,
      List.filterMap_cons_some hnew, List.filterMap_nil, List.getLast?_concat]
  · left
    rw [numbers_append, List.mem_append, not_or]
    refine ⟨h, fun hmem => ?_⟩
    obtain ⟨line, hline, hnumber⟩ := List.mem_filterMap.1 hmem
    rw [List.mem_singleton.1 hline] at hnumber
    exact hnew hnumber

section Up

variable {j j' : Journal} {d d' : Disk} {ends : List Nat} (h : Holds (.up j d) ends)

include h

theorem Holds.appended {now : Time.Stamp} {e : Event} {seq : UInt64}
    (happ : j.append now e d = (j', d', .ok seq)) : Holds (.up j' d') ends := by
  obtain ⟨log, head, c, r, hd, hc, hoff, hj, hs, hbelow⟩ := h
  have hnext := (Journal.append_ok happ).2
  rcases hj.append_cases hd.torn now e with
    ⟨d₁, cause, heq, -⟩ | ⟨j₁, d₁, hd₁, hj₁, hhead, hsize, ⟨heq, -⟩ | ⟨heq, -⟩⟩
  · rw [heq] at happ
    cases happ
  · rw [heq] at happ
    cases happ
    have hl := lines_joined ((unbroken_lines log).append
      (unbroken_singleton (Envelope.newline_not_mem_body j.nextSeq now e)))
    refine ⟨_, head, c, r, hd₁, hc, hhead ▸ hoff, by rwa [hl], hs.grow hsize hl, ?_⟩
    rw [hl]
    refine greatest_not_mem hbelow fun hgreatest => ?_
    rw [Journal.succ?_eq_none_iff.2 hgreatest] at hnext
    cases hnext
  · rw [heq] at happ
    cases happ

theorem Holds.peeked {line : Bytes} {stop : Nat} (hpeek : j.peek d = some (line, stop)) :
    Holds (.up j d) (stop :: ends) := by
  obtain ⟨log, head, c, r, hd, hc, hoff, hj, hs, hbelow⟩ := h
  rw [hj.peek hd] at hpeek
  obtain ⟨_, hline, heq⟩ := Option.map_eq_some_iff.1 hpeek
  cases heq
  have hr : r < (lines log).length := (List.getElem?_eq_some_iff.1 hline).1
  refine ⟨log, head, c, r, hd, hc, hoff, hj, ⟨hs.size, hs.cursor, fun stop hstop => ?_⟩, hbelow⟩
  rcases List.mem_cons.1 hstop with rfl | hstop
  · exact ⟨r + 1, hr, rfl⟩
  · exact hs.ends stop hstop

theorem Holds.committed {stop : Nat} (hstop : stop ∈ ends) (hcommit : j.commit stop d = (j', d', none)) :
    Holds (.up j' d') (if j.delivered stop then [] else ends) := by
  obtain ⟨log, head, c, r, hd, hc, hoff, hj, hs, hbelow⟩ := h
  obtain ⟨i, hi, rfl⟩ := hs.ends _ hstop
  rcases hj.commit_cases hd hc hi with
    ⟨j₁, d₁, head', fault, heq, hd₁, -, hj₁, hok⟩ | ⟨j₁, d₁, heq, hall, hd₁, hj₁, hhead⟩
  · rw [heq] at hcommit
    cases hcommit
    obtain ⟨hhead, hnot, rfl⟩ := hok rfl
    rw [if_neg hnot]
    exact ⟨log, _, _, _, hd₁, hs.ofEntry_mark i j.nextSeq, by rw [hhead], hj₁, ⟨hs.size, ⟨i, hi, rfl⟩, hs.ends⟩,
      hbelow⟩
  · rw [heq] at hcommit
    cases hcommit
    rw [if_pos hall]
    exact ⟨[], _, _, 0, hd₁, ofEntry_empty j.nextSeq, by rw [hhead], hj₁, sound_empty j.nextSeq, List.not_mem_nil⟩

/-- What an append leaves on disk that breaks off: the lines that were there, or those and the new one. -/
theorem Holds.exists_appending (now : Time.Stamp) (e : Event) (n k : Nat) :
    ∃ f log c new, (Effect.crash n k (j.appendEffects d.log (Envelope.line j.nextSeq now e)) d).place.Finds f log c ∧
      c.offset = j.head.offset ∧ lines log = lines d.log ++ new ∧
      (new = [] ∨ new = [Envelope.body j.nextSeq now e]) ∧ Sound d.log c ends ∧ log.length ≤ maxFileSize ∧
      Journal.greatest ∉ numbers (lines d.log) := by
  obtain ⟨log, head, c, r, hd, hc, hoff, hj, hs, hbelow⟩ := h
  obtain ⟨more, hd', hmore, hsize⟩ := hj.crash_append hd.torn now e n k
  rw [joined_lines_append_torn] at hd' hsize
  rw [hd.log_eq]
  obtain ⟨f, hf, -⟩ := hd'.finds hc
  refine ⟨f, _, c, lines more, hf, hoff.symm, lines_joined_append (unbroken_lines log) more, ?_, hs, hsize hs.size,
    hbelow⟩
  rcases hmore with rfl | ⟨m, rfl⟩
  · exact .inl (lines_of_not_mem (not_mem_torn log))
  · exact Journal.At.lines_take_line j.nextSeq now e m

theorem Holds.diedAppending (now : Time.Stamp) (e : Event) (n k : Nat) :
    Holds (.down (Effect.crash n k (j.appendEffects d.log (Envelope.line j.nextSeq now e)) d).place) ends := by
  obtain ⟨f, log, c, new, hf, -, hl, hnew, hs, hsize, hbelow⟩ := h.exists_appending now e n k
  have hs' := hs.grow hsize hl
  refine ⟨f, log, c, hf, hs', ?_⟩
  rcases hnew with rfl | rfl
  · rw [hl, List.append_nil]
    exact .inl hbelow
  · obtain ⟨i, hi, hci⟩ := hs.cursor
    have hle : i ≤ (lines log).length := by
      rw [hl, List.length_append]
      exact Nat.le_add_right_of_le hi
    have hmark : c.offset = mark (lines log) i := by rw [hl, mark_append_left hi, hci]
    rw [(Journal.startOffset_eq_iff log c).2 ⟨i, hle, hmark⟩, hmark, lines_drop_mark, hl]
    exact greatest_last hbelow _ i hi

theorem Holds.diedCommitting {stop : Nat} (hstop : stop ∈ ends) (n k : Nat) :
    Holds (.down (Effect.crash n k (j.commitEffects stop) d).place)
      (if (Effect.crash n k (j.commitEffects stop) d).log = [] then [] else ends) := by
  obtain ⟨log, head, c, r, hd, hc, -, hj, hs, hbelow⟩ := h
  obtain ⟨i, hi, rfl⟩ := hs.ends _ hstop
  obtain ⟨log', head', hd', hcase⟩ := hj.crash_commit hd hc hi n k
  rw [hd'.log_eq]
  rcases hcase with ⟨rfl, hm⟩ | ⟨-, rfl, rfl⟩
  · obtain ⟨c', hc', -, hs'⟩ := hs.moved hc hi hm
    obtain ⟨f, hf, -⟩ := hd'.finds hc'
    refine ⟨f, log', c', hf, ⟨hs'.size, hs'.cursor, fun stop hstop => hs'.ends stop ?_⟩, .inl hbelow⟩
    split at hstop
    · cases hstop
    · exact hstop
  · obtain ⟨f, hf, -⟩ := hd'.finds (ofEntry_empty _)
    rw [if_pos rfl]
    exact ⟨f, [], _, hf, sound_empty _, .inl List.not_mem_nil⟩

end Up

/-- Every state that a store can come to is sound. -/
theorem Reached.holds {s : Store} {ends : List Nat} (h : Reached s ends) : s.Holds ends := by
  induction h with
  | bare hb =>
    obtain ⟨f, hf⟩ := hb.finds
    exact ⟨f, [], {}, hf, sound_empty 0, .inl List.not_mem_nil⟩
  | opened _ hopen ih => exact ih.opened hopen
  | diedMakingFolder _ hmade ih =>
    obtain ⟨f, log, c, hf, hs⟩ := ih
    exact ⟨f, log, c, hf.madeFolder hmade, hs⟩
  | diedMakingLog _ hmade hmade' ih => exact ih.madeLog hmade hmade'
  | appended _ happ ih => exact ih.appended happ
  | peeked _ hpeek ih => exact ih.peeked hpeek
  | advanced _ hstop ih =>
    obtain ⟨log, head, c, r, hd, hc, hoff, hj, hs⟩ := ih
    obtain ⟨i, hi, rfl⟩ := hs.1.ends _ hstop
    exact ⟨log, head, c, _, hd, hc, hoff, hj.advance hi, hs⟩
  | committed _ hstop _ hcommit ih => exact ih.committed hstop hcommit
  | died _ ih =>
    obtain ⟨log, head, c, r, hd, hc, -, -, hs, hbelow⟩ := ih
    obtain ⟨f, hf, -⟩ := hd.finds hc
    exact ⟨f, log, c, hf, hs, .inl hbelow⟩
  | diedAppending now e n k _ ih => exact ih.diedAppending now e n k
  | diedCommitting n k _ hstop _ ih => exact ih.diedCommitting hstop n k

/-! ### One line -/

section OneLine

variable (seq : UInt64) (now : Time.Stamp) (e : Event)

theorem lines_line : lines (Envelope.line seq now e) = [Envelope.body seq now e] :=
  @lines_joined_append_line [] (fun _ hl => by cases hl) _ (Envelope.newline_not_mem_body _ _ _)

theorem mark_line : mark (lines (Envelope.line seq now e)) 1 = (Envelope.line seq now e).length := by
  have hwhole : joined (lines (Envelope.line seq now e)) = Envelope.line seq now e := by
    rw [lines_line, joined_cons, joined_nil]
    rfl
  rw [mark_of_length_le (by rw [lines_line, List.length_singleton]), hwhole]

variable {now e}

/-- It is appended to an empty log. -/
theorem append_line (f : Folder) (h : f.log = some (.file []))
    (hsize : (Envelope.line 0 now e).length ≤ maxFileSize) :
    Journal.append ⟨{}, 0, 0, 0⟩ now e ⟨.folder f, none⟩ =
      (⟨{}, 0, (Envelope.line 0 now e).length, 1⟩,
        ⟨.folder { f with log := some (.file (Envelope.line 0 now e)) }, none⟩, .ok 0) := by
  obtain ⟨_, head, tmp, others, removal⟩ := f
  cases h
  have hroom : 0 + (Envelope.line 0 now e).length ≤ maxFileSize := by rwa [Nat.zero_add]
  have happ := @Journal.append_room ⟨{}, 0, 0, 0⟩ ⟨.folder ⟨some (.file []), head, tmp, others, removal⟩, none⟩ now e 1
    rfl (Nat.le_refl 0) hroom
  simp only [Nat.zero_add] at happ
  exact happ

theorem peek_line (f : Folder) (h : f.log = some (.file (Envelope.line 0 now e))) :
    Journal.peek ⟨{}, 0, (Envelope.line 0 now e).length, 1⟩ ⟨.folder f, none⟩ =
      some (Envelope.body 0 now e, (Envelope.line 0 now e).length) := by
  have hat : Journal.At ⟨{}, 0, (Envelope.line 0 now e).length, 1⟩ (lines (Envelope.line 0 now e)) 0 := by
    refine ⟨?_, (mark_zero _).symm, Nat.zero_le _⟩
    rw [← mark_length, lines_line]
    exact (lines_line 0 now e ▸ mark_line 0 now e).symm
  rw [hat.peek ⟨f, rfl, h, rfl⟩, mark_line, lines_line]
  rfl

end OneLine

/-- The line of a key, 112 bytes long. -/
def keyLine : Bytes := Envelope.line 0 ⟨⟨2024, 1, 1⟩, 0, 0, 0, 123456789⟩ (.key ⟨1, 0⟩)

theorem length_keyLine : keyLine.length = 112 := by decide +kernel

theorem lines_keyLine : lines keyLine = [Envelope.body 0 ⟨⟨2024, 1, 1⟩, 0, 0, 0, 123456789⟩ (.key ⟨1, 0⟩)] :=
  lines_line _ _ _

theorem mark_keyLine : mark (lines keyLine) 1 = 112 := by
  rw [keyLine, mark_line]
  exact length_keyLine

theorem append_keyLine (f : Folder) (h : f.log = some (.file [])) :
    Journal.append ⟨{}, 0, 0, 0⟩ ⟨⟨2024, 1, 1⟩, 0, 0, 0, 123456789⟩ (.key ⟨1, 0⟩) ⟨.folder f, none⟩ =
      (⟨{}, 0, 112, 1⟩, ⟨.folder { f with log := some (.file keyLine) }, none⟩, .ok 0) := by
  have happ := @append_line ⟨⟨2024, 1, 1⟩, 0, 0, 0, 123456789⟩ (.key ⟨1, 0⟩) f h
  rw [← keyLine, length_keyLine] at happ
  exact happ (by decide)

theorem startOffset_keyLine : Journal.startOffset keyLine ⟨112, 0⟩ = 112 :=
  (Journal.startOffset_eq_iff keyLine ⟨112, 0⟩).2
    ⟨1, by rw [lines_keyLine, List.length_singleton], mark_keyLine.symm⟩

theorem peek_keyLine (f : Folder) (h : f.log = some (.file keyLine)) :
    Journal.peek ⟨{}, 0, 112, 1⟩ ⟨.folder f, none⟩ =
      some (Envelope.body 0 ⟨⟨2024, 1, 1⟩, 0, 0, 0, 123456789⟩ (.key ⟨1, 0⟩), 112) := by
  have hpeek := peek_line f h
  rwa [← keyLine, length_keyLine] at hpeek

/-- When it has been delivered the log is emptied. -/
theorem commit_keyLine :
    Journal.commit ⟨{}, 112, 112, 1⟩ 112 ⟨.folder { log := some (.file keyLine) }, none⟩ =
      (⟨⟨0, 1⟩, 0, 0, 1⟩,
        ⟨.folder { log := some (.file []), head := some (.file (Cursor.bytes ⟨0, 1⟩)) }, none⟩, none) := by
  have hrun : Effect.run (Journal.compactEffects ⟨{}, 112, 112, 1⟩)
      ⟨.folder { log := some (.file keyLine) }, none⟩ =
      (Disk.setLog ⟨.folder ⟨some (.file keyLine), some (.file (Cursor.bytes ⟨0, 1⟩)), none, [], .whole⟩, none⟩
        (Effect.resized 0 keyLine), none) := rfl
  have hcut : Effect.resized 0 keyLine = [] := by simp [Effect.resized]
  have hadvance : Journal.advance ⟨{}, 112, 112, 1⟩ 112 = ⟨{}, 112, 112, 1⟩ := rfl
  rw [Journal.commit, hadvance, if_pos (by decide), hrun, hcut]
  rfl

/-! ### Recovery -/

section Recovery

variable {j : Journal} {d : Disk} {log : Bytes} {head : Option Entry} {c : Cursor} {r : Nat} {ends : List Nat}

end Recovery

end Store
end CecRelay
