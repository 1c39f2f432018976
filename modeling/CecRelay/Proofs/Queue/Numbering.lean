import CecRelay.Proofs.Queue.NextQueue

/-!
# Numbers over the life of a folder

The number of the next event is found in two places: the cursor has it as of the last time that it was moved, and
the last line behind the cursor has it, less one, as of the last append. Either may be behind, and emptying the log
removes one of them. At every moment one of the two is right, and neither is ahead (`Numbered`): appending makes the
line right, and a new cursor is right by itself.

An append that breaks off may leave its whole line behind those of the queue, under the number that is still the
next one (`Disk.Numbers`). While the queue is in service that line counts for nothing; when the process has died it is
one of the lines, and its number has been used (`Numbered.adopt`). So opening counts on (`Numbered.opens`).

A folder is opened, the queue on it works and dies, between two steps or in the middle of one, any number of times
(`Life.Issued`). The numbers that have been told in all that time increase, and so do those of the lines in the log
(`Life.Issued.numbers_increase`).
-/

namespace CecRelay

open Lines

/-! ### The numbers of lines -/

/-- Every line can be read. -/
def Lines.Readable (ls : List Bytes) : Prop := ∀ line ∈ ls, ∃ seq, Envelope.number? line = some seq

/-- The last of some lines that can be read has the last of their numbers. -/
theorem Lines.lastSeq?_drop {ls : List Bytes} (h : Readable ls) {i : Nat} (hi : i < ls.length) :
    Journal.lastSeq? (ls.drop i) = Journal.lastSeq? ls := by
  have hne : numbers (ls.drop i) ≠ [] := by
    obtain ⟨seq, hseq⟩ := h ls[i] (List.getElem_mem hi)
    rw [List.drop_eq_getElem_cons hi, numbers, List.filterMap_cons_some hseq]
    exact List.cons_ne_nil _ _
  have hsplit : numbers ls = numbers (ls.take i) ++ numbers (ls.drop i) := by
    rw [← numbers_append, List.take_append_drop]
  show (numbers (ls.drop i)).getLast? = (numbers ls).getLast?
  rw [hsplit, List.getLast?_append_of_ne_nil _ hne]

/-- Lines that can be read have one number each. -/
theorem Lines.Readable.map_number? {ls : List Bytes} (h : Readable ls) :
    ls.map Envelope.number? = (numbers ls).map some := by
  induction ls with
  | nil => rfl
  | cons line ls ih =>
    obtain ⟨seq, hseq⟩ := h line List.mem_cons_self
    rw [numbers, List.filterMap_cons_some hseq, List.map_cons, List.map_cons, hseq,
      ih fun other hother => h other (List.mem_cons_of_mem _ hother)]
    rfl

/-! ### The lines and the cursor -/

/-- With these lines in the log and this cursor the next number is `n`. -/
structure Numbered (ls : List Bytes) (c : Cursor) (n : Nat) : Prop where
  /-- The lines are lines. -/
  unbroken : Unbroken ls
  /-- They are no longer than a file may be. -/
  size : (joined ls).length ≤ maxFileSize
  /-- The cursor is not behind the last one. -/
  offset : c.offset ≤ (joined ls).length
  /-- Every line has a number. -/
  readable : Readable ls
  /-- The numbers increase. -/
  increasing : (numbers ls).Pairwise (· < ·)
  /-- They have been used. -/
  below : ∀ seq ∈ numbers ls, seq.toNat < n
  /-- The cursor is not ahead. -/
  cursor : c.nextSeq.toNat ≤ n
  /-- The cursor has the next number, or there is a line behind it and the last one has the number before. -/
  next : c.nextSeq.toNat = n ∨ c.offset < (joined ls).length ∧
    ∃ seq, Journal.lastSeq? ls = some seq ∧ seq.toNat + 1 = n

namespace Numbered

variable {ls : List Bytes} {c : Cursor} {n : Nat}

/-- A line is appended under the next number. -/
theorem grow (h : Numbered ls c n) {seq : UInt64} (hseq : seq.toNat = n) {now : Time.Stamp} {e : Event}
    (hvalid : now.Valid) (hsize : (joined (ls ++ [Envelope.body seq now e])).length ≤ maxFileSize) :
    Numbered (ls ++ [Envelope.body seq now e]) c (n + 1) := by
  have hnumber := Envelope.number?_body seq e hvalid
  have hnumbers : numbers (ls ++ [Envelope.body seq now e]) = numbers ls ++ [seq] := by
    rw [numbers_append, numbers, numbers, List.filterMap_cons_some hnumber, List.filterMap_nil]
  have hlt : (joined ls).length < (joined (ls ++ [Envelope.body seq now e])).length := by
    rw [joined_append, List.length_append, joined_cons, joined_nil]
    simp
  constructor
  · exact h.unbroken.append (unbroken_singleton (Envelope.newline_not_mem_body seq now e))
  · exact hsize
  · exact h.offset.trans hlt.le
  · intro line hline
    rcases List.mem_append.1 hline with hold | hnew
    · exact h.readable line hold
    · rw [List.mem_singleton.1 hnew]
      exact ⟨seq, hnumber⟩
  · rw [hnumbers, List.pairwise_append]
    refine ⟨h.increasing, List.pairwise_singleton _ _, fun old hold new hnew => ?_⟩
    rw [List.mem_singleton.1 hnew, UInt64.lt_iff_toNat_lt, hseq]
    exact h.below old hold
  · intro other hother
    rw [hnumbers] at hother
    rcases List.mem_append.1 hother with hold | hnew
    · exact Nat.lt_succ_of_lt (h.below other hold)
    · rw [List.mem_singleton.1 hnew, hseq]
      exact Nat.lt_succ_self n
  · exact Nat.le_succ_of_le h.cursor
  · refine .inr ⟨h.offset.trans_lt hlt, seq, ?_, by rw [hseq]⟩
    show (numbers (ls ++ [Envelope.body seq now e])).getLast? = some seq
    rw [hnumbers, List.getLast?_concat]

/-- The line that an append has left that broke off is one of the lines, if it is whole. -/
theorem adopt (h : Numbered ls c n) {seq : UInt64} (hseq : seq.toNat = n) {extra : Bytes}
    (hextra : Service.Leftover seq extra) (hsize : (joined ls ++ extra).length ≤ maxFileSize) :
    Numbered (lines (joined ls ++ extra)) c (n + (lines extra).length) := by
  have hle := Store.length_complete_le (joined ls ++ extra)
  rw [complete_eq, lines_joined_append h.unbroken] at hle
  rw [lines_joined_append h.unbroken]
  rcases hextra.lines with hnone | ⟨now, e, hvalid, hone⟩
  · rw [hnone, List.append_nil]
    exact h
  · rw [hone] at hle ⊢
    exact h.grow hseq hvalid (hle.trans hsize)

/-- The cursor moves, and has the next number. -/
theorem moved (h : Numbered ls c n) {seq : UInt64} (hseq : seq.toNat = n) {offset : Nat}
    (hoffset : offset ≤ (joined ls).length) : Numbered ls ⟨offset, seq⟩ n :=
  { h with
    offset := hoffset
    cursor := Nat.le_of_eq hseq
    next := .inl hseq }

/-- The log is emptied. -/
theorem empty {seq : UInt64} (hseq : seq.toNat = n) : Numbered [] ⟨0, seq⟩ n where
  unbroken _ hline := by cases hline
  size := Nat.zero_le _
  offset := Nat.zero_le _
  readable _ hline := by cases hline
  increasing := List.Pairwise.nil
  below _ hseq := by cases hseq
  cursor := Nat.le_of_eq hseq
  next := .inl hseq

/-- A cursor that is not behind the last line is read back. -/
theorem ofEntry (h : Numbered ls c n) {seq : UInt64} {offset : Nat} (hoffset : offset ≤ (joined ls).length) :
    Cursor.ofEntry (some (.file (Cursor.bytes ⟨offset, seq⟩))) = .ok ⟨offset, seq⟩ := by
  have hle : offset ≤ 0xFFFFFFFFFFFFFFFF := by
    have hsize := h.size
    simp only [maxFileSize] at hsize
    omega
  rw [Cursor.ofEntry_bytes, if_pos hle]

/-- The greatest number has not been used while there are numbers left. -/
theorem lastSeq?_ne (h : Numbered ls c n) (hn : n < 2 ^ 64) (i : Nat) :
    Journal.lastSeq? (ls.drop i) ≠ some Journal.greatest := by
  intro hlast
  have hmem := Journal.mem_numbers_of_lastSeq? (Journal.lastSeq?_of_suffix (List.drop_suffix i ls) hlast)
  have hbelow := h.below _ hmem
  have hgreatest : Journal.greatest.toNat = 2 ^ 64 - 1 := rfl
  omega

/-- Opening counts on: the greater of what the lines and the cursor say is the next number. -/
theorem max_fresh (h : Numbered ls c n) {i : Nat} (hi : i ≤ ls.length)
    (hc : c.offset = mark ls i ∨ i = 0 ∧ ∀ k, c.offset ≠ mark ls k) {fresh : UInt64}
    (hfresh : Journal.fresh? (ls.drop i) = some fresh) : (max fresh c.nextSeq).toNat = n := by
  -- a line behind the cursor is among those that are read again
  have hbehind : c.offset < (joined ls).length → i < ls.length := by
    intro hlt
    refine Nat.lt_of_le_of_ne hi fun hend => ?_
    rcases hc with hmark | ⟨rfl, -⟩
    · rw [hmark, hend, mark_length] at hlt
      exact Nat.lt_irrefl _ hlt
    · rw [List.eq_nil_of_length_eq_zero hend.symm] at hlt
      exact Nat.not_lt_zero _ hlt
  rw [UInt64.toNat_max]
  rw [Journal.fresh?] at hfresh
  cases hlast : Journal.lastSeq? (ls.drop i) with
  | none =>
    rw [hlast] at hfresh
    cases hfresh
    rcases h.next with hnext | ⟨hlt, seq, hsome, -⟩
    · rw [hnext]
      exact Nat.zero_max n
    · rw [lastSeq?_drop h.readable (hbehind hlt), hsome] at hlast
      cases hlast
  | some seq =>
    rw [hlast] at hfresh
    rw [Journal.toNat_of_succ? hfresh]
    rcases h.next with hnext | ⟨hlt, other, hsome, hnext⟩
    · have hmem := Journal.mem_numbers_of_lastSeq? (Journal.lastSeq?_of_suffix (List.drop_suffix i ls) hlast)
      rw [hnext]
      exact Nat.max_eq_right (h.below seq hmem)
    · rw [lastSeq?_drop h.readable (hbehind hlt), hsome] at hlast
      cases hlast
      rw [hnext]
      exact Nat.max_eq_left h.cursor

end Numbered

/-! ### The disk -/

/-- On what stands at the place the next number is `n`. -/
def Place.Counts (place : Place) (n : Nat) : Prop := ∃ f log c, place.Finds f log c ∧ Numbered (lines log) c n

/-- The log has these lines, and behind them what an append under the number `seq` has left that broke off. That is
the next number on these lines and the cursor. -/
def Disk.Numbers (d : Disk) (seq : UInt64) (ls : List Bytes) (extra : Bytes) : Prop :=
  ∃ head c, d.Stands (joined ls ++ extra) head ∧ Cursor.ofEntry head = .ok c ∧ Numbered ls c seq.toNat ∧
    Service.Leftover seq extra ∧ (joined ls ++ extra).length ≤ maxFileSize

/-- On what is on disk the next number is `n`, and the journal knows that. -/
def Journal.Counts (j : Journal) (d : Disk) (n : Nat) : Prop :=
  ∃ ls extra, d.Numbers j.nextSeq ls extra ∧ j.len = (joined ls).length ∧ j.nextSeq.toNat = n

theorem Place.Bare.counts {place : Place} (h : place.Bare) : place.Counts 0 := by
  obtain ⟨f, hf⟩ := h.finds
  exact ⟨f, [], {}, hf, .empty rfl⟩

/-- The log at a place, as a disk has it on which nothing is open. -/
theorem Place.Finds.log_disk {place : Place} {f : Folder} {log : Bytes} {c : Cursor} (h : place.Finds f log c) :
    Disk.log ⟨place, none⟩ = log := by
  obtain ⟨f₀, hfolder, hlog⟩ := h.folder
  cases place with
  | missing =>
    cases hfolder
    cases hlog
    rfl
  | folder f₁ =>
    cases hfolder
    obtain ⟨entry, _, _, _, _⟩ := f₀
    match entry with
    | none | some (.file _) =>
      cases hlog
      rfl
    | some (.folder _) => cases hlog
  | file _ | blocked _ => cases hfolder

/-- Opening counts on, and it succeeds while there are numbers left. -/
theorem Place.Counts.opens {place place' : Place} {n : Nat} {result : Except Failure Journal} (h : place.Counts n)
    (hopen : Journal.open place = (place', result)) :
    place'.Counts n ∧ (n < 2 ^ 64 → ∃ j, result = .ok j) ∧ ∀ j, result = .ok j → j.Counts ⟨place', none⟩ n := by
  obtain ⟨f, log, c, hf, hn⟩ := h
  have hsame := hf.open_eq
  rw [hopen] at hsame
  obtain ⟨rfl, -⟩ := Prod.mk.inj hsame
  refine ⟨⟨_, complete log, c, ⟨⟨_, rfl, rfl⟩, hf.cursor⟩, by rwa [lines_complete]⟩, fun hlt => ?_, ?_⟩
  · obtain ⟨i, -, hstart, -⟩ := Journal.exists_startOffset log c
    have hlast := hn.lastSeq?_ne hlt i
    rw [← lines_drop_mark, ← hstart] at hlast
    obtain ⟨place', j, hok⟩ := hf.open_iff.2 hlast
    exact ⟨j, congrArg Prod.snd (hopen.symm.trans hok)⟩
  · rintro j rfl
    obtain ⟨-, i, hj, -, hstart, hc⟩ := hf.opened hopen
    obtain ⟨fresh, hfresh, hnext⟩ := hf.nextSeq_opened hopen
    rw [hstart, lines_drop_mark] at hfresh
    have hcount : j.nextSeq.toNat = n := hnext ▸ hn.max_fresh hj.le hc hfresh
    refine ⟨lines log, [], ⟨f.head, c, ?_, hf.cursor, hcount.symm ▸ hn, .nil _, ?_⟩, hj.len, hcount⟩
    · rw [List.append_nil, ← complete_eq]
      exact hf.stands hopen
    · rw [List.append_nil]
      exact hn.size

namespace Disk.Numbers

variable {d : Disk} {seq : UInt64} {ls : List Bytes} {extra : Bytes}

theorem log_eq (h : d.Numbers seq ls extra) : d.log = joined ls ++ extra := by
  obtain ⟨head, c, hd, -⟩ := h
  exact hd.log_eq

theorem unbroken (h : d.Numbers seq ls extra) : Unbroken ls := by
  obtain ⟨head, c, -, -, hn, -⟩ := h
  exact hn.unbroken

/-- Where nobody has the log open what is left behind the lines counts. -/
theorem place (h : d.Numbers seq ls extra) : d.place.Counts (seq.toNat + (lines extra).length) := by
  obtain ⟨head, c, hd, hc, hn, hextra, hsize⟩ := h
  obtain ⟨f, hf, -⟩ := hd.finds hc
  exact ⟨f, _, c, hf, hn.adopt rfl hextra hsize⟩

/-- An attempt to move the cursor leaves the number to be used next. -/
theorem crash_headEffects (h : d.Numbers seq ls extra) {offset : Nat} (hoffset : offset ≤ (joined ls).length)
    (i k : Nat) : (Effect.crash i k (Journal.headEffects ⟨offset, seq⟩) d).Numbers seq ls extra := by
  obtain ⟨head, c, hd, hc, hn, hextra, hsize⟩ := h
  rcases hd.crash_headEffects ⟨offset, seq⟩ i k with hold | hnew
  · exact ⟨head, c, hold, hc, hn, hextra, hsize⟩
  · exact ⟨_, _, hnew, hn.ofEntry hoffset, hn.moved rfl hoffset, hextra, hsize⟩

/-- So does a commit that breaks off, and the log is as it was, or it is empty. -/
theorem crash_commit {j : Journal} (h : d.Numbers j.nextSeq ls extra) (hlen : j.len = (joined ls).length)
    (stop i k : Nat) : ∃ ls' extra', (Effect.crash i k (j.commitEffects stop) d).Numbers j.nextSeq ls' extra' ∧
      (ls' = ls ∧ extra' = extra ∨ ls' = [] ∧ extra' = []) := by
  obtain ⟨head, c, hd, hc, hn, hextra, hsize⟩ := h
  obtain ⟨log', head', hd', hcase⟩ := hd.crash_commit hc j stop i k
  rcases hcase with ⟨rfl, rfl | ⟨offset, hoffset, rfl⟩⟩ | ⟨-, rfl, rfl⟩
  · exact ⟨ls, extra, ⟨_, c, hd', hc, hn, hextra, hsize⟩, .inl ⟨rfl, rfl⟩⟩
  · have hle : offset ≤ (joined ls).length := by
      rcases hoffset with rfl | rfl
      · rw [← hlen]
        exact Nat.min_le_right _ _
      · exact Nat.zero_le _
    exact ⟨ls, extra, ⟨_, _, hd', hn.ofEntry hle, hn.moved rfl hle, hextra, hsize⟩, .inl ⟨rfl, rfl⟩⟩
  · exact ⟨[], [], ⟨_, _, hd', Store.ofEntry_empty j.nextSeq, .empty rfl, .nil _, Nat.zero_le _⟩, .inr ⟨rfl, rfl⟩⟩

end Disk.Numbers

namespace Journal

/-! ### What the operations do -/

variable {j j' : Journal} {d d' : Disk} {n : Nat}

/-- Where a journal reads makes no difference to appending. -/
theorem append_read (j : Journal) (r : Nat) (now : Time.Stamp) (e : Event) (d : Disk) :
    ({ j with read := r }).append now e d =
      ({ (j.append now e d).1 with read := r }, (j.append now e d).2) := by
  have hrun : Effect.run (appendEffects { j with read := r } d.log (Envelope.line j.nextSeq now e)) d =
      Effect.run (j.appendEffects d.log (Envelope.line j.nextSeq now e)) d := rfl
  simp only [append, hrun]
  split
  · split
    · rfl
    · rfl
  · rfl

/-- What an append is to leave of a journal that reads from the start it leaves of any. -/
theorem append_of_read {now : Time.Stamp} {e : Event} {result : Except Failure UInt64}
    (h : ({ j with read := 0 }).append now e d = (j', d', result)) :
    ∃ j₁, j.append now e d = (j₁, d', result) ∧ j₁.len = j'.len ∧ j₁.nextSeq = j'.nextSeq := by
  rw [append_read] at h
  obtain ⟨rfl, hrest⟩ := Prod.mk.inj h
  exact ⟨_, Prod.ext rfl hrest, rfl, rfl⟩

namespace Counts

variable (h : j.Counts d n)

include h

/-- When nobody has the log open any more the lines count that are behind those of the journal. -/
theorem place : d.place.Counts (n + (lines (d.log.drop j.len)).length) := by
  obtain ⟨ls, extra, hd, hlen, rfl⟩ := h
  rw [hd.log_eq, hlen, List.drop_left]
  exact hd.place

/-- They are at most one. -/
theorem left_le : (lines (d.log.drop j.len)).length ≤ 1 := by
  obtain ⟨ls, extra, hd, hlen, -⟩ := h
  rw [hd.log_eq, hlen, List.drop_left]
  obtain ⟨head, c, -, -, -, hextra, -⟩ := hd
  rcases hextra.lines with hnone | ⟨now, e, -, hone⟩
  · rw [hnone]
    exact Nat.zero_le _
  · rw [hone]
    exact Nat.le_refl _

/-- An event is refused, or appended under the next number. Then the program breaks off if that is the greatest. -/
theorem append (now : Time.Stamp) (e : Event) :
    (∃ d' cause, j.append now e d = (j, d', .error (.error cause)) ∧ j.Counts d' n) ∨
      (∃ j' d', j.append now e d = (j', d', .ok j.nextSeq) ∧ (now.Valid → j'.Counts d' (n + 1))) ∨
      ∃ j' d', j.append now e d = (j', d', .error .broken) ∧ n + 1 = 2 ^ 64 := by
  obtain ⟨ls, extra, ⟨head, c, hd, hc, hn, hextra, hsize⟩, hlen, rfl⟩ := h
  have hat : At { j with read := 0 } ls 0 := ⟨hlen, (mark_zero _).symm, Nat.zero_le _⟩
  rcases hat.append_cases hd now e with
    ⟨d', cause, heq, hd'⟩ | ⟨j₁, d', hd', hat', -, hsize', ⟨heq, hnext⟩ | ⟨heq, hgreatest, -⟩⟩
  · obtain ⟨j', heq, -⟩ := append_of_read heq
    obtain rfl := append_error heq
    refine .inl ⟨d', cause, heq, ls, [], ⟨head, c, ?_, hc, hn, .nil _, ?_⟩, hlen, rfl⟩
    · rwa [List.append_nil]
    · rw [List.append_nil]
      exact hn.size
  · obtain ⟨j', heq, hlen', hnext'⟩ := append_of_read heq
    refine .inr (.inl ⟨j', d', heq, fun hvalid => ?_⟩)
    have hcount : j'.nextSeq.toNat = j.nextSeq.toNat + 1 := hnext' ▸ toNat_of_succ? hnext
    refine ⟨_, [], ⟨head, c, ?_, hc, hcount.symm ▸ hn.grow rfl hvalid hsize', .nil _, ?_⟩, hlen'.trans hat'.len, hcount⟩
    · rwa [List.append_nil]
    · rw [List.append_nil]
      exact hsize'
  · obtain ⟨j', heq, -⟩ := append_of_read heq
    exact .inr (.inr ⟨j', d', heq, congrArg (fun seq : UInt64 => seq.toNat + 1) hgreatest⟩)

/-- After an append that has broken off the number is still to be used. -/
theorem crash_append {now : Time.Stamp} (hvalid : now.Valid) (e : Event) (i k : Nat) :
    j.Counts (Effect.crash i k (j.appendEffects d.log (Envelope.line j.nextSeq now e)) d) n := by
  obtain ⟨ls, extra, hd, hlen, hnext⟩ := h
  have hlog := hd.log_eq
  obtain ⟨head, c, hd, hc, hn, hextra, hsize⟩ := hd
  have hat : At { j with read := 0 } ls 0 := ⟨hlen, (mark_zero _).symm, Nat.zero_le _⟩
  obtain ⟨more, hd', hmore, hsize'⟩ := hat.crash_append hd now e i k
  rw [hlog]
  refine ⟨ls, more, ⟨head, c, hd', hc, hn, ?_, hsize' hsize⟩, hlen, hnext⟩
  rcases hmore with rfl | ⟨m, rfl⟩
  · exact hextra
  · exact .inr ⟨now, e, m, hvalid, rfl⟩

/-- A commit that breaks off leaves the number to be used next, or the one after a line that was left. -/
theorem crash_commit (stop i k : Nat) : ∃ n', n ≤ n' ∧ n' ≤ n + (lines (d.log.drop j.len)).length ∧
    (Effect.crash i k (j.commitEffects stop) d).place.Counts n' := by
  obtain ⟨ls, extra, hd, hlen, rfl⟩ := h
  obtain ⟨ls', extra', hd', hcase⟩ := hd.crash_commit hlen stop i k
  refine ⟨_, Nat.le_add_right _ _, Nat.add_le_add_left ?_ _, hd'.place⟩
  rw [hd.log_eq, hlen, List.drop_left]
  rcases hcase with ⟨-, rfl⟩ | ⟨-, rfl⟩
  · exact Nat.le_refl _
  · exact Nat.zero_le _

/-- One that comes to its end leaves it to be used next. -/
theorem commit (stop : Nat) : (j.commit stop d).1.Counts (j.commit stop d).2.1 n := by
  obtain ⟨ls, extra, hd, hlen, hnext⟩ := h
  obtain ⟨ls', extra', hd', hcase⟩ := hd.crash_commit hlen stop (j.commitEffects stop).length 0
  rw [Effect.crash_of_length_le (Nat.le_refl _), ← commit_run] at hd'
  rw [← nextSeq_commit j stop d] at hd' hnext
  refine ⟨ls', extra', hd', ?_, hnext⟩
  have hlog := hd.log_eq
  have hlog' := hd'.log_eq
  rcases hcase with ⟨rfl, rfl⟩ | ⟨rfl, rfl⟩
  · rcases j.len_commit stop d with ⟨hsame, -⟩ | ⟨⟨-, hzero⟩, hempty⟩
    · exact hsame.trans hlen
    · rw [hempty] at hlog'
      rw [hzero, (List.append_eq_nil_iff.1 hlog'.symm).1]
      rfl
  · rcases j.len_commit stop d with ⟨hsame, hkept⟩ | ⟨⟨-, hzero⟩, -⟩
    · rw [hlog', hlog] at hkept
      rw [hsame, hlen, (List.append_eq_nil_iff.1 hkept.symm).1]
      rfl
    · exact hzero

/-- So does one that could not write the cursor. -/
theorem commitFailing (stop i k : Nat) :
    (commitFailing i k j stop d).1.Counts (Journal.commitFailing i k j stop d).2 n := by
  obtain ⟨ls, extra, hd, hlen, hnext⟩ := h
  rw [Journal.commitFailing]
  split
  · exact ⟨ls, extra, hd.crash_headEffects (Nat.zero_le _) i k, hlen, hnext⟩
  · have hle : min stop j.len ≤ (joined ls).length := hlen ▸ Nat.min_le_right _ _
    exact ⟨ls, extra, hd.crash_headEffects hle i k, hlen, hnext⟩

/-- Nothing else that a journal knows makes a difference. -/
theorem same (hlen : j'.len = j.len) (hnext : j'.nextSeq = j.nextSeq) : j'.Counts d n := by
  obtain ⟨ls, extra, hd, hlen', hnext'⟩ := h
  exact ⟨ls, extra, hnext ▸ hd, hlen.trans hlen', hnext ▸ hnext'⟩

end Counts
end Journal

/-! ### A queue in service -/

/-- An event is turned away or refused, or it is stored under the next number. If there is a number after that it is
accepted, and otherwise its number is told to nobody. -/
theorem Live.append_counts {l : Live} {n : Nat} (h : l.queue.journal.Counts l.disk n) (now : Time.Stamp) (e : Event) :
    l.append now e = (l, .ok none) ∨
      (∃ l' cause, l.append now e = (l', .error (.error cause)) ∧ l'.queue.journal.Counts l'.disk n) ∨
      (∃ l', l.append now e = (l', .ok (some l.queue.journal.nextSeq)) ∧
        (now.Valid → l'.queue.journal.Counts l'.disk (n + 1))) ∨
      ∃ l', l.append now e = (l', .error .broken) ∧ n + 1 = 2 ^ 64 := by
  rw [append]
  split
  · exact .inl rfl
  · rcases h.append now e with ⟨d', cause, heq, hsame⟩ | ⟨j', d', heq, hmore⟩ | ⟨j', d', heq, hend⟩
    · rw [heq]
      exact .inr (.inl ⟨_, cause, rfl, hsame⟩)
    · rw [heq]
      exact .inr (.inr (.inl ⟨_, rfl, hmore⟩))
    · rw [heq]
      exact .inr (.inr (.inr ⟨_, rfl, hend⟩))

/-- A number that is told is the next one. -/
theorem Journal.Counts.toNat_accepted {l l' : Live} {n : Nat} (h : l.queue.journal.Counts l.disk n) {now : Time.Stamp}
    {e : Event} {seq : UInt64} (happ : l.append now e = (l', .ok (some seq))) : seq.toNat = n := by
  obtain ⟨ls, extra, -, -, hnext⟩ := h
  rw [(Live.append_ok happ).1]
  exact hnext

/-- The number that has been told, if one has. -/
def Happening.number : Happening → List UInt64
  | .accepted seq _ => [seq]
  | _ => []

/-- The number under which an event has been stored, if one has. -/
def Happening.stored : Happening → List UInt64
  | .accepted seq _ | .untold seq _ => [seq]
  | _ => []

/-- A step of a queue in service leaves the next number to be used, or it stores an event under it. While there are
numbers left the number is told then. -/
theorem Service.Step.counts {v v' : Service} {a : Happening} {n : Nat} (hstep : Step v a v')
    (h : v.live.queue.journal.Counts v.live.disk n) (hthere : v'.gone = false) :
    a.stored = [] ∧ a.number = [] ∧ v'.live.queue.journal.Counts v'.live.disk n ∨
      ∃ seq, a.stored = [seq] ∧ seq.toNat = n ∧
        (n + 1 < 2 ^ 64 → a.number = [seq] ∧ v'.live.queue.journal.Counts v'.live.disk (n + 1)) := by
  cases hstep with
  | @accepted l now e seq hvalid happ =>
    rcases Live.append_counts h now e with heq | ⟨_, _, heq, -⟩ | ⟨l', heq, hmore⟩ | ⟨_, heq, -⟩
    · rw [heq] at happ
      cases happ
    · rw [heq] at happ
      cases happ
    · have hseq := h.toNat_accepted happ
      rw [heq] at happ
      cases happ
      exact .inr ⟨_, rfl, hseq, fun _ => ⟨rfl, hmore hvalid⟩⟩
    · rw [heq] at happ
      cases happ
  | @untold l now e _ happ =>
    rcases Live.append_counts h now e with heq | ⟨_, _, heq, -⟩ | ⟨_, heq, -⟩ | ⟨_, heq, hend⟩
    · rw [heq] at happ
      cases happ
    · rw [heq] at happ
      cases happ
    · rw [heq] at happ
      cases happ
    · obtain ⟨ls, extra, -, -, hnext⟩ := h
      exact .inr ⟨_, rfl, hnext, fun hlt => absurd hend hlt.ne⟩
  | @refused l now e cause happ =>
    rcases Live.append_counts h now e with heq | ⟨l', _, heq, hsame⟩ | ⟨_, heq, -⟩ | ⟨_, heq, -⟩
    · rw [heq] at happ
      cases happ
    · rw [heq] at happ
      cases happ
      exact .inl ⟨rfl, rfl, hsame⟩
    · rw [heq] at happ
      cases happ
    · rw [heq] at happ
      cases happ
  | @refusedPartly now e i k hvalid _ => exact .inl ⟨rfl, rfl, h.crash_append hvalid e i k⟩
  | @pumped l hpump =>
    rw [(pumped_same v l).1]
    refine .inl ⟨rfl, rfl, ?_⟩
    cases Live.turn_of_step? hpump with
    | @commits stop j d fault _ hcommit =>
      have hmoved := h.commit stop
      rw [hcommit] at hmoved
      exact hmoved
    | still hstill =>
      rw [hstill.disk]
      exact h.same hstill.len hstill.nextSeq
    | takes | passesOver | handsOut => exact h
  | @pumpedFailing stop i k => exact .inl ⟨rfl, rfl, h.commitFailing stop i k⟩
  | waited =>
    obtain ⟨phase, heq⟩ := v.live.tick_eq
    rw [heq]
    exact .inl ⟨rfl, rfl, h⟩
  | took ht =>
    obtain ⟨⟨keys, power, rfl⟩, -, -⟩ := Live.take?_eq ht
    exact .inl ⟨rfl, rfl, h⟩
  | @closed stop => exact .inl ⟨rfl, rfl, h.commit stop⟩
  | @closedFailing stop i k => exact .inl ⟨rfl, rfl, h.commitFailing stop i k⟩
  | removed => cases hthere
  | turnedAway | notified | received | deafened | closing | takes => exact .inl ⟨rfl, rfl, h⟩

/-! ### A folder through all its openings -/

namespace Life

/-- The log. -/
def log : Life → Bytes
  | .down place => Disk.log ⟨place, none⟩
  | .up v => v.live.disk.log

/-- What a folder can come to in which there is nothing at first, the numbers that have been told, in order, and how
many appends there have been whose number may have been used: those that have stored an event, those that have died,
and those that have left a line when the process died. -/
inductive Issued : Life → List UInt64 → Nat → Prop
  /-- At first there is nothing. -/
  | bare {place : Place} : place.Bare → Issued (.down place) [] 0
  /-- It is opened. -/
  | opened {place place' : Place} {ids : List UInt64} {m : Nat} {path : String} {capacity : Nat} {q : Queue} :
    Issued (.down place) ids m → Queue.open? path capacity place = (place', .ok q) →
    Issued (.up (.start ⟨q, ⟨place', none⟩⟩)) ids m
  /-- Opening fails. -/
  | notOpened {place place' : Place} {ids : List UInt64} {m : Nat} {path : String} {capacity : Nat}
    {failure : Failure} : Issued (.down place) ids m →
    Queue.open? path capacity place = (place', .error failure) → Issued (.down place') ids m
  /-- Opening dies when it has made the folder. -/
  | diedMakingFolder {place : Place} {f : Folder} {ids : List UInt64} {m : Nat} : Issued (.down place) ids m →
    Journal.madeFolder place = .ok f → Issued (.down (.folder f)) ids m
  /-- Opening dies when it has made the log. -/
  | diedMakingLog {place : Place} {f₀ f : Folder} {log : Bytes} {ids : List UInt64} {m : Nat} :
    Issued (.down place) ids m → Journal.madeFolder place = .ok f₀ → Journal.madeLog f₀ = .ok (f, log) →
    Issued (.down (.folder f)) ids m
  /-- The queue takes a step, other than to remove its folder. -/
  | stepped {v v' : Service} {a : Happening} {ids : List UInt64} {m : Nat} : Issued (.up v) ids m →
    Service.Step v a v' → v'.gone = false → Issued (.up v') (ids ++ a.number) (m + a.stored.length)
  /-- The process dies, or leaves the queue. -/
  | died {v : Service} {ids : List UInt64} {m : Nat} : Issued (.up v) ids m →
    Issued (.down v.live.disk.place) ids (m + v.left.length)
  /-- The process dies appending, after any part of the line has been written. -/
  | diedAppending {v : Service} {ids : List UInt64} {m : Nat} {now : Time.Stamp} (e : Event) (n k : Nat) :
    Issued (.up v) ids m → now.Valid →
    Issued (.down (Effect.crash n k (v.live.queue.journal.appendEffects v.live.disk.log
      (Envelope.line v.live.queue.journal.nextSeq now e)) v.live.disk).place) ids (m + 1)
  /-- The process dies moving the cursor, or emptying the log after it has. -/
  | diedCommitting {v : Service} {ids : List UInt64} {m : Nat} (stop n k : Nat) : Issued (.up v) ids m →
    Issued (.down (Effect.crash n k (v.live.queue.journal.commitEffects stop) v.live.disk).place) ids
      (m + v.left.length)

/-- The next number is `n`. -/
def Counts : Life → Nat → Prop
  | .down place, n => place.Counts n
  | .up v, n => v.live.queue.journal.Counts v.live.disk n

variable {l : Life} {ids : List UInt64} {m n : Nat}

/-- The numbers that have been told increase, and they are below the next one. -/
structure Told (ids : List UInt64) (n : Nat) : Prop where
  /-- They increase. -/
  increasing : ids.Pairwise (· < ·)
  /-- The next one is greater. -/
  below : ∀ id ∈ ids, id.toNat < n

theorem Told.mono (h : Told ids n) {n' : Nat} (hle : n ≤ n') : Told ids n' :=
  ⟨h.increasing, fun id hid => (h.below id hid).trans_le hle⟩

theorem Told.concat (h : Told ids n) {seq : UInt64} (hseq : seq.toNat = n) : Told (ids ++ [seq]) (n + 1) := by
  constructor
  · rw [List.pairwise_append]
    refine ⟨h.increasing, List.pairwise_singleton _ _, fun id hid other hother => ?_⟩
    rw [List.mem_singleton.1 hother, UInt64.lt_iff_toNat_lt, hseq]
    exact h.below id hid
  · intro id hid
    rcases List.mem_append.1 hid with hold | hnew
    · exact Nat.lt_succ_of_lt (h.below id hold)
    · rw [List.mem_singleton.1 hnew, hseq]
      exact Nat.lt_succ_self n

theorem counts_opened {place place' : Place} {path : String} {capacity : Nat} {q : Queue} (h : place.Counts n)
    (hopen : Queue.open? path capacity place = (place', .ok q)) : q.journal.Counts ⟨place', none⟩ n := by
  obtain ⟨j, hopened, rfl⟩ := Service.exists_journal hopen
  exact (h.opens hopened).2.2 j rfl

theorem counts_notOpened {place place' : Place} {path : String} {capacity : Nat} {failure : Failure}
    (h : place.Counts n) (hopen : Queue.open? path capacity place = (place', .error failure)) : place'.Counts n := by
  obtain ⟨f, log, c, hf, hn⟩ := h
  rw [Service.place_open hf hopen]
  exact ⟨_, complete log, c, ⟨⟨_, rfl, rfl⟩, hf.cursor⟩, by rwa [lines_complete]⟩

/-- There have been as many appends as there are numbers before the next one, or more. -/
theorem Issued.counts (h : Issued l ids m) (hfew : m < 2 ^ 64) : ∃ n ≤ m, l.Counts n ∧ Told ids n := by
  induction h with
  | bare hbare =>
    refine ⟨0, Nat.le_refl 0, hbare.counts, List.Pairwise.nil, fun id hid => ?_⟩
    cases hid
  | opened _ hopen ih =>
    obtain ⟨n, hle, hn, htold⟩ := ih hfew
    exact ⟨n, hle, counts_opened hn hopen, htold⟩
  | notOpened _ hopen ih =>
    obtain ⟨n, hle, hn, htold⟩ := ih hfew
    exact ⟨n, hle, counts_notOpened hn hopen, htold⟩
  | diedMakingFolder _ hmade ih =>
    obtain ⟨n, hle, ⟨f, log, c, hf, hn⟩, htold⟩ := ih hfew
    exact ⟨n, hle, ⟨f, log, c, hf.madeFolder hmade, hn⟩, htold⟩
  | diedMakingLog _ hmade hmade' ih =>
    obtain ⟨n, hle, ⟨f, log, c, hf, hn⟩, htold⟩ := ih hfew
    exact ⟨n, hle, ⟨f, log, c, hf.madeLog hmade hmade', hn⟩, htold⟩
  | stepped _ hstep hthere ih =>
    obtain ⟨n, hle, hn, htold⟩ := ih ((Nat.le_add_right _ _).trans_lt hfew)
    rcases hstep.counts hn hthere with ⟨hnone, hsilent, hsame⟩ | ⟨seq, hone, hseq, hmore⟩
    · rw [hnone, hsilent, List.append_nil]
      exact ⟨n, hle, hsame, htold⟩
    · rw [hone] at hfew ⊢
      have hle' : n + 1 ≤ _ + 1 := Nat.succ_le_succ hle
      obtain ⟨hnumber, hcounts⟩ := hmore (hle'.trans_lt hfew)
      rw [hnumber]
      exact ⟨n + 1, hle', hcounts, htold.concat hseq⟩
  | died _ ih =>
    obtain ⟨n, hle, hn, htold⟩ := ih ((Nat.le_add_right _ _).trans_lt hfew)
    exact ⟨_, Nat.add_le_add_right hle _, hn.place, htold.mono (Nat.le_add_right _ _)⟩
  | diedAppending e i k _ hvalid ih =>
    obtain ⟨n, hle, hn, htold⟩ := ih (Nat.lt_of_succ_lt hfew)
    have hbroken := hn.crash_append hvalid e i k
    exact ⟨_, Nat.add_le_add hle hbroken.left_le, hbroken.place, htold.mono (Nat.le_add_right _ _)⟩
  | diedCommitting stop i k _ ih =>
    obtain ⟨n, hle, hn, htold⟩ := ih ((Nat.le_add_right _ _).trans_lt hfew)
    obtain ⟨n', hlower, hupper, hn'⟩ := hn.crash_commit stop i k
    exact ⟨n', hupper.trans (Nat.add_le_add_right hle _), hn', htold.mono hlower⟩

/-- The log is numbered. -/
theorem Counts.numbered (h : l.Counts n) : ∃ c n', Numbered (lines l.log) c n' := by
  cases l with
  | down place =>
    obtain ⟨f, log, c, hf, hn⟩ := h
    refine ⟨c, n, ?_⟩
    rw [Life.log, hf.log_disk]
    exact hn
  | up v =>
    obtain ⟨ls, extra, hd, -, -⟩ := h
    have hlog := hd.log_eq
    obtain ⟨head, c, -, -, hn, hextra, hsize⟩ := hd
    rw [Life.log, hlog]
    exact ⟨c, _, hn.adopt rfl hextra hsize⟩

/-- Over the life of a folder with fewer than 2⁶⁴ appends the numbers that are told increase, whichever opening tells
them, and each that is told next is greater than all before. Every line of the log has a number, and these increase
too. -/
theorem Issued.numbers_increase (h : Issued l ids m) (hfew : m < 2 ^ 64) :
    ids.Pairwise (· < ·) ∧
      (∀ v now e l' seq, l = .up v → v.live.enqueue now e = (l', some seq) → ∀ id ∈ ids, id < seq) ∧
      ∃ seqs : List UInt64, (lines l.log).map Envelope.number? = seqs.map some ∧ seqs.Pairwise (· < ·) := by
  obtain ⟨n, -, hn, htold⟩ := h.counts hfew
  obtain ⟨c, n', hnumbered⟩ := hn.numbered
  refine ⟨htold.increasing, ?_, numbers (lines l.log), hnumbered.readable.map_number?, hnumbered.increasing⟩
  rintro v now e l' seq rfl henqueue id hid
  have hseq : seq.toNat = n := by
    rw [Live.enqueue] at henqueue
    split at henqueue
    next happ =>
      cases henqueue
      exact Journal.Counts.toNat_accepted hn happ
    next => cases henqueue
  rw [UInt64.lt_iff_toNat_lt, hseq]
  exact htold.below id hid

/-- What is at the place when a process has died that has emptied the log behind one key. -/
def emptied : Folder := { log := some (.file []), head := some (.file (Cursor.bytes ⟨0, 1⟩)) }

/-- A time of day. -/
def noon : Time.Stamp := ⟨⟨2024, 1, 1⟩, 12, 0, 0, 0⟩

/-- A key is accepted and the process dies emptying the log, which takes the only line that has a number. On the
next opening another key is accepted, and its number is greater. -/
theorem numbers_increase_after_compaction : ∃ l : Life, Issued l [0, 1] 2 ∧ 2 < 2 ^ 64 ∧
    [(0 : UInt64), 1].Pairwise (· < ·) ∧
    ∃ seqs : List UInt64, (lines l.log).map Envelope.number? = seqs.map some ∧ seqs.Pairwise (· < ·) := by
  have hopen : Queue.open? "q" 1 .missing =
      (.folder { log := some (.file []) }, .ok (.ofJournal ⟨{}, 0, 0, 0⟩ 1)) := rfl
  have hdied : (Effect.crash 4 0 (Journal.commitEffects ⟨{}, 0, 112, 1⟩ 112)
      ⟨.folder { log := some (.file Store.keyLine) }, none⟩).place = .folder emptied := by
    have hcommit := Journal.commit_run ⟨{}, 112, 112, 1⟩ 112 ⟨.folder { log := some (.file Store.keyLine) }, none⟩
    rw [Store.commit_keyLine] at hcommit
    rw [Effect.crash_of_length_le (Nat.le_refl 4)]
    exact (congrArg (fun x : Disk × Option Fault => x.1.place) hcommit).symm
  have hdown : Issued (.down (.folder emptied)) [0] 1 := by
    have hup := Issued.stepped (.opened (@Issued.bare .missing trivial) hopen)
      (.accepted (by decide) Live.append_oneKey) rfl
    have hdone := hup.diedCommitting 112 4 0
    have hnone : lines (Store.keyLine.drop 112) = [] := by
      rw [List.drop_of_length_le Store.length_keyLine.le]
      rfl
    rw [show Service.left _ = lines (Store.keyLine.drop 112) from rfl, hnone] at hdone
    rw [← hdied]
    exact hdone
  have hopen' : Queue.open? "q" 1 (.folder emptied) =
      (.folder emptied, .ok (.ofJournal ⟨⟨0, 1⟩, 0, 0, 1⟩ 1)) := by
    have hfinds : (Place.folder emptied).Finds emptied [] ⟨0, 1⟩ := ⟨⟨_, rfl, rfl⟩, Store.ofEntry_empty 1⟩
    rw [Queue.open?, hfinds.open_eq]
    rfl
  have hroom : (Envelope.line 1 noon (.key ⟨2, 0⟩)).length ≤ maxFileSize := by decide +kernel
  have happ' : ∃ q d, Live.append ⟨.ofJournal ⟨⟨0, 1⟩, 0, 0, 1⟩ 1, ⟨.folder emptied, none⟩⟩ noon (.key ⟨2, 0⟩) =
      (⟨q, d⟩, .ok (some 1)) := by
    have hsecond := @Journal.append_room ⟨⟨0, 1⟩, 0, 0, 1⟩ ⟨.folder emptied, none⟩ noon (.key ⟨2, 0⟩) 2 rfl
      (Nat.le_refl 0) ((Nat.zero_add _).symm ▸ hroom)
    simp only [Live.append, Queue.ofJournal, hsecond]
    exact ⟨_, _, rfl⟩
  obtain ⟨q, d, happ'⟩ := happ'
  have hissued := Issued.stepped (.opened hdown hopen') (.accepted (by decide) happ') rfl
  obtain ⟨hincrease, -, hlog⟩ := hissued.numbers_increase (by decide)
  exact ⟨_, hissued, by decide, hincrease, hlog⟩

end Life
end CecRelay
