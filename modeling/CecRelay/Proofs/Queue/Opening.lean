import CecRelay.Proofs.Queue.Journal
import CecRelay.Proofs.Text.Utf8

/-!
# Opening what stands in a folder

Whatever bytes are in the log and whatever text is in the cursor's file, opening cuts off what is torn at the end of
the log, and nothing else in the folder changes, so it finds the same when it is done again (`Place.Finds.reopens`).
Then the folder opens, unless the last number to be read is the greatest: behind that no event could be numbered.
Reading starts where the cursor says, if there is a line boundary (`Cursor.begins`), and goes from line to line, each
with the offset behind it (`Lines.withEnds`), up to the last (`Journal.At.reads`). `Folder.opens_repaired` is all of
this about one folder.
-/

namespace CecRelay

open Lines

/-! ### Lines and the offsets behind them -/

namespace Lines

/-- Lines of a log from an offset on, each with the offset behind it. -/
def withEnds : Nat → List Bytes → List (Bytes × Nat)
  | _, [] => []
  | start, line :: ls => (line, start + line.length + 1) :: withEnds (start + line.length + 1) ls

theorem withEnds_cons (start : Nat) (line : Bytes) (ls : List Bytes) :
    withEnds start (line :: ls) = (line, start + line.length + 1) :: withEnds (start + line.length + 1) ls := rfl

/-- Every line is there, in order. -/
theorem map_fst_withEnds (start : Nat) (ls : List Bytes) : (withEnds start ls).map Prod.fst = ls := by
  induction ls generalizing start with
  | nil => rfl
  | cons line ls ih => rw [withEnds_cons, List.map_cons, ih]

/-- The offsets increase. -/
theorem pairwise_withEnds (start : Nat) (ls : List Bytes) :
    (start :: (withEnds start ls).map Prod.snd).Pairwise (· < ·) := by
  induction ls generalizing start with
  | nil => exact List.pairwise_singleton _ _
  | cons line ls ih =>
    have hrest := ih (start + line.length + 1)
    rw [withEnds_cons, List.map_cons]
    refine List.pairwise_cons.2 ⟨fun stop hstop => ?_, hrest⟩
    rcases List.mem_cons.1 hstop with rfl | hstop
    · omega
    · have := List.rel_of_pairwise_cons hrest hstop
      omega

/-- Cutting the torn end off twice is cutting it off once. -/
theorem complete_complete (log : Bytes) : complete (complete log) = complete log := by
  rw [complete_eq (complete log), lines_complete, complete_eq]

/-- The log up to and with its last newline, told by what it ends in. -/
theorem complete_ends (log : Bytes) : complete log = [] ∨ (complete log).getLast? = some newline := by
  rw [complete_eq]
  rcases List.eq_nil_or_concat (lines log) with hnil | ⟨ls, line, heq⟩
  · rw [hnil]
    exact .inl rfl
  · right
    rw [heq, List.concat_eq_append, joined_append, joined_cons, joined_nil, ← List.append_assoc,
      List.getLast?_concat]

end Lines

/-! ### Where reading starts -/

/-- The offset where reading starts: that of a cursor that could be read, if it is zero or right behind a newline
of the log. -/
def Cursor.begins (log : Bytes) : Option Cursor → Nat
  | some c => if c.offset = 0 ∨ c.offset ≤ log.length ∧ log[c.offset - 1]? = some newline then c.offset else 0
  | none => 0

theorem Journal.startOffset_getD (log : Bytes) (c : Option Cursor) :
    Journal.startOffset log (c.getD {}) = Cursor.begins log c := by
  cases c with
  | none => exact ite_self 0
  | some c =>
    obtain ⟨offset, seq⟩ := c
    rw [Journal.startOffset, Cursor.begins, Option.getD_some]
    cases offset with
    | zero => exact (ite_self 0).trans (ite_self 0).symm
    | succ n =>
      have hiff : onBoundary log (n + 1) = true ↔ log[n]? = some newline := beq_iff_eq
      simp only [hiff, Nat.succ_ne_zero, false_or, Nat.add_sub_cancel]

/-- The start is the same in the log without its torn end. -/
theorem Journal.startOffset_of_complete (log : Bytes) (c : Cursor) :
    Journal.startOffset (complete log) c = Journal.startOffset log c := by
  obtain ⟨i, hi, hstart, hc⟩ := Journal.exists_startOffset log c
  obtain ⟨k, hk, hstart', hc'⟩ := Journal.exists_startOffset (complete log) c
  rw [lines_complete] at hk hstart' hc'
  rw [hstart, hstart']
  rcases hc with hc | ⟨rfl, hnone⟩
  · rcases hc' with hc' | ⟨-, hnone'⟩
    · rw [← hc, ← hc']
    · exact absurd hc (hnone' i)
  · rcases hc' with hc' | ⟨rfl, -⟩
    · exact absurd hc' (hnone k)
    · rfl

/-- A cursor's file that is text is the cursor in it, or counts as the cursor at the start. -/
theorem Cursor.ofEntry_text (text : Option String) :
    ofEntry (text.map fun t => .file (Utf8.ofString t)) =
      .ok ((text.bind fun t => ofBytes? (Utf8.ofString t)).getD {}) := by
  cases text with
  | none => rfl
  | some t =>
    rw [Option.map_some, Option.bind_some, ofEntry, Utf8.decode?_ofString]

/-! ### Reading to the end -/

/-- From a journal lines are read, each with the offset behind it, and the journal moves on behind each of them,
until there is none. -/
inductive Journal.Reads (d : Disk) : Journal → List (Bytes × Nat) → Journal → Prop
  /-- There is none. -/
  | done {j : Journal} : j.peek d = none → Reads d j [] j
  /-- There is one. -/
  | line {j j' : Journal} {line : Bytes} {stop : Nat} {entries : List (Bytes × Nat)} :
    j.peek d = some (line, stop) → Reads d (j.advance stop) entries j' → Reads d j ((line, stop) :: entries) j'

namespace Journal

theorem Reads.peek {d : Disk} {j j' : Journal} {entries : List (Bytes × Nat)} (h : j.Reads d entries j') :
    j'.peek d = none := by
  induction h with
  | done hnone => exact hnone
  | line _ _ ih => exact ih

variable {j : Journal} {d : Disk} {log : Bytes} {head : Option Entry} {r : Nat}

/-- A journal reads the lines from where it is. -/
theorem At.reads (h : j.At (lines log) r) (hd : d.Stands log head) :
    ∃ j', j.Reads d (withEnds j.read ((lines log).drop r)) j' := by
  obtain ⟨m, hm⟩ : ∃ m, (lines log).length - r = m := ⟨_, rfl⟩
  have hpeek := h.peek hd
  induction m generalizing j r with
  | zero =>
    have hr : (lines log).length ≤ r := by omega
    rw [List.getElem?_eq_none hr, Option.map_none] at hpeek
    rw [List.drop_of_length_le hr]
    exact ⟨j, .done hpeek⟩
  | succ m ih =>
    have hr : r < (lines log).length := by omega
    have hget := List.getElem?_eq_getElem hr
    have hnext := h.advance (i := r + 1) hr
    rw [Nat.max_eq_right (Nat.le_succ r)] at hnext
    have hstop : mark (lines log) (r + 1) = j.read + (lines log)[r].length + 1 := by
      rw [mark_succ hget, h.read]
    obtain ⟨j', hreads⟩ := ih hnext (by omega) (hnext.peek hd)
    rw [hget, Option.map_some] at hpeek
    rw [List.drop_eq_getElem_cons hr, withEnds_cons, ← hstop, ← hnext.read]
    rw [hnext.read] at hreads ⊢
    exact ⟨j', .line hpeek hreads⟩

end Journal

/-! ### Opening -/

/-- What opening has made of a folder opens again: nothing changes, and the journal is the same. -/
theorem Place.Finds.reopens {place : Place} {f : Folder} {log : Bytes} {c : Cursor} (h : place.Finds f log c) :
    Journal.open (.folder { f with log := some (.file (complete log)) }) = Journal.open place := by
  have hfinds : Place.Finds (.folder { f with log := some (.file (complete log)) })
      { f with log := some (.file (complete log)) } (complete log) c := ⟨⟨_, rfl, rfl⟩, h.cursor⟩
  rw [hfinds.open_eq, h.open_eq, complete_complete, Journal.startOffset_of_complete]

/-- Whatever bytes are in the log and whatever text is in the cursor's file, if there is one, opening cuts the log
behind its last newline, and changes nothing else. If the last number to be read is the greatest, the program breaks
off then, and whenever the folder is opened again. Otherwise the folder opens. Reading starts at the offset of the
cursor if that can be read and its offset is zero or right behind a newline of the log, and at zero otherwise. It gives
the lines of the log from there on, in order, each with the offset behind it, and then there are none. When the folder
is opened again nothing changes, and the journal is the same. -/
theorem Folder.opens_repaired (f : Folder) (log : Bytes) (text : Option String) :
    let head := text.map fun t => Entry.file (Utf8.ofString t)
    let start := Cursor.begins log (text.bind fun t => Cursor.ofBytes? (Utf8.ofString t))
    ∃ whole torn ls, log = whole ++ torn ∧ newline ∉ torn ∧ (whole = [] ∨ whole.getLast? = some newline) ∧
      Unbroken ls ∧ joined ls = whole.drop start ∧
      (withEnds start ls).map Prod.fst = ls ∧ (start :: (withEnds start ls).map Prod.snd).Pairwise (· < ·) ∧
      let place : Place := .folder { f with log := some (.file whole), head := head }
      (Journal.lastSeq? ls = some Journal.greatest →
        Journal.open (.folder { f with log := some (.file log), head := head }) = (place, .error .broken) ∧
          Journal.open place = (place, .error .broken)) ∧
      (Journal.lastSeq? ls ≠ some Journal.greatest → ∃ j j',
        Journal.open (.folder { f with log := some (.file log), head := head }) = (place, .ok j) ∧
          j.read = start ∧ j.head.offset = start ∧ j.len = whole.length ∧
          j.Reads ⟨place, none⟩ (withEnds start ls) j' ∧ j'.peek ⟨place, none⟩ = none ∧
          Journal.open place = (place, .ok j)) := by
  intro head start
  have hfinds : Place.Finds (.folder { f with log := some (.file log), head := head })
      { f with log := some (.file log), head := head } log
      ((text.bind fun t => Cursor.ofBytes? (Utf8.ofString t)).getD {}) :=
    ⟨⟨_, rfl, rfl⟩, Cursor.ofEntry_text text⟩
  obtain ⟨i, -, hmark, -⟩ := Journal.exists_startOffset log
    ((text.bind fun t => Cursor.ofBytes? (Utf8.ofString t)).getD {})
  have hstart := Journal.startOffset_getD log (text.bind fun t => Cursor.ofBytes? (Utf8.ofString t))
  have hread : mark (lines log) i = start := hmark.symm.trans hstart
  have hiff := hfinds.open_iff
  rw [hmark, lines_drop_mark] at hiff
  refine ⟨complete log, torn log, (lines log).drop i, ?_, not_mem_torn log, complete_ends log,
    (unbroken_lines log).drop i, ?_, map_fst_withEnds _ _, pairwise_withEnds _ _, fun hlast => ?_, fun hlast => ?_⟩
  · rw [complete_eq, joined_lines_append_torn]
  · rw [complete_eq, ← hread, drop_mark]
  · have hbroken := hfinds.open_eq
    rw [Place.Finds.ofLog_eq, hmark, lines_drop_mark, Journal.fresh?_eq_none_iff.2 hlast] at hbroken
    exact ⟨hbroken, hfinds.reopens.trans hbroken⟩
  · obtain ⟨place', j, hopen⟩ := hiff.2 hlast
    have hd := hfinds.stands hopen
    obtain ⟨rfl, k, hj, hhead, hk, -⟩ := hfinds.opened hopen
    have hat := hj
    rw [← lines_complete] at hat
    obtain ⟨j', hreads⟩ := hat.reads hd
    rw [lines_complete, ← lines_drop_mark, ← hk, hmark, lines_drop_mark, hj.read, ← hk, hmark, hread] at hreads
    refine ⟨j, j', hopen, ?_, ?_, ?_, hreads, hreads.peek, hfinds.reopens.trans hopen⟩
    · rw [hj.read, ← hk, hmark, hread]
    · rw [hhead, ← hk, hmark, hread]
    · rw [hj.len, complete_eq]

end CecRelay
