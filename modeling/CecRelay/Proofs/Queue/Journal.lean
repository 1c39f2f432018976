import CecRelay.Proofs.Queue.Disk
import CecRelay.Proofs.Queue.Envelope

/-!
# The journal as a list of lines

A journal that is open works on the lines of a log and is *at* one of them (`Journal.At`): its offsets are
marks of that list. Behind the lines there may be bytes of the log that are not its own, a torn end or what an
append has left that failed. Here each operation is told in those terms, once: what opening finds and makes of
it (`Place.Finds.open_eq`, `Place.Finds.opened`), the next line (`Journal.At.peek`), appending
(`Journal.At.append_cases`), moving the cursor (`Journal.At.commit_cases`), and what a crash in the middle of the
last two leaves behind (`Journal.At.crash_append`, `Journal.At.crash_commit`). What a journal hands out line by
line is the rest of the list (`Journal.At.handOut`).

Opening succeeds unless the last number of the lines to be read is the greatest (`Place.Finds.open_iff`).
-/

namespace CecRelay

open Lines

/-! ### Numbers -/

/-- The number of a line, if it can be read. -/
def Envelope.number? (line : Bytes) : Option UInt64 := (ofBytes? line).map seq

theorem Envelope.number?_body (seq : UInt64) {now : Time.Stamp} (e : Event) (h : now.Valid) :
    number? (body seq now e) = some seq := by
  rw [number?, ofBytes?_body seq e h]
  rfl

/-- Whatever the time is, a line has no other number than its own. -/
theorem Envelope.eq_of_number?_body {seq n : UInt64} {now : Time.Stamp} {e : Event}
    (h : number? (body seq now e) = some n) : n = seq := by
  obtain ⟨envelope, hread, rfl⟩ := Option.map_eq_some_iff.1 h
  rw [body, ofEvent, ofBytes?_print seq now e (plain_tag e)] at hread
  obtain ⟨time, -, rfl⟩ := Option.map_eq_some_iff.1 hread
  rfl

/-- The numbers of the lines that can be read. -/
def Lines.numbers (ls : List Bytes) : List UInt64 := ls.filterMap Envelope.number?

theorem Lines.numbers_append (ls new : List Bytes) : numbers (ls ++ new) = numbers ls ++ numbers new :=
  List.filterMap_append

namespace Journal

theorem lastSeq?_eq (ls : List Bytes) : lastSeq? ls = (numbers ls).getLast? := rfl

/-- Behind lines that do not have a number the last one of it comes from those in front. -/
theorem lastSeq?_of_append {ls new : List Bytes} {seq : UInt64} (hnew : seq ∉ numbers new)
    (hlast : lastSeq? (ls ++ new) = some seq) : lastSeq? ls = some seq := by
  rw [lastSeq?_eq, numbers_append, List.getLast?_append] at hlast
  cases hnone : (numbers new).getLast? with
  | none =>
    rw [hnone] at hlast
    exact hlast
  | some other =>
    rw [hnone] at hlast
    cases hlast
    exact absurd (List.mem_of_getLast? hnone) hnew

/-- The last number of the last lines is that of all, if they have one. -/
theorem lastSeq?_of_suffix {ls ls' : List Bytes} (h : ls' <:+ ls) {seq : UInt64} (hlast : lastSeq? ls' = some seq) :
    lastSeq? ls = some seq := by
  obtain ⟨earlier, rfl⟩ := h
  rw [lastSeq?_eq] at hlast
  rw [lastSeq?_eq, numbers_append, List.getLast?_append, hlast]
  rfl

theorem mem_numbers_of_lastSeq? {ls : List Bytes} {seq : UInt64} (h : lastSeq? ls = some seq) : seq ∈ numbers ls :=
  List.mem_of_getLast? h

/-- The number that none comes after. -/
def greatest : UInt64 := 0xFFFFFFFFFFFFFFFF

theorem succ?_cases (seq : UInt64) :
    seq = greatest ∧ succ? seq = none ∨ seq ≠ greatest ∧ seq.toNat + 1 < 2 ^ 64 ∧ succ? seq = some (seq + 1) := by
  have hmax : greatest.toNat = 2 ^ 64 - 1 := rfl
  have hlt := seq.toNat_lt
  rw [succ?]
  by_cases h : seq.toNat + 1 < 2 ^ 64
  · refine .inr ⟨?_, h, if_pos h⟩
    rintro rfl
    omega
  · exact .inl ⟨UInt64.toNat_inj.1 (by omega), if_neg h⟩

theorem succ?_eq_none_iff {seq : UInt64} : succ? seq = none ↔ seq = greatest := by
  rcases succ?_cases seq with ⟨heq, hnone⟩ | ⟨hne, -, hsome⟩
  · exact iff_of_true hnone heq
  · exact iff_of_false (by rw [hsome]; exact Option.some_ne_none _) hne

/-- The number after one is one more. -/
theorem toNat_of_succ? {seq next : UInt64} (h : succ? seq = some next) : next.toNat = seq.toNat + 1 := by
  rcases succ?_cases seq with ⟨-, hnone⟩ | ⟨-, hlt, hsome⟩
  · rw [hnone] at h
    cases h
  · rw [hsome] at h
    cases h
    rw [UInt64.toNat_add]
    exact Nat.mod_eq_of_lt hlt

theorem fresh?_eq_none_iff {ls : List Bytes} : fresh? ls = none ↔ lastSeq? ls = some greatest := by
  rw [fresh?]
  cases lastSeq? ls with
  | none => exact iff_of_false (Option.some_ne_none _) (Option.some_ne_none _).symm
  | some seq => exact succ?_eq_none_iff.trans Option.some_inj.symm

end Journal

/-! ### Opening -/

/-- What opening finds at a place: a folder with a log, which has been made if it was missing, the
contents of the log, and the cursor. -/
structure Place.Finds (place : Place) (f : Folder) (log : Bytes) (c : Cursor) : Prop where
  /-- The folder and the log. -/
  folder : ∃ f₀, Journal.madeFolder place = .ok f₀ ∧ Journal.madeLog f₀ = .ok (f, log)
  /-- The cursor. -/
  cursor : Cursor.ofEntry f.head = .ok c

/-- A log is its lines and what is torn at its end. -/
theorem Disk.Stands.torn {d : Disk} {log : Bytes} {head : Option Entry} (h : d.Stands log head) :
    d.Stands (joined (lines log) ++ Lines.torn log) head := by
  rwa [joined_lines_append_torn]

theorem Disk.Stands.finds {d : Disk} {log : Bytes} {head : Option Entry} (h : d.Stands log head) {c : Cursor}
    (hc : Cursor.ofEntry head = .ok c) : ∃ f : Folder, d.place.Finds f log c ∧ f.head = head := by
  obtain ⟨⟨entry, _, _, _, _⟩, rfl, hlog, rfl⟩ := h.folder
  cases hlog
  exact ⟨_, ⟨⟨_, rfl, rfl⟩, hc⟩, rfl⟩

/-- The offset where reading starts is a mark. It is the cursor's offset, or that is no mark. -/
theorem Journal.exists_startOffset (log : Bytes) (c : Cursor) :
    ∃ i ≤ (lines log).length, Journal.startOffset log c = mark (lines log) i ∧
      (c.offset = mark (lines log) i ∨ i = 0 ∧ ∀ k, c.offset ≠ mark (lines log) k) := by
  have hiff := onBoundary_iff (unbroken_lines log) (not_mem_torn log) c.offset
  rw [joined_lines_append_torn] at hiff
  by_cases h : ∃ k ≤ (lines log).length, c.offset = mark (lines log) k
  · obtain ⟨k, hk, heq⟩ := h
    have hlen : c.offset ≤ log.length := by
      have hl := congrArg List.length (joined_lines_append_torn log)
      have hm := mark_le_length (lines log) k
      rw [List.length_append] at hl
      omega
    exact ⟨k, hk, by rw [Journal.startOffset, if_pos ⟨hlen, hiff.2 ⟨k, hk, heq⟩⟩, heq], .inl heq⟩
  · refine ⟨0, Nat.zero_le _, ?_, .inr ⟨rfl, fun k heq => h ?_⟩⟩
    · rw [Journal.startOffset, if_neg fun hb => h (hiff.1 hb.2), mark_zero]
    · rcases Nat.le_total k (lines log).length with hk | hk
      · exact ⟨k, hk, heq⟩
      · exact ⟨_, Nat.le_refl _, by rw [heq, mark_length, mark_of_length_le hk]⟩

/-- A cursor counts when it is on a mark of the log. -/
theorem Journal.startOffset_eq_iff (log : Bytes) (c : Cursor) :
    Journal.startOffset log c = c.offset ↔ ∃ i ≤ (lines log).length, c.offset = mark (lines log) i := by
  obtain ⟨i, hi, hstart, hc⟩ := Journal.exists_startOffset log c
  constructor
  · intro h
    exact ⟨i, hi, h ▸ hstart⟩
  · rintro ⟨k, -, hk⟩
    rcases hc with hc | ⟨-, hc⟩
    · rw [hstart, hc]
    · exact absurd hk (hc k)

/-- Opening finds the same start in the log without its torn end. -/
theorem Journal.startOffset_complete (log : Bytes) (c : Cursor) :
    Journal.startOffset (complete log) { c with offset := Journal.startOffset log c } =
      Journal.startOffset log c := by
  obtain ⟨i, hi, hstart, -⟩ := Journal.exists_startOffset log c
  have hiff := Journal.startOffset_eq_iff (complete log) { c with offset := Journal.startOffset log c }
  rw [lines_complete] at hiff
  exact hiff.2 ⟨i, hi, hstart⟩

/-- The journal works on a log of these lines and will read line `r` next. -/
structure Journal.At (j : Journal) (ls : List Bytes) (r : Nat) : Prop where
  /-- It knows the length of the log. -/
  len : j.len = (joined ls).length
  /-- It reads on at the mark of the line. -/
  read : j.read = mark ls r
  /-- The line is one of the log, or the one after the last. -/
  le : r ≤ ls.length

namespace Place.Finds

variable {place : Place} {f : Folder} {log : Bytes} {c : Cursor}

theorem log_eq (h : place.Finds f log c) : f.log = some (.file log) := by
  obtain ⟨f₀, -, hlog⟩ := h.folder
  unfold Journal.madeLog at hlog
  split at hlog
  next => cases hlog; rfl
  next bytes heq => cases hlog; exact heq
  next => cases hlog

/-- The same is found in the folder that opening has made, and when the log has been made in it. -/
theorem madeFolder (h : place.Finds f log c) {f₀ : Folder} (hmade : Journal.madeFolder place = .ok f₀) :
    (Place.folder f₀).Finds f log c := by
  obtain ⟨f₁, hfolder, hlog⟩ := h.folder
  rw [hfolder] at hmade
  cases hmade
  exact ⟨⟨_, rfl, hlog⟩, h.cursor⟩

theorem madeLog (h : place.Finds f log c) {f₀ f' : Folder} {log' : Bytes}
    (hmade : Journal.madeFolder place = .ok f₀) (hmade' : Journal.madeLog f₀ = .ok (f', log')) :
    (Place.folder f').Finds f log c := by
  obtain ⟨f₁, hfolder, hlog⟩ := h.folder
  rw [hfolder] at hmade
  cases hmade
  rw [hlog] at hmade'
  cases hmade'
  exact ⟨⟨f, rfl, by rw [Journal.madeLog, h.log_eq]⟩, h.cursor⟩

/-- Opening keeps the folder as it is, up to the torn end of its log. -/
theorem open_eq (h : place.Finds f log c) :
    Journal.open place = (.folder { f with log := some (.file (complete log)) },
      Journal.ofLog (complete log) { c with offset := Journal.startOffset log c }) := by
  obtain ⟨f₀, hfolder, hlog⟩ := h.folder
  rw [Journal.open, hfolder]
  simp only [hlog, h.cursor]

/-- The lines to be read are the same in the log without its torn end. -/
theorem lines_drop_complete (log : Bytes) (c : Cursor) :
    lines ((complete log).drop (Journal.startOffset log c)) = lines (log.drop (Journal.startOffset log c)) := by
  obtain ⟨i, -, hstart, -⟩ := Journal.exists_startOffset log c
  have hdrop := lines_drop_mark (complete log) i
  rw [lines_complete] at hdrop
  rw [hstart, hdrop, lines_drop_mark]

/-- What opening makes of the log and the cursor. -/
theorem ofLog_eq (log : Bytes) (c : Cursor) :
    Journal.ofLog (complete log) { c with offset := Journal.startOffset log c } =
      match Journal.fresh? (lines (log.drop (Journal.startOffset log c))) with
      | none => .error .broken
      | some fresh =>
        .ok
          { head := { c with offset := Journal.startOffset log c }
            read := Journal.startOffset log c
            len := (complete log).length
            nextSeq := max fresh c.nextSeq } := by
  cases hfresh : Journal.fresh? (lines (log.drop (Journal.startOffset log c))) <;>
    simp only [Journal.ofLog, Journal.startOffset_complete, lines_drop_complete, hfresh]

/-- The folder opens exactly if the last number to be read is not the greatest. -/
theorem open_iff (h : place.Finds f log c) : (∃ place' j, Journal.open place = (place', .ok j)) ↔
    Journal.lastSeq? (lines (log.drop (Journal.startOffset log c))) ≠ some Journal.greatest := by
  rw [h.open_eq, ofLog_eq, ne_eq, ← Journal.fresh?_eq_none_iff]
  cases Journal.fresh? (lines (log.drop (Journal.startOffset log c))) with
  | none =>
    refine iff_of_false ?_ fun hne => hne rfl
    rintro ⟨place', j, heq⟩
    cases heq
  | some fresh => exact iff_of_true ⟨_, _, rfl⟩ (Option.some_ne_none _)

/-- A journal that has been opened is at the line of the cursor, or at the first line. -/
theorem opened (h : place.Finds f log c) {place' : Place} {j : Journal} (hopen : Journal.open place = (place', .ok j)) :
    place' = .folder { f with log := some (.file (complete log)) } ∧
    ∃ i, j.At (lines log) i ∧ j.head.offset = mark (lines log) i ∧ Journal.startOffset log c = mark (lines log) i ∧
      (c.offset = mark (lines log) i ∨ i = 0 ∧ ∀ k, c.offset ≠ mark (lines log) k) := by
  obtain ⟨i, hi, hstart, hc⟩ := Journal.exists_startOffset log c
  rw [h.open_eq, ofLog_eq] at hopen
  split at hopen
  · cases hopen
  · cases hopen
    exact ⟨rfl, i, ⟨congrArg List.length (complete_eq log), hstart, hi⟩, hstart, hstart, hc⟩

/-- The number that it gives next comes after the last one read, unless that of the cursor is greater. -/
theorem nextSeq_opened (h : place.Finds f log c) {place' : Place} {j : Journal}
    (hopen : Journal.open place = (place', .ok j)) :
    ∃ fresh, Journal.fresh? (lines (log.drop (Journal.startOffset log c))) = some fresh ∧
      j.nextSeq = max fresh c.nextSeq := by
  rw [h.open_eq, ofLog_eq] at hopen
  split at hopen
  · cases hopen
  next fresh heq =>
    cases hopen
    exact ⟨fresh, heq, rfl⟩

/-- What is on disk then. -/
theorem stands (h : place.Finds f log c) {place' : Place} {j : Journal} (hopen : Journal.open place = (place', .ok j)) :
    Disk.Stands ⟨place', none⟩ (complete log) f.head := by
  obtain ⟨rfl, -⟩ := h.opened hopen
  exact ⟨_, rfl, rfl, rfl⟩

end Place.Finds

/-- A journal is opened on what it finds. -/
theorem Journal.exists_finds {place place' : Place} {j : Journal} (h : Journal.open place = (place', .ok j)) :
    ∃ f log c, place.Finds f log c := by
  unfold Journal.open at h
  split at h
  · cases h
  next f₀ hfolder =>
    split at h
    · cases h
    next f log hlog =>
      split at h
      · cases h
      next c hc => exact ⟨f, log, c, ⟨f₀, hfolder, hlog⟩, hc⟩

/-! ### Reading -/

/-- The lines that a journal hands out, one after the other. -/
def Journal.handOut (j : Journal) (d : Disk) : List Bytes :=
  match _h : j.peek d with
  | none => []
  | some (line, stop) => line :: (j.advance stop).handOut d
termination_by j.len - j.read
decreasing_by
  unfold Journal.peek at _h
  split at _h
  · cases _h
  · obtain ⟨⟨_, _⟩, _, heq⟩ := Option.map_eq_some_iff.1 _h
    cases heq
    simp only [Journal.advance]
    omega

namespace Journal.At

variable {j : Journal} {d : Disk} {log extra : Bytes} {head : Option Entry} {r : Nat} {ls : List Bytes}

/-- The next line is the one the journal is at, whatever is left behind the last line. -/
theorem peek_append (h : j.At ls r) (hls : Unbroken ls) (hlog : d.log = joined ls ++ extra) :
    j.peek d = ls[r]?.map fun line => (line, mark ls (r + 1)) := by
  obtain ⟨hlen, hread, hle⟩ := h
  rcases Nat.lt_or_ge r ls.length with hr | hr
  · have hget := List.getElem?_eq_getElem hr
    have hmark : mark ls (r + 1) = _ := mark_succ hget
    have hlt : mark ls r < mark ls (r + 1) := mark_lt (Nat.lt_succ_self r) hr
    have hl := mark_le_length ls (r + 1)
    have hline : newline ∉ ls[r] := hls _ (List.getElem_mem hr)
    rw [Journal.peek, if_neg (by omega), hlog, hread, List.drop_append_of_le_length (mark_le_length ls r), drop_mark,
      List.drop_eq_getElem_cons hr, firstLine?_joined hline, hget]
    simp only [Option.map_some, hmark]
  · have hend : r = ls.length := Nat.le_antisymm hle hr
    have hget : ls[r]? = none := List.getElem?_eq_none hr
    rw [Journal.peek, if_pos (by rw [hlen, hread, hend, mark_length]), hget]
    rfl

theorem peek (h : j.At (lines log) r) (hd : d.Stands log head) :
    j.peek d = (lines log)[r]?.map fun line => (line, mark (lines log) (r + 1)) :=
  h.peek_append (unbroken_lines log) (by rw [hd.log_eq, joined_lines_append_torn])

/-- Moving on to a mark never goes back. -/
theorem advance (h : j.At ls r) {i : Nat} (hi : i ≤ ls.length) : (j.advance (mark ls i)).At ls (max r i) := by
  obtain ⟨hlen, hread, hle⟩ := h
  have hl := mark_le_length ls i
  refine ⟨hlen, ?_, Nat.max_le.2 ⟨hle, hi⟩⟩
  simp only [Journal.advance, hread, hlen, Nat.min_eq_left hl]
  rcases Nat.le_total r i with hri | hri
  · rw [Nat.max_eq_right hri, Nat.max_eq_right (mark_mono hri)]
  · rw [Nat.max_eq_left hri, Nat.max_eq_left (mark_mono hri)]

/-- What a journal hands out are the lines from where it is. -/
theorem handOut (h : j.At (lines log) r) (hd : d.Stands log head) : j.handOut d = (lines log).drop r := by
  obtain ⟨m, hm⟩ : ∃ m, (lines log).length - r = m := ⟨_, rfl⟩
  induction m generalizing j r with
  | zero =>
    have hr : (lines log).length ≤ r := by omega
    have hpeek := h.peek hd
    rw [List.getElem?_eq_none hr, Option.map_none] at hpeek
    rw [Journal.handOut.eq_def, List.drop_of_length_le hr]
    split
    next => rfl
    next heq => rw [hpeek] at heq; cases heq
  | succ m ih =>
    have hr : r < (lines log).length := by omega
    have hpeek := h.peek hd
    rw [List.getElem?_eq_getElem hr, Option.map_some] at hpeek
    have hnext := h.advance (i := r + 1) hr
    rw [Nat.max_eq_right (Nat.le_succ r)] at hnext
    rw [Journal.handOut.eq_def, List.drop_eq_getElem_cons hr]
    split
    next heq => rw [hpeek] at heq; cases heq
    next heq =>
      rw [hpeek] at heq
      cases heq
      rw [ih hnext (by omega)]

end Journal.At

/-! ### Appending -/

/-- Bytes are put at the end of the log, or the log would grow too large. -/
theorem Disk.Stands.run_extendLog {d : Disk} {log : Bytes} {head : Option Entry} (h : d.Stands log head)
    (bytes : Bytes) :
    Effect.run [.extendLog bytes] d = (d, some .tooLarge) ∨
      ∃ d', Effect.run [.extendLog bytes] d = (d', none) ∧ d'.Stands (log ++ bytes) head ∧
        (log ++ bytes).length ≤ maxFileSize := by
  rw [Effect.run, Effect.apply, h.log_eq]
  split
  next d' heq =>
    split at heq
    next hle =>
      cases heq
      exact .inr ⟨_, rfl, h.setLog _, by rw [List.length_append]; exact hle⟩
    next => cases heq
  next fault heq =>
    split at heq
    next => cases heq
    next => cases heq; exact .inl rfl

/-- Cutting a log that is long enough. -/
theorem Effect.resized_of_le {length : Nat} {bytes : Bytes} (h : length ≤ bytes.length) :
    Effect.resized length bytes = bytes.take length := by
  rw [Effect.resized, Nat.sub_eq_zero_of_le h, List.replicate_zero, List.append_nil]

/-- A line is put where the journal's part of the log ends; what is behind that is cut off first, if there is
anything. -/
theorem Disk.Stands.run_appendEffects {d : Disk} {log : Bytes} {head : Option Entry} (h : d.Stands log head)
    (j : Journal) (line : Bytes) :
    Effect.run (j.appendEffects log line) d = Effect.run [.extendLog line] (d.setLog (log.take j.len)) := by
  rw [Journal.appendEffects]
  by_cases hlt : j.len < log.length
  · rw [if_pos hlt, List.singleton_append, Effect.run, Effect.apply, h.log_eq, Effect.resized_of_le hlt.le]
  · rw [if_neg hlt, List.nil_append, List.take_of_length_le (Nat.le_of_not_lt hlt), h.setLog_self]

/-- The line of an event that is appended is put there. -/
theorem Disk.Stands.append {d d' : Disk} {log : Bytes} {head : Option Entry} (h : d.Stands log head) {j j' : Journal}
    {now : Time.Stamp} {e : Event} {seq : UInt64} (happ : j.append now e d = (j', d', .ok seq)) :
    d'.Stands (log.take j.len ++ Envelope.line j.nextSeq now e) head := by
  rw [Journal.append] at happ
  simp only [h.log_eq, h.run_appendEffects] at happ
  rcases (h.setLog (log.take j.len)).run_extendLog (Envelope.line j.nextSeq now e) with hfails | ⟨d₁, hruns, hd₁, -⟩
  · rw [hfails] at happ
    cases happ
  · rw [hruns] at happ
    simp only at happ
    split at happ
    · cases happ
      exact hd₁
    · cases happ

/-- Cutting a log behind its last line. -/
theorem Effect.resized_joined (ls : List Bytes) (extra : Bytes) :
    Effect.resized (joined ls).length (joined ls ++ extra) = joined ls := by
  rw [Effect.resized_of_le (by simp), List.take_left]

namespace Journal.At

variable {j : Journal} {d : Disk} {head : Option Entry} {r : Nat} {ls : List Bytes} {extra : Bytes}

/-- Before a line is put at the end of the log, what is left there is cut off. An append that breaks off has done
nothing, or it has come to where the line is put. -/
theorem crash_appendEffects (h : j.At ls r) (hd : d.Stands (joined ls ++ extra) head) (line : Bytes) (n k : Nat) :
    Effect.crash n k (j.appendEffects (joined ls ++ extra) line) d = d ∨
      ∃ m, Effect.crash n k (j.appendEffects (joined ls ++ extra) line) d =
        Effect.crash m k [.extendLog line] (d.setLog (joined ls)) := by
  by_cases hlt : j.len < (joined ls ++ extra).length
  · have hcut : Effect.apply (.cutLog j.len) d = .ok (d.setLog (joined ls)) := by
      rw [Effect.apply, hd.log_eq, h.len, Effect.resized_joined]
    rw [appendEffects, if_pos hlt, List.singleton_append]
    cases n with
    | zero => exact .inl rfl
    | succ n =>
      rw [Effect.crash, hcut]
      exact .inr ⟨n, rfl⟩
  · have hnil : extra = [] := by
      rw [h.len, List.length_append] at hlt
      exact List.eq_nil_of_length_eq_zero (by omega)
    subst hnil
    rw [List.append_nil] at hd hlt ⊢
    rw [appendEffects, if_neg hlt, List.nil_append, hd.setLog_self]
    exact .inr ⟨n, rfl⟩

/-- Appending cuts off what is left behind the last line, and puts the new line in its place if there is room
for it. Behind the greatest number it breaks off then. -/
theorem append_eq (h : j.At ls r) (hd : d.Stands (joined ls ++ extra) head) (now : Time.Stamp) (e : Event) :
    j.append now e d =
      if (joined ls).length + (Envelope.line j.nextSeq now e).length ≤ maxFileSize then
        match succ? j.nextSeq with
        | some next =>
          ({ j with len := j.len + (Envelope.line j.nextSeq now e).length, nextSeq := next },
            d.setLog (joined ls ++ Envelope.line j.nextSeq now e), .ok j.nextSeq)
        | none =>
          ({ j with len := j.len + (Envelope.line j.nextSeq now e).length },
            d.setLog (joined ls ++ Envelope.line j.nextSeq now e), .error .broken)
      else (j, d.setLog (joined ls), .error (.error (.io .tooLarge))) := by
  have hrun := hd.run_appendEffects j (Envelope.line j.nextSeq now e)
  rw [h.len, List.take_left] at hrun
  have hd₀ := hd.setLog (joined ls)
  have hback : Effect.run [.cutLog j.len] (d.setLog (joined ls)) = (d.setLog (joined ls), none) := by
    have hcut : Effect.run [.cutLog j.len] (d.setLog (joined ls)) =
        ((d.setLog (joined ls)).setLog (Effect.resized j.len (d.setLog (joined ls)).log), none) := rfl
    have hwhole := Effect.resized_joined ls []
    rw [List.append_nil] at hwhole
    rw [hcut, hd₀.log_eq, h.len, hwhole, hd₀.setLog_self]
  rw [append]
  simp only [hd.log_eq, hrun]
  by_cases hroom : (joined ls).length + (Envelope.line j.nextSeq now e).length ≤ maxFileSize
  · have happly : Effect.apply (.extendLog (Envelope.line j.nextSeq now e)) (d.setLog (joined ls)) =
        .ok (d.setLog (joined ls ++ Envelope.line j.nextSeq now e)) := by
      rw [Effect.apply, hd₀.log_eq, if_pos hroom, hd.setLog_setLog]
    cases succ? j.nextSeq <;> simp only [Effect.run, happly, if_pos hroom]
  · have happly : Effect.apply (.extendLog (Envelope.line j.nextSeq now e)) (d.setLog (joined ls)) =
        .error .tooLarge := by
      rw [Effect.apply, hd₀.log_eq, if_neg hroom]
    have hfails : Effect.run [.extendLog (Envelope.line j.nextSeq now e)] (d.setLog (joined ls)) =
        (d.setLog (joined ls), some .tooLarge) := by
      rw [Effect.run, happly]
    simp only [hfails, hback, if_neg hroom]

/-- An event is refused, or it becomes the last line, and its number is told or it is the greatest. Either way
nothing is left behind the last line. -/
theorem append_cases (h : j.At ls r) (hd : d.Stands (joined ls ++ extra) head) (now : Time.Stamp) (e : Event) :
    (∃ d' cause, j.append now e d = (j, d', .error (.error cause)) ∧ d'.Stands (joined ls) head) ∨
      ∃ j' d', d'.Stands (joined (ls ++ [Envelope.body j.nextSeq now e])) head ∧
        j'.At (ls ++ [Envelope.body j.nextSeq now e]) r ∧ j'.head = j.head ∧
        (joined (ls ++ [Envelope.body j.nextSeq now e])).length ≤ maxFileSize ∧
        (j.append now e d = (j', d', .ok j.nextSeq) ∧ succ? j.nextSeq = some j'.nextSeq ∨
          j.append now e d = (j', d', .error .broken) ∧ j.nextSeq = greatest ∧ j'.nextSeq = greatest) := by
  have hjoined : joined (ls ++ [Envelope.body j.nextSeq now e]) = joined ls ++ Envelope.line j.nextSeq now e := by
    rw [joined_append, joined_cons, joined_nil, Envelope.line_eq]
  have hat : ∀ next, At { j with len := j.len + (Envelope.line j.nextSeq now e).length, nextSeq := next }
      (ls ++ [Envelope.body j.nextSeq now e]) r := by
    intro next
    refine ⟨?_, ?_, ?_⟩
    · rw [hjoined, List.length_append, h.len]
    · rw [mark_append_left h.le, h.read]
    · rw [List.length_append]
      exact Nat.le_add_right_of_le h.le
  rw [h.append_eq hd now e]
  split
  next hroom =>
    rw [hjoined, List.length_append]
    split
    next next heq => exact .inr ⟨_, _, hd.setLog _, hat _, rfl, hroom, .inl ⟨rfl, heq⟩⟩
    next heq =>
      have hgreatest := succ?_eq_none_iff.1 heq
      exact .inr ⟨_, _, hd.setLog _, hat _, rfl, hroom, .inr ⟨rfl, hgreatest, hgreatest⟩⟩
  next => exact .inl ⟨_, _, rfl, hd.setLog _⟩

/-- An append that breaks off leaves the log as it was, or the lines that were there and the bytes of the new one
that have been written. -/
theorem crash_append (h : j.At ls r) (hd : d.Stands (joined ls ++ extra) head) (now : Time.Stamp) (e : Event)
    (n k : Nat) :
    ∃ more, (Effect.crash n k (j.appendEffects (joined ls ++ extra) (Envelope.line j.nextSeq now e)) d).Stands
        (joined ls ++ more) head ∧
      (more = extra ∨ ∃ m, more = (Envelope.line j.nextSeq now e).take m) ∧
      ((joined ls ++ extra).length ≤ maxFileSize → (joined ls ++ more).length ≤ maxFileSize) := by
  have hd₀ := hd.setLog (joined ls)
  have hle : (joined ls ++ extra).length ≤ maxFileSize → (joined ls).length ≤ maxFileSize := fun hsize => by
    rw [List.length_append] at hsize
    omega
  rcases h.crash_appendEffects hd (Envelope.line j.nextSeq now e) n k with hsame | ⟨m, hm⟩
  · rw [hsame]
    exact ⟨extra, hd, .inl rfl, id⟩
  · -- the bytes to be written are the first of the line, or all
    obtain ⟨m', hbroken⟩ : ∃ m', Effect.crash m k [.extendLog (Envelope.line j.nextSeq now e)] (d.setLog (joined ls)) =
        (Effect.run [.extendLog ((Envelope.line j.nextSeq now e).take m')] (d.setLog (joined ls))).1 := by
      cases m with
      | zero => exact ⟨k, rfl⟩
      | succ m =>
        refine ⟨(Envelope.line j.nextSeq now e).length, ?_⟩
        rw [List.take_length]
        exact Effect.crash_of_length_le (Nat.le_add_left 1 m) k _
    rw [hm, hbroken]
    rcases hd₀.run_extendLog ((Envelope.line j.nextSeq now e).take m') with hfail | ⟨d', hok, hd', hsize⟩
    · rw [hfail]
      exact ⟨[], by rwa [List.append_nil], .inr ⟨0, rfl⟩, fun hsize => by rw [List.append_nil]; exact hle hsize⟩
    · rw [hok]
      exact ⟨_, hd', .inr ⟨m', rfl⟩, fun _ => hsize⟩

/-- The first bytes of a line are no line, unless they are all of them. -/
theorem lines_take_line (seq : UInt64) (now : Time.Stamp) (e : Event) (m : Nat) :
    lines ((Envelope.line seq now e).take m) = [] ∨
      lines ((Envelope.line seq now e).take m) = [Envelope.body seq now e] := by
  have hbody := Envelope.newline_not_mem_body seq now e
  have hnil : Unbroken [] := fun _ hl => by cases hl
  rw [Envelope.line_eq]
  rcases Nat.lt_or_ge (Envelope.body seq now e).length m with hlt | hge
  · rw [List.take_of_length_le (by rw [List.length_append, List.length_singleton]; omega)]
    exact .inr (lines_joined_append_line hnil hbody)
  · exact .inl (lines_joined_append_take hnil hbody hge)

end Journal.At

/-! ### Moving the cursor -/

namespace Journal

/-- The changes that mark everything before `stop` as delivered. -/
def commitEffects (j : Journal) (stop : Nat) : List Effect :=
  if j.delivered stop then j.compactEffects else headEffects ⟨min stop j.len, j.nextSeq⟩

/-- Committing is carrying out those changes. -/
theorem commit_run (j : Journal) (stop : Nat) (d : Disk) :
    (j.commit stop d).2 = Effect.run (j.commitEffects stop) d := by
  have hiff : (j.advance stop).delivered stop ↔ j.delivered stop := Iff.rfl
  by_cases h : j.delivered stop
  · have hrun : Effect.run (j.advance stop).compactEffects d = Effect.run j.compactEffects d := rfl
    rw [commit, commitEffects, if_pos h]
    simp only [if_pos (hiff.2 h), hrun]
    split
    next heq => rw [heq]
    next heq => rw [heq]
  · rw [commit, commitEffects, if_neg h]
    simp only [if_neg (mt hiff.1 h)]
    rfl

/-- Committing numbers nothing. -/
theorem nextSeq_commit (j : Journal) (stop : Nat) (d : Disk) : (j.commit stop d).1.nextSeq = j.nextSeq := by
  unfold commit
  simp only
  split
  · split <;> rfl
  · rfl

/-- What is behind the end of the log makes no difference. -/
theorem advance_min (j : Journal) (stop : Nat) : j.advance (min stop j.len) = j.advance stop := by
  rw [advance, advance, Nat.min_assoc, Nat.min_self]

theorem delivered_min_iff (j : Journal) (stop : Nat) : j.delivered (min stop j.len) ↔ j.delivered stop := by
  rw [delivered, delivered]
  omega

theorem delivered_advance_min_iff (j : Journal) (stop : Nat) :
    (j.advance stop).delivered (min stop j.len) ↔ (j.advance stop).delivered stop := delivered_min_iff j stop

theorem min_len_advance (j : Journal) (stop : Nat) :
    min (min stop j.len) (j.advance stop).len = min stop (j.advance stop).len := by
  rw [show (j.advance stop).len = j.len from rfl, Nat.min_assoc, Nat.min_self]

theorem commit_min (j : Journal) (stop : Nat) (d : Disk) : j.commit (min stop j.len) d = j.commit stop d := by
  rw [commit, commit, advance_min]
  simp only [delivered_advance_min_iff, min_len_advance]

/-- Committing when the new cursor cannot be written. The attempt may have come to any point, and when
only its last word has failed the new cursor is there all the same. -/
def commitFailing (n k : Nat) (j : Journal) (stop : Nat) (d : Disk) : Journal × Disk :=
  let j := j.advance stop
  if j.delivered stop then (j, Effect.crash n k (headEffects ⟨0, j.nextSeq⟩) d)
  else
    let head : Cursor := ⟨min stop j.len, j.nextSeq⟩
    ({ j with head := head }, Effect.crash n k (headEffects head) d)

theorem commitFailing_min (n k : Nat) (j : Journal) (stop : Nat) (d : Disk) :
    commitFailing n k j (min stop j.len) d = commitFailing n k j stop d := by
  rw [commitFailing, commitFailing, advance_min]
  simp only [delivered_advance_min_iff, min_len_advance]

/-- Moving the cursor leaves the log as it is, or empties it if it ends there, whatever else there is on disk, and
the journal knows which. -/
theorem len_commit (j : Journal) (stop : Nat) (d : Disk) :
    (j.commit stop d).1.len = j.len ∧ (j.commit stop d).2.1.log = d.log ∨
      (j.len ≤ stop ∧ (j.commit stop d).1.len = 0) ∧ (j.commit stop d).2.1.log = [] := by
  unfold commit
  simp only
  split
  next hall =>
    have hlog := (log_headEffects ⟨0, (j.advance stop).nextSeq⟩ 0 0 d).1
    rw [compactEffects, Effect.run_append]
    rcases hrun : Effect.run (headEffects ⟨0, (j.advance stop).nextSeq⟩) d with ⟨d', fault⟩
    rw [hrun] at hlog
    cases fault with
    | some fault => exact .inl ⟨rfl, hlog⟩
    | none =>
      simp only [Effect.run_cutLog_zero]
      exact .inr ⟨⟨hall.1, trivial⟩, Disk.log_setLog_nil d'⟩
  next => exact .inl ⟨rfl, (log_headEffects _ 0 0 d).1⟩

theorem log_commitFailing (n k : Nat) (j : Journal) (stop : Nat) (d : Disk) :
    (commitFailing n k j stop d).2.log = d.log := by
  rw [commitFailing]
  split
  · exact (log_headEffects _ n k d).2
  · exact (log_headEffects _ n k d).2

theorem nextSeq_commitFailing (n k : Nat) (j : Journal) (stop : Nat) (d : Disk) :
    (commitFailing n k j stop d).1.nextSeq = j.nextSeq := by
  rw [commitFailing]
  split
  · rfl
  · rfl

theorem len_commitFailing (n k : Nat) (j : Journal) (stop : Nat) (d : Disk) :
    (commitFailing n k j stop d).1.len = j.len := by
  rw [commitFailing]
  split
  · rfl
  · rfl

/-- An event that is appended gets the next number. -/
theorem append_ok {j j' : Journal} {d d' : Disk} {now : Time.Stamp} {e : Event} {seq : UInt64}
    (h : j.append now e d = (j', d', .ok seq)) : seq = j.nextSeq ∧ succ? j.nextSeq = some j'.nextSeq := by
  unfold append at h
  simp only at h
  split at h
  · split at h
    next heq =>
      cases h
      exact ⟨rfl, heq⟩
    next => cases h
  · cases h

/-- When an event is refused the journal is as it was. -/
theorem append_error {j j' : Journal} {d d' : Disk} {now : Time.Stamp} {e : Event} {cause : RelayError}
    (h : j.append now e d = (j', d', .error (.error cause))) : j' = j := by
  unfold append at h
  simp only at h
  split at h
  · split at h
    · cases h
    · cases h
  · cases h
    rfl

/-- When the program breaks off behind a line its number is the greatest, and stays the next one. -/
theorem append_broken {j j' : Journal} {d d' : Disk} {now : Time.Stamp} {e : Event}
    (h : j.append now e d = (j', d', .error .broken)) : j.nextSeq = greatest ∧ j'.nextSeq = greatest := by
  unfold append at h
  simp only at h
  split at h
  · split at h
    next => cases h
    next heq =>
      cases h
      exact ⟨succ?_eq_none_iff.1 heq, succ?_eq_none_iff.1 heq⟩
  · cases h

/-- A line is put at the end of a log with nothing left over behind it and room for it. -/
theorem run_append_room {j : Journal} {d : Disk} {line : Bytes} (hlen : d.log.length ≤ j.len)
    (hroom : d.log.length + line.length ≤ maxFileSize) :
    Effect.run (j.appendEffects d.log line) d = (d.setLog (d.log ++ line), none) := by
  have happly : Effect.apply (.extendLog line) d = .ok (d.setLog (d.log ++ line)) := if_pos hroom
  rw [appendEffects, if_neg (Nat.not_lt.2 hlen), List.nil_append]
  simp only [Effect.run, happly]

/-- There an event is appended. -/
theorem append_room {j : Journal} {d : Disk} {now : Time.Stamp} {e : Event} {next : UInt64}
    (hnext : succ? j.nextSeq = some next) (hlen : d.log.length ≤ j.len)
    (hroom : d.log.length + (Envelope.line j.nextSeq now e).length ≤ maxFileSize) :
    j.append now e d =
      ({ j with len := j.len + (Envelope.line j.nextSeq now e).length, nextSeq := next },
        d.setLog (d.log ++ Envelope.line j.nextSeq now e), .ok j.nextSeq) := by
  rw [append]
  simp only [run_append_room hlen hroom, hnext]

/-- Behind the line that has the greatest number the program breaks off. -/
theorem append_last {j : Journal} {d : Disk} {now : Time.Stamp} {e : Event} (hnext : j.nextSeq = greatest)
    (hlen : d.log.length ≤ j.len) (hroom : d.log.length + (Envelope.line j.nextSeq now e).length ≤ maxFileSize) :
    j.append now e d =
      ({ j with len := j.len + (Envelope.line j.nextSeq now e).length },
        d.setLog (d.log ++ Envelope.line j.nextSeq now e), .error .broken) := by
  rw [append]
  simp only [run_append_room hlen hroom, succ?_eq_none_iff.2 hnext]

/-- Where there is nothing the journal makes nothing. -/
theorem append_missing (j : Journal) (now : Time.Stamp) (e : Event) {d : Disk} (hd : d.place = .missing) :
    (j.append now e d).2.1.place = .missing := by
  have hrun := Effect.run_missing (j.appendEffects d.log (Envelope.line j.nextSeq now e)) hd
  unfold append
  simp only
  split
  next heq =>
    rw [heq] at hrun
    split
    · exact hrun
    · exact hrun
  next heq =>
    rw [heq] at hrun
    exact Effect.run_missing _ hrun

theorem commit_missing (j : Journal) (stop : Nat) {d : Disk} (hd : d.place = .missing) :
    (j.commit stop d).2.1.place = .missing := by
  rw [commit_run]
  exact Effect.run_missing _ hd

theorem commitFailing_missing (n k : Nat) (j : Journal) (stop : Nat) {d : Disk} (hd : d.place = .missing) :
    (commitFailing n k j stop d).2.place = .missing := by
  rw [commitFailing]
  split
  · exact Effect.crash_missing n k _ hd
  · exact Effect.crash_missing n k _ hd

end Journal

/-- A crash in the middle of a commit leaves the log with the cursor that was there, or with a new one at `stop` or
at the start, or an empty log when every line is before `stop`. -/
theorem Disk.Stands.crash_commit {d : Disk} {log : Bytes} {head : Option Entry} {old : Cursor}
    (hd : d.Stands log head) (hc : Cursor.ofEntry head = .ok old) (j : Journal) (stop n k : Nat) :
    ∃ log' head', (Effect.crash n k (j.commitEffects stop) d).Stands log' head' ∧
      (log' = log ∧ (head' = head ∨ ∃ offset, (offset = min stop j.len ∨ offset = 0) ∧
          head' = some (.file (Cursor.bytes ⟨offset, j.nextSeq⟩))) ∨
        j.delivered stop ∧ log' = [] ∧ head' = some (.file (Cursor.bytes ⟨0, j.nextSeq⟩))) := by
  by_cases hall : j.delivered stop
  · rw [Journal.commitEffects, if_pos hall, Journal.compactEffects]
    rcases Effect.crash_append_cutLog n k 0 (Journal.headEffects ⟨0, j.nextSeq⟩) d with hpart | ⟨hok, hcut⟩
    · rw [hpart]
      rcases hd.crash_headEffects ⟨0, j.nextSeq⟩ n k with hold | hnew
      · exact ⟨log, head, hold, .inl ⟨rfl, .inl rfl⟩⟩
      · exact ⟨log, _, hnew, .inl ⟨rfl, .inr ⟨0, .inr rfl, rfl⟩⟩⟩
    · rw [hcut]
      rcases hd.run_headEffects hc ⟨0, j.nextSeq⟩ with hfail | ⟨d', hnew, hd'⟩
      · rw [hfail] at hok
        cases hok
      · rw [hnew]
        exact ⟨_, _, hd'.setLog _, .inr ⟨hall, by simp [Effect.resized], rfl⟩⟩
  · rw [Journal.commitEffects, if_neg hall]
    rcases hd.crash_headEffects ⟨min stop j.len, j.nextSeq⟩ n k with hold | hnew
    · exact ⟨log, head, hold, .inl ⟨rfl, .inl rfl⟩⟩
    · exact ⟨log, _, hnew, .inl ⟨rfl, .inr ⟨_, .inl rfl, rfl⟩⟩⟩

namespace Journal

/-- What is in the cursor's place after an attempt to move it to line `i`: what was there, or the cursor
of that line, or that of the first line. -/
inductive Moved (ls : List Bytes) (seq : UInt64) (i : Nat) (head : Option Entry) : Option Entry → Prop
  /-- What was there. -/
  | old : Moved ls seq i head head
  /-- A new cursor. -/
  | new {k : Nat} (h : k = i ∨ k = 0) :
      Moved ls seq i head (some (.file (Cursor.bytes ⟨mark ls k, seq⟩)))

namespace At

variable {j : Journal} {ls : List Bytes} {r i : Nat}

/-- The log is emptied when the cursor moves behind its last line. -/
theorem delivered_iff (h : j.At ls r) (hi : i ≤ ls.length) :
    j.delivered (mark ls i) ↔ i = ls.length ∧ ls ≠ [] := by
  have hpos : 0 < (joined ls).length ↔ ls ≠ [] := by
    cases ls with
    | nil => simp
    | cons l ls => simp
  rw [delivered, h.len, hpos, ← mark_eq_length_iff hi]
  have := mark_le_length ls i
  constructor
  · rintro ⟨hle, hne⟩
    exact ⟨by omega, hne⟩
  · rintro ⟨heq, hne⟩
    exact ⟨by omega, hne⟩

theorem min_mark (h : j.At ls r) (i : Nat) : min (mark ls i) j.len = mark ls i := by
  rw [h.len]
  exact Nat.min_eq_left (mark_le_length ls i)

variable {d : Disk} {log : Bytes} {head : Option Entry} {old : Cursor}

/-- A crash in the middle of a commit leaves the log with one of the cursors that the commit is about,
or an empty log when all of it has been delivered. -/
theorem crash_commit (h : j.At ls r) (hd : d.Stands log head) (hc : Cursor.ofEntry head = .ok old)
    (hi : i ≤ ls.length) (n k : Nat) :
    ∃ log' head', (Effect.crash n k (j.commitEffects (mark ls i)) d).Stands log' head' ∧
      (log' = log ∧ Moved ls j.nextSeq i head head' ∨
        i = ls.length ∧ log' = [] ∧ head' = some (.file (Cursor.bytes ⟨0, j.nextSeq⟩))) := by
  obtain ⟨log', head', hd', hcase⟩ := hd.crash_commit hc j (mark ls i) n k
  refine ⟨log', head', hd', ?_⟩
  rcases hcase with ⟨rfl, rfl | ⟨offset, hoffset, rfl⟩⟩ | ⟨hall, rfl, rfl⟩
  · exact .inl ⟨rfl, .old⟩
  · rw [h.min_mark] at hoffset
    rcases hoffset with rfl | rfl
    · exact .inl ⟨rfl, .new (.inl rfl)⟩
    · exact .inl ⟨rfl, .new (k := 0) (.inr rfl)⟩
  · exact .inr ⟨((h.delivered_iff hi).1 hall).1, rfl, rfl⟩

/-- What a commit does that could not write the cursor. -/
theorem commitFailing_stands (h : j.At ls r) (hd : d.Stands log head)
    (hi : i ≤ ls.length) (n k : Nat) :
    ∃ head', (commitFailing n k j (mark ls i) d).2.Stands log head' ∧
      Moved ls j.nextSeq i head head' ∧
      (commitFailing n k j (mark ls i) d).1.At ls (max r i) := by
  have hadv := h.advance hi
  rw [commitFailing]
  split
  · rcases hd.crash_headEffects ⟨0, j.nextSeq⟩ n k with hold | hnew
    · exact ⟨head, hold, .old, hadv⟩
    · exact ⟨_, hnew, .new (k := 0) (.inr rfl), hadv⟩
  · have hmin := hadv.min_mark i
    have hat : Journal.At { j.advance (mark ls i) with
        head := ⟨min (mark ls i) (j.advance (mark ls i)).len, j.nextSeq⟩ } ls (max r i) :=
      ⟨hadv.len, hadv.read, hadv.le⟩
    simp only [hmin] at hat ⊢
    rcases hd.crash_headEffects ⟨mark ls i, j.nextSeq⟩ n k with hold | hnew
    · exact ⟨head, hold, .old, hat⟩
    · exact ⟨_, hnew, .new (.inl rfl), hat⟩

/-- What a commit does: the cursor has moved, unless it could not be written, or all lines have been
delivered and the log is empty. -/
theorem commit_cases (h : j.At ls r) (hd : d.Stands log head) (hc : Cursor.ofEntry head = .ok old)
    (hi : i ≤ ls.length) :
    (∃ j' d' head' fault, j.commit (mark ls i) d = (j', d', fault) ∧ d'.Stands log head' ∧
        Moved ls j.nextSeq i head head' ∧ j'.At ls (max r i) ∧
        (fault = none → j'.head = ⟨mark ls i, j.nextSeq⟩ ∧ ¬ j.delivered (mark ls i) ∧
          head' = some (.file (Cursor.bytes ⟨mark ls i, j.nextSeq⟩)))) ∨
      ∃ j' d', j.commit (mark ls i) d = (j', d', none) ∧ j.delivered (mark ls i) ∧
        d'.Stands [] (some (.file (Cursor.bytes ⟨0, j.nextSeq⟩))) ∧ j'.At [] 0 ∧ j'.head = ⟨0, j.nextSeq⟩ := by
  have hadv := h.advance hi
  by_cases hall : j.delivered (mark ls i)
  · have hall' : (j.advance (mark ls i)).delivered (mark ls i) := hall
    rw [commit]
    simp only [if_pos hall', compactEffects, Effect.run_append]
    rcases hd.run_headEffects hc ⟨0, j.nextSeq⟩ with hfail | ⟨d₁, hnew, hd₁⟩
    · have hrun : Effect.run (headEffects ⟨0, (j.advance (mark ls i)).nextSeq⟩) d =
          (d, some .isFolder) := hfail
      rw [hrun]
      exact .inl ⟨_, _, head, _, rfl, hd, .old, hadv, fun hf => by cases hf⟩
    · have hrun : Effect.run (headEffects ⟨0, (j.advance (mark ls i)).nextSeq⟩) d = (d₁, none) := hnew
      rw [hrun]
      simp only [Effect.run_cutLog_zero]
      exact .inr ⟨_, _, rfl, hall, hd₁.setLog _, ⟨rfl, rfl, Nat.le_refl _⟩, rfl⟩
  · have hall' : ¬ (j.advance (mark ls i)).delivered (mark ls i) := hall
    have hmin := hadv.min_mark i
    rw [commit]
    simp only [if_neg hall', hmin]
    rcases hd.run_headEffects hc ⟨mark ls i, j.nextSeq⟩ with hfail | ⟨d₁, hnew, hd₁⟩
    · have hrun : Effect.run (headEffects ⟨mark ls i, (j.advance (mark ls i)).nextSeq⟩) d =
          (d, some .isFolder) := hfail
      rw [hrun]
      exact .inl ⟨_, _, head, _, rfl, hd, .old, ⟨hadv.len, hadv.read, hadv.le⟩, fun hf => by cases hf⟩
    · have hrun : Effect.run (headEffects ⟨mark ls i, (j.advance (mark ls i)).nextSeq⟩) d =
          (d₁, none) := hnew
      rw [hrun]
      exact .inl ⟨_, _, _, _, rfl, hd₁, .new (.inl rfl), ⟨hadv.len, hadv.read, hadv.le⟩,
        fun _ => ⟨rfl, hall, rfl⟩⟩

end At
end Journal
end CecRelay
