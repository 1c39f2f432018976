import CecRelay.Proofs.Queue.Recovery

/-!
# Bytes behind the last line

An append that fails, and then cannot be taken back, leaves bytes in the log behind the last line, newlines among
them perhaps. The journal goes on: it knows how far its lines go, and the rest of the file is not its own. So a
journal that has been opened on anything, and whose appends and commits succeed or fail, rests at any moment on lines
with something behind them (`Journal.RestsOn`). Its offsets are marks of those lines, and one lemma for each thing
that may happen says so. `Journal.Used.in_step` is what that comes to in bytes: what is left over is neither read nor
kept, and no commit removes a line that it has not been told about.
-/

namespace CecRelay

open Lines

namespace Journal

/-- The states of a journal in use, each with the ends of the lines read since the log was last emptied. -/
inductive Used : Journal → Disk → List Nat → Prop
  /-- It is opened. -/
  | opened {place place' : Place} {j : Journal} : Journal.open place = (place', .ok j) → Used j ⟨place', none⟩ []
  /-- An event is appended, or refused. -/
  | appended {j j' : Journal} {d d' : Disk} {ends : List Nat} {now : Time.Stamp} {e : Event}
    {result : Except Failure UInt64} : Used j d ends → j.append now e d = (j', d', result) → Used j' d' ends
  /-- An append fails and is not taken back; anything may be left behind the last line. -/
  | spoilt {j : Journal} {d : Disk} {ends : List Nat} (extra : Bytes) : Used j d ends →
    Used j (d.setLog (d.log.take j.len ++ extra)) ends
  /-- A line is read. -/
  | peeked {j : Journal} {d : Disk} {ends : List Nat} {line : Bytes} {stop : Nat} : Used j d ends →
    j.peek d = some (line, stop) → Used j d (stop :: ends)
  /-- The journal moves on behind a line that has been read. -/
  | advanced {j : Journal} {d : Disk} {ends : List Nat} {stop : Nat} : Used j d ends → stop ∈ ends →
    Used (j.advance stop) d ends
  /-- The cursor moves behind a line that has been read, or cannot be written. -/
  | committed {j j' : Journal} {d d' : Disk} {ends : List Nat} {stop : Nat} {fault : Option Fault} : Used j d ends →
    stop ∈ ends → j.commit stop d = (j', d', fault) →
    Used j' d' (if j.delivered stop ∧ fault = none then [] else ends)
  /-- Writing the cursor fails at some point or other. -/
  | uncommitted {j j' : Journal} {d d' : Disk} {ends : List Nat} {stop : Nat} (n k : Nat) : Used j d ends →
    stop ∈ ends → commitFailing n k j stop d = (j', d') → Used j' d' ends

/-- The journal works on a log of these lines with something behind them. What it reads next, its cursor and the ends
are marks of the lines, and the cursor is not ahead. -/
structure RestsOn (j : Journal) (d : Disk) (ends : List Nat) (ls : List Bytes) (extra : Bytes) : Prop where
  /-- The lines are lines. -/
  unbroken : Unbroken ls
  /-- They are what is at the front of the log. -/
  disk : ∃ head, d.Stands (joined ls ++ extra) head
  /-- The journal is at one of them, and its cursor at that or at one before it. -/
  journal : ∃ r, j.At ls r ∧ ∃ i ≤ r, j.head.offset = mark ls i
  /-- The ends are behind lines. -/
  ends : ∀ stop ∈ ends, ∃ i ≤ ls.length, stop = mark ls i

end Journal

/-- Something is in the cursor's place, whatever has become of an attempt to write it. -/
theorem Disk.Stands.exists_headEffects {d : Disk} {log : Bytes} {head : Option Entry} (h : d.Stands log head)
    (c : Cursor) (n k : Nat) : ∃ head', (Effect.crash n k (Journal.headEffects c) d).Stands log head' := by
  rcases h.crash_headEffects c n k with hold | hnew
  · exact ⟨_, hold⟩
  · exact ⟨_, hnew⟩

theorem Disk.Stands.exists_run_headEffects {d : Disk} {log : Bytes} {head : Option Entry} (h : d.Stands log head)
    (c : Cursor) : ∃ head', (Effect.run (Journal.headEffects c) d).1.Stands log head' := by
  have hall := h.exists_headEffects c (Journal.headEffects c).length 0
  rwa [Effect.crash_of_length_le (Nat.le_refl _)] at hall

namespace Journal

/-! ### What each step leaves behind -/

theorem exists_restsOn_open {place place' : Place} {j : Journal} (h : Journal.open place = (place', .ok j)) :
    ∃ ls, j.RestsOn ⟨place', none⟩ [] ls [] := by
  obtain ⟨f, log, c, hf⟩ := exists_finds h
  have hd := hf.stands h
  obtain ⟨-, i, hj, hhead, -⟩ := hf.opened h
  refine ⟨lines log, unbroken_lines log, ⟨f.head, ?_⟩, ⟨i, hj, i, Nat.le_refl i, hhead⟩, fun _ hstop => by cases hstop⟩
  rwa [List.append_nil, ← complete_eq]

namespace RestsOn

variable {j : Journal} {d : Disk} {ends : List Nat} {ls : List Bytes} {extra : Bytes} (h : j.RestsOn d ends ls extra)

include h

theorem log_eq : d.log = joined ls ++ extra := by
  obtain ⟨head, hd⟩ := h.disk
  exact hd.log_eq

theorem len_eq : j.len = (joined ls).length := by
  obtain ⟨r, hj, -⟩ := h.journal
  exact hj.len

/-- The lines are what the journal knows of the log. -/
theorem take_len : d.log.take j.len = joined ls := by
  rw [h.log_eq, h.len_eq, List.take_left]

theorem append {now : Time.Stamp} {e : Event} {j' : Journal} {d' : Disk} {result : Except Failure UInt64}
    (happ : j.append now e d = (j', d', result)) : ∃ ls', j'.RestsOn d' ends ls' [] := by
  obtain ⟨head, hd⟩ := h.disk
  obtain ⟨r, hj, i, hi, hhead⟩ := h.journal
  have hgrown : ∀ {j' : Journal} {d' : Disk}, d'.Stands (joined (ls ++ [Envelope.body j.nextSeq now e])) head →
      j'.At (ls ++ [Envelope.body j.nextSeq now e]) r → j'.head = j.head →
      j'.RestsOn d' ends (ls ++ [Envelope.body j.nextSeq now e]) [] := by
    intro j' d' hd' hj' hsame
    have hle : ls.length ≤ (ls ++ [Envelope.body j.nextSeq now e]).length := by
      rw [List.length_append]
      exact Nat.le_add_right _ _
    refine ⟨h.unbroken.append (unbroken_singleton (Envelope.newline_not_mem_body j.nextSeq now e)),
      ⟨head, by rwa [List.append_nil]⟩, ⟨r, hj', i, hi, ?_⟩, fun stop hstop => ?_⟩
    · rw [hsame, mark_append_left (hi.trans hj.le)]
      exact hhead
    · obtain ⟨k, hk, rfl⟩ := h.ends stop hstop
      exact ⟨k, hk.trans hle, (mark_append_left hk _).symm⟩
  rcases hj.append_cases hd now e with
    ⟨d₁, cause, heq, hd₁⟩ | ⟨j₁, d₁, hd₁, hj₁, hsame, -, ⟨heq, -⟩ | ⟨heq, -⟩⟩
  · rw [heq] at happ
    cases happ
    exact ⟨ls, h.unbroken, ⟨head, by rwa [List.append_nil]⟩, h.journal, h.ends⟩
  · rw [heq] at happ
    cases happ
    exact ⟨_, hgrown hd₁ hj₁ hsame⟩
  · rw [heq] at happ
    cases happ
    exact ⟨_, hgrown hd₁ hj₁ hsame⟩

theorem spoil (more : Bytes) : j.RestsOn (d.setLog (d.log.take j.len ++ more)) ends ls more := by
  obtain ⟨head, hd⟩ := h.disk
  refine ⟨h.unbroken, ⟨head, ?_⟩, h.journal, h.ends⟩
  rw [h.take_len]
  exact hd.setLog _

/-- The next line is one of them, or all of them have been read. -/
theorem peek_cases : (j.peek d = none ∧ j.read = j.len) ∨
    ∃ line r, ls[r]? = some line ∧ j.read = mark ls r ∧ j.peek d = some (line, mark ls (r + 1)) ∧ j.read < j.len := by
  obtain ⟨r, hj, -⟩ := h.journal
  have hpeek := hj.peek_append h.unbroken h.log_eq
  rcases Nat.lt_or_ge r ls.length with hr | hr
  · right
    have hget := List.getElem?_eq_getElem hr
    rw [hget] at hpeek
    have hlt : mark ls r < mark ls ls.length := mark_lt hr hr
    rw [mark_length, ← hj.len, ← hj.read] at hlt
    exact ⟨_, r, hget, hj.read, hpeek, hlt⟩
  · left
    rw [List.getElem?_eq_none hr] at hpeek
    exact ⟨hpeek, by rw [hj.read, hj.len, mark_of_length_le hr]⟩

theorem peek {line : Bytes} {stop : Nat} (hpeek : j.peek d = some (line, stop)) :
    j.RestsOn d (stop :: ends) ls extra := by
  refine ⟨h.unbroken, h.disk, h.journal, fun other hother => ?_⟩
  rcases List.mem_cons.1 hother with rfl | hother
  · rcases h.peek_cases with ⟨hnone, -⟩ | ⟨line', r, hget, -, hsome, -⟩
    · rw [hnone] at hpeek
      cases hpeek
    · rw [hsome] at hpeek
      cases hpeek
      exact ⟨r + 1, (List.getElem?_eq_some_iff.1 hget).1, rfl⟩
  · exact h.ends other hother

theorem advance {stop : Nat} (hstop : stop ∈ ends) : (j.advance stop).RestsOn d ends ls extra := by
  obtain ⟨r, hj, i, hi, hhead⟩ := h.journal
  obtain ⟨k, hk, rfl⟩ := h.ends stop hstop
  exact ⟨h.unbroken, h.disk, ⟨max r k, hj.advance hk, i, hi.trans (Nat.le_max_left r k), hhead⟩, h.ends⟩

/-- A new cursor is at the end behind which the journal has moved, and the lines are as they were. -/
theorem moved {stop : Nat} (hstop : stop ∈ ends) (seq : UInt64) {d' : Disk}
    (hd' : ∃ head, d'.Stands (joined ls ++ extra) head) :
    RestsOn { j.advance stop with head := ⟨min stop j.len, seq⟩ } d' ends ls extra := by
  obtain ⟨r, hj, -⟩ := h.journal
  obtain ⟨k, hk, rfl⟩ := h.ends stop hstop
  have hadv := hj.advance hk
  exact ⟨h.unbroken, hd', ⟨max r k, ⟨hadv.len, hadv.read, hadv.le⟩, k, Nat.le_max_right r k, hj.min_mark k⟩, h.ends⟩

theorem commit {stop : Nat} (hstop : stop ∈ ends) {j' : Journal} {d' : Disk} {fault : Option Fault}
    (hcommit : j.commit stop d = (j', d', fault)) :
    ∃ ls' extra', j'.RestsOn d' (if j.delivered stop ∧ fault = none then [] else ends) ls' extra' := by
  obtain ⟨head, hd⟩ := h.disk
  have hadv := h.advance hstop
  by_cases hall : j.delivered stop
  · have hall' : (j.advance stop).delivered stop := hall
    obtain ⟨head₁, hd₁⟩ := hd.exists_run_headEffects ⟨0, (j.advance stop).nextSeq⟩
    rw [Journal.commit] at hcommit
    simp only [if_pos hall', compactEffects, Effect.run_append] at hcommit
    rcases hrun : Effect.run (headEffects ⟨0, (j.advance stop).nextSeq⟩) d with ⟨d₁, fault₁⟩
    rw [hrun] at hcommit hd₁
    cases fault₁ with
    | some cause =>
      cases hcommit
      rw [if_neg fun hboth => by cases hboth.2]
      exact ⟨ls, extra, h.unbroken, ⟨head₁, hd₁⟩, hadv.journal, h.ends⟩
    | none =>
      simp only [Effect.run_cutLog_zero] at hcommit
      cases hcommit
      rw [if_pos ⟨hall, rfl⟩]
      exact ⟨[], [], fun _ hl => (by cases hl), ⟨head₁, hd₁.setLog []⟩,
        ⟨0, ⟨rfl, rfl, Nat.le_refl 0⟩, 0, Nat.le_refl 0, rfl⟩, fun _ hmem => (by cases hmem)⟩
  · have hall' : ¬ (j.advance stop).delivered stop := hall
    have hd₁ := hd.exists_run_headEffects ⟨min stop (j.advance stop).len, (j.advance stop).nextSeq⟩
    rw [Journal.commit] at hcommit
    simp only [if_neg hall'] at hcommit
    cases hcommit
    rw [if_neg fun hboth => hall hboth.1]
    exact ⟨ls, extra, h.moved hstop _ hd₁⟩

theorem commitFailing {stop : Nat} (hstop : stop ∈ ends) {n k : Nat} {j' : Journal} {d' : Disk}
    (hfails : commitFailing n k j stop d = (j', d')) : j'.RestsOn d' ends ls extra := by
  obtain ⟨head, hd⟩ := h.disk
  rw [Journal.commitFailing] at hfails
  split at hfails
  next =>
    cases hfails
    exact ⟨h.unbroken, hd.exists_headEffects _ n k, (h.advance hstop).journal, h.ends⟩
  next =>
    cases hfails
    exact h.moved hstop _ (hd.exists_headEffects _ n k)

end RestsOn

/-- A journal in use rests on lines. -/
theorem Used.restsOn {j : Journal} {d : Disk} {ends : List Nat} (h : j.Used d ends) :
    ∃ ls extra, j.RestsOn d ends ls extra := by
  induction h with
  | opened hopen =>
    obtain ⟨ls, h⟩ := exists_restsOn_open hopen
    exact ⟨ls, [], h⟩
  | appended _ happ ih =>
    obtain ⟨ls, extra, h⟩ := ih
    obtain ⟨ls', h'⟩ := h.append happ
    exact ⟨ls', [], h'⟩
  | spoilt extra _ ih =>
    obtain ⟨ls, _, h⟩ := ih
    exact ⟨ls, extra, h.spoil extra⟩
  | peeked _ hpeek ih =>
    obtain ⟨ls, extra, h⟩ := ih
    exact ⟨ls, extra, h.peek hpeek⟩
  | advanced _ hstop ih =>
    obtain ⟨ls, extra, h⟩ := ih
    exact ⟨ls, extra, h.advance hstop⟩
  | committed _ hstop hcommit ih =>
    obtain ⟨ls, extra, h⟩ := ih
    exact h.commit hstop hcommit
  | uncommitted n k _ hstop hfails ih =>
    obtain ⟨ls, extra, h⟩ := ih
    exact ⟨ls, extra, h.commitFailing hstop hfails⟩

/-! ### In bytes -/

namespace RestsOn

variable {j : Journal} {d : Disk} {ends : List Nat} {ls : List Bytes} {extra : Bytes} (h : j.RestsOn d ends ls extra)

include h

/-- The cursor, what is read next and the end of the lines are in this order, within the file. -/
theorem offsets : j.head.offset ≤ j.read ∧ j.read ≤ j.len ∧ j.len ≤ d.log.length := by
  obtain ⟨r, hj, i, hi, hhead⟩ := h.journal
  refine ⟨?_, ?_, ?_⟩
  · rw [hhead, hj.read]
    exact mark_mono hi
  · rw [hj.read, hj.len]
    exact mark_le_length ls r
  · rw [h.log_eq, List.length_append, hj.len]
    exact Nat.le_add_right _ _

/-- All three are on line boundaries. -/
theorem boundaries :
    onBoundary d.log j.head.offset = true ∧ onBoundary d.log j.read = true ∧ onBoundary d.log j.len = true := by
  obtain ⟨r, hj, i, hi, hhead⟩ := h.journal
  rw [h.log_eq, hhead, hj.read, hj.len, ← mark_length]
  exact ⟨onBoundary_mark ls i extra, onBoundary_mark ls r extra, onBoundary_mark ls ls.length extra⟩

theorem peek_eq_none_iff : j.peek d = none ↔ j.read = j.len := by
  rcases h.peek_cases with ⟨hnone, hend⟩ | ⟨line, r, -, -, hsome, hlt⟩
  · exact iff_of_true hnone hend
  · exact iff_of_false (by rw [hsome]; exact Option.some_ne_none _) (Nat.ne_of_lt hlt)

/-- What is read is a line of the file, and ends within the lines. -/
theorem line_of_peek {line : Bytes} {stop : Nat} (hpeek : j.peek d = some (line, stop)) :
    newline ∉ line ∧ stop = j.read + line.length + 1 ∧ stop ≤ j.len ∧
      (d.log.take stop).drop j.read = line ++ [newline] := by
  rcases h.peek_cases with ⟨hnone, -⟩ | ⟨line', r, hget, hread, hsome, -⟩
  · rw [hnone] at hpeek
    cases hpeek
  · rw [hsome] at hpeek
    cases hpeek
    refine ⟨h.unbroken line (List.mem_of_getElem? hget), ?_, ?_, ?_⟩
    · rw [hread]
      exact mark_succ hget
    · rw [h.len_eq]
      exact mark_le_length ls (r + 1)
    · rw [h.log_eq, hread]
      exact drop_take_mark hget extra

/-- A line that is appended is right behind the lines that were there, and its number is told unless it is the
greatest; else these lines alone are left. -/
theorem log_of_append (now : Time.Stamp) (e : Event) : let (j', d', result) := j.append now e d
    (result = .ok j.nextSeq ∧ j.nextSeq ≠ greatest ∨ result = .error .broken ∧ j.nextSeq = greatest) ∧
        d'.log = d.log.take j.len ++ Envelope.line j.nextSeq now e ∧ j'.len = d'.log.length ∨
      maxFileSize < j.len + (Envelope.line j.nextSeq now e).length ∧ result = .error (.error (.io .tooLarge)) ∧
        j' = j ∧ d'.log = d.log.take j.len := by
  obtain ⟨head, hd⟩ := h.disk
  obtain ⟨r, hj, -⟩ := h.journal
  have hnew := (hd.setLog (joined ls ++ Envelope.line j.nextSeq now e)).log_eq
  have hlen : j.len + (Envelope.line j.nextSeq now e).length =
      (d.setLog (joined ls ++ Envelope.line j.nextSeq now e)).log.length := by
    rw [hnew, List.length_append, hj.len]
  rw [hj.append_eq hd now e, h.take_len]
  by_cases hroom : (joined ls).length + (Envelope.line j.nextSeq now e).length ≤ maxFileSize
  · rw [if_pos hroom]
    rcases succ?_cases j.nextSeq with ⟨heq, hnone⟩ | ⟨hne, -, hsome⟩
    · rw [hnone]
      exact .inl ⟨.inr ⟨rfl, heq⟩, hnew, hlen⟩
    · rw [hsome]
      exact .inl ⟨.inl ⟨rfl, hne⟩, hnew, hlen⟩
  · rw [if_neg hroom]
    refine .inr ⟨?_, rfl, rfl, (hd.setLog (joined ls)).log_eq⟩
    rw [hj.len]
    exact Nat.lt_of_not_le hroom

end RestsOn

/-- What is in the log from `stop` on is not touched by a commit of what is before it. -/
theorem suffix_commit (j : Journal) (stop : Nat) (d : Disk) :
    (d.log.take j.len).drop stop <:+ (j.commit stop d).2.1.log.take (j.commit stop d).1.len := by
  rcases j.len_commit stop d with ⟨hlen, hlog⟩ | ⟨⟨hle, -⟩, -⟩
  · rw [hlen, hlog]
    exact List.drop_suffix _ _
  · rw [List.drop_of_length_le ((List.length_take_le j.len d.log).trans hle)]
    exact List.nil_suffix

theorem suffix_commitFailing (n k : Nat) (j : Journal) (stop : Nat) (d : Disk) :
    (d.log.take j.len).drop stop <:+
      (commitFailing n k j stop d).2.log.take (commitFailing n k j stop d).1.len := by
  have hlen : (commitFailing n k j stop d).1.len = j.len := by
    rw [commitFailing]
    split
    · rfl
    · rfl
  rw [hlen, log_commitFailing]
  exact List.drop_suffix _ _

/-- At any moment the cursor of a journal in use is not ahead of what it reads next, that is not behind the lines it
knows of, and these are in the file. All three are on line boundaries, and the bytes not yet delivered are those from
the cursor on. There is a next line unless all have been read; it is a line of the file from the offset where the
journal reads up to an offset that is not behind the lines it knows of. Appending puts a line right behind these,
whatever there was, and tells its number unless that is the greatest; or it refuses the event for want of room and
leaves these alone. A commit keeps what is in the log from the
end committed on, whether it succeeds or fails. -/
theorem Used.in_step {j : Journal} {d : Disk} {ends : List Nat} (h : j.Used d ends) :
    (j.head.offset ≤ j.read ∧ j.read ≤ j.len ∧ j.len ≤ d.log.length) ∧
    (onBoundary d.log j.head.offset = true ∧ onBoundary d.log j.read = true ∧ onBoundary d.log j.len = true) ∧
    j.head.offset + j.backlog = j.len ∧
    (j.peek d = none ↔ j.read = j.len) ∧
    (∀ line stop, j.peek d = some (line, stop) → newline ∉ line ∧ stop = j.read + line.length + 1 ∧ stop ≤ j.len ∧
      (d.log.take stop).drop j.read = line ++ [newline]) ∧
    (∀ now e, let (j', d', result) := j.append now e d
      (result = .ok j.nextSeq ∧ j.nextSeq ≠ greatest ∨ result = .error .broken ∧ j.nextSeq = greatest) ∧
          d'.log = d.log.take j.len ++ Envelope.line j.nextSeq now e ∧ j'.len = d'.log.length ∨
        maxFileSize < j.len + (Envelope.line j.nextSeq now e).length ∧ result = .error (.error (.io .tooLarge)) ∧
          j' = j ∧ d'.log = d.log.take j.len) ∧
    ∀ stop, (d.log.take j.len).drop stop <:+ (j.commit stop d).2.1.log.take (j.commit stop d).1.len ∧
      ∀ n k, (d.log.take j.len).drop stop <:+
        (commitFailing n k j stop d).2.log.take (commitFailing n k j stop d).1.len := by
  obtain ⟨ls, extra, hrests⟩ := h.restsOn
  have hoffsets := hrests.offsets
  exact ⟨hoffsets, hrests.boundaries, Nat.add_sub_cancel' (hoffsets.1.trans hoffsets.2.1), hrests.peek_eq_none_iff,
    fun line stop => hrests.line_of_peek, hrests.log_of_append, fun stop =>
      ⟨suffix_commit j stop d, fun n k => suffix_commitFailing n k j stop d⟩⟩

/-- A key has been appended and read; then another append has left bytes behind, with a newline among them, and the
cursor could not be written. -/
theorem Used.in_step_leftover :
    let d : Disk := ⟨.folder { log := some (.file (Store.keyLine ++ [0x7B, newline, 0x7D])) }, none⟩
    let j : Journal := ⟨{}, 112, 112, 1⟩
    j.Used d [112] ∧ j.peek d = none ∧ onBoundary d.log 112 = true ∧
      ∀ now e, let (j', d', result) := j.append now e d
        (result = .ok 1 ∧ 1 ≠ greatest ∨ result = .error .broken ∧ 1 = greatest) ∧
            d'.log = d.log.take 112 ++ Envelope.line 1 now e ∧ j'.len = d'.log.length ∨
          maxFileSize < 112 + (Envelope.line 1 now e).length ∧ result = .error (.error (.io .tooLarge)) ∧ j' = j ∧
            d'.log = d.log.take 112 := by
  intro d j
  have hopen : Journal.open .missing = (.folder { log := some (.file []) }, .ok ⟨{}, 0, 0, 0⟩) := rfl
  have happ := Store.append_keyLine { log := some (.file []) } rfl
  have hpeek := Store.peek_keyLine { log := some (.file Store.keyLine) } rfl
  have hspoilt : Disk.setLog ⟨.folder { log := some (.file Store.keyLine) }, none⟩
      (Store.keyLine.take 112 ++ [0x7B, newline, 0x7D]) = d := by
    rw [← Store.length_keyLine, List.take_length]
    rfl
  have hread : Used ⟨{}, 0, 112, 1⟩ d [112] :=
    hspoilt ▸ (Used.peeked (.appended (.opened hopen) happ) hpeek).spoilt [0x7B, newline, 0x7D]
  have hfails : commitFailing 0 0 ⟨{}, 0, 112, 1⟩ 112 d = (j, d) := rfl
  have hused : j.Used d [112] := .uncommitted 0 0 hread List.mem_cons_self hfails
  obtain ⟨-, ⟨-, hboundary, -⟩, -, hnone, -, happend, -⟩ := Used.in_step hused
  exact ⟨hused, hnone.2 rfl, hboundary, happend⟩

end Journal
end CecRelay
