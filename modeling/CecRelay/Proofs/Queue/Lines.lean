import CecRelay.Queue.Lines
import Mathlib.Data.List.Basic
import Mathlib.Data.List.Induction
import Mathlib.Data.List.TakeWhile

/-!
# Logs as lists of lines

Every log is its lines, each with its newline, and a torn end (`joined_lines_append_torn`). So a log
may be told as a list of unbroken lines, and an offset on a line boundary as the number of lines in
front of it: `mark ls k` is the offset behind the first `k` lines. Cutting a log at a mark cuts the
list (`drop_mark_log`, `lines_drop_mark`), and the boundaries of a log are exactly its marks
(`onBoundary_iff`).
-/

namespace CecRelay.Lines

/-- No line has a newline in it. -/
def Unbroken (ls : List Bytes) : Prop := ∀ l ∈ ls, newline ∉ l

/-- The offset behind the first `k` lines. -/
def mark (ls : List Bytes) (k : Nat) : Nat := (joined (ls.take k)).length

/-! ### Lines put together -/

@[simp] theorem joined_nil : joined [] = [] := rfl

@[simp] theorem joined_cons (l : Bytes) (ls : List Bytes) :
    joined (l :: ls) = l ++ newline :: joined ls := by
  simp [joined]

@[simp] theorem joined_append (ls ms : List Bytes) : joined (ls ++ ms) = joined ls ++ joined ms := by
  simp [joined]

theorem Unbroken.append {ls ms : List Bytes} (h : Unbroken ls) (h' : Unbroken ms) :
    Unbroken (ls ++ ms) := by
  intro l hl
  rcases List.mem_append.1 hl with hl | hl
  · exact h l hl
  · exact h' l hl

theorem Unbroken.drop {ls : List Bytes} (h : Unbroken ls) (k : Nat) : Unbroken (ls.drop k) :=
  fun l hl => h l (List.mem_of_mem_drop hl)

theorem unbroken_singleton {l : Bytes} (h : newline ∉ l) : Unbroken [l] := by
  intro m hm
  rw [List.mem_singleton.1 hm]
  exact h

theorem lines_line {l : Bytes} (h : newline ∉ l) (rest : Bytes) :
    lines (l ++ newline :: rest) = l :: lines rest := by
  induction l with
  | nil => simp [lines]
  | cons b l ih =>
    simp only [List.mem_cons, not_or] at h
    have hb : b ≠ newline := Ne.symm h.1
    simp only [List.cons_append, lines, hb, if_false, ih h.2]

theorem lines_of_not_mem {rest : Bytes} (h : newline ∉ rest) : lines rest = [] := by
  induction rest with
  | nil => rfl
  | cons b rest ih =>
    simp only [List.mem_cons, not_or] at h
    have hb : b ≠ newline := Ne.symm h.1
    simp [lines, hb, ih h.2]

/-- Lines in front of anything are lines. -/
theorem lines_joined_append {ls : List Bytes} (h : Unbroken ls) (rest : Bytes) :
    lines (joined ls ++ rest) = ls ++ lines rest := by
  induction ls with
  | nil => rfl
  | cons l ls ih =>
    have hl : newline ∉ l := h l List.mem_cons_self
    rw [joined_cons, List.append_assoc, List.cons_append, lines_line hl,
      ih fun m hm => h m (List.mem_cons_of_mem _ hm), List.cons_append]

/-- The lines of a log are those it was put together from; a torn end is no line. -/
theorem lines_joined_append_torn {ls : List Bytes} (h : Unbroken ls) {rest : Bytes} (hr : newline ∉ rest) :
    lines (joined ls ++ rest) = ls := by
  rw [lines_joined_append h, lines_of_not_mem hr, List.append_nil]

theorem lines_joined {ls : List Bytes} (h : Unbroken ls) : lines (joined ls) = ls := by
  simpa using lines_joined_append_torn h (List.not_mem_nil (a := newline))

theorem firstLine?_joined {l : Bytes} (h : newline ∉ l) (ls : List Bytes) (rest : Bytes) :
    firstLine? (joined (l :: ls) ++ rest) = some (l, joined ls ++ rest) := by
  rw [joined_cons, List.append_assoc, List.cons_append]
  exact firstLine?_append_newline h _

/-- A line of which only a first part is there is no line. -/
theorem lines_joined_append_take {ls : List Bytes} (h : Unbroken ls) {l : Bytes} (hl : newline ∉ l) {k : Nat}
    (hk : k ≤ l.length) : lines (joined ls ++ (l ++ [newline]).take k) = ls := by
  rw [List.take_append_of_le_length hk]
  exact lines_joined_append_torn h fun hmem => hl (List.mem_of_mem_take hmem)

/-- With its newline it is one. -/
theorem lines_joined_append_line {ls : List Bytes} (h : Unbroken ls) {l : Bytes} (hl : newline ∉ l) :
    lines (joined ls ++ (l ++ [newline])) = ls ++ [l] := by
  have hjoined : joined ls ++ (l ++ [newline]) = joined (ls ++ [l]) := by simp
  rw [hjoined, lines_joined (h.append (unbroken_singleton hl))]

/-! ### Every log is lines and a torn end -/

theorem unbroken_lines (log : Bytes) : Unbroken (lines log) := by
  induction log with
  | nil => intro l hl; simp [lines] at hl
  | cons b log ih =>
    unfold lines
    split
    next hb =>
      intro l hl
      rcases List.mem_cons.1 hl with rfl | hl
      · simp
      · exact ih l hl
    next hb =>
      split
      next => intro l hl; simp at hl
      next line rest heq =>
        intro l hl
        rcases List.mem_cons.1 hl with rfl | hl
        · have := ih line (by rw [heq]; exact List.mem_cons_self)
          simp [this, Ne.symm hb]
        · exact ih l (by rw [heq]; exact List.mem_cons_of_mem _ hl)

/-- The torn end of a log, told from the front: what the lines leave over. -/
theorem exists_torn (log : Bytes) : ∃ rest, newline ∉ rest ∧ log = joined (lines log) ++ rest := by
  induction log with
  | nil => exact ⟨[], by simp, rfl⟩
  | cons b log ih =>
    obtain ⟨rest, hr, heq⟩ := ih
    by_cases hb : b = newline
    · refine ⟨rest, hr, ?_⟩
      simp only [lines, hb, if_true, joined_cons, List.nil_append, List.cons_append]
      rw [← heq]
    · cases hl : lines log with
      | nil =>
        refine ⟨b :: rest, by simp [hr, Ne.symm hb], ?_⟩
        simp only [lines, hb, if_false, hl, joined_nil, List.nil_append]
        rw [hl] at heq
        simpa using heq
      | cons line ls =>
        refine ⟨rest, hr, ?_⟩
        simp only [lines, hb, if_false, hl, joined_cons, List.cons_append]
        rw [hl, joined_cons] at heq
        rw [← heq]

/-- The torn end is what comes after the last newline. -/
theorem torn_joined_append (ls : List Bytes) {rest : Bytes} (h : newline ∉ rest) :
    torn (joined ls ++ rest) = rest := by
  have hall : ∀ b ∈ rest.reverse, (b != newline) = true := by
    intro b hb
    have hb' : b ∈ rest := List.mem_reverse.1 hb
    exact bne_iff_ne.2 fun heq => h (heq ▸ hb')
  induction ls using List.reverseRecOn with
  | nil =>
    rw [joined_nil, List.nil_append, torn, List.takeWhile_eq_self_iff.2 hall, List.reverse_reverse]
  | append_singleton ls l _ =>
    have hlog : joined (ls ++ [l]) ++ rest = joined ls ++ l ++ newline :: rest := by simp
    rw [hlog, torn, List.reverse_append, List.reverse_cons, List.append_assoc,
      List.takeWhile_append_of_pos hall]
    simp

theorem not_mem_torn (log : Bytes) : newline ∉ torn log := by
  obtain ⟨rest, hr, heq⟩ := exists_torn log
  rw [heq, torn_joined_append _ hr]
  exact hr

/-- A log is its lines and its torn end. -/
theorem joined_lines_append_torn (log : Bytes) : joined (lines log) ++ torn log = log := by
  obtain ⟨rest, hr, heq⟩ := exists_torn log
  have ht : torn log = rest := by
    rw [heq, torn_joined_append _ hr]
  rw [ht, ← heq]

/-- Without its torn end a log is its lines. -/
theorem complete_eq (log : Bytes) : complete log = joined (lines log) := by
  have h := joined_lines_append_torn log
  have hlen : log.length - (torn log).length = (joined (lines log)).length := by
    rw [← congrArg List.length h, List.length_append]
    omega
  rw [complete, hlen]
  calc log.take (joined (lines log)).length
      = (joined (lines log) ++ torn log).take (joined (lines log)).length := by rw [h]
    _ = joined (lines log) := List.take_left

theorem lines_complete (log : Bytes) : lines (complete log) = lines log := by
  rw [complete_eq, lines_joined (unbroken_lines log)]

/-! ### Marks -/

@[simp] theorem mark_zero (ls : List Bytes) : mark ls 0 = 0 := by simp [mark]

theorem mark_length (ls : List Bytes) : mark ls ls.length = (joined ls).length := by simp [mark]

theorem mark_of_length_le {ls : List Bytes} {k : Nat} (h : ls.length ≤ k) :
    mark ls k = (joined ls).length := by
  simp [mark, List.take_of_length_le h]

theorem mark_append_left {ls : List Bytes} {k : Nat} (h : k ≤ ls.length) (ms : List Bytes) :
    mark (ls ++ ms) k = mark ls k := by
  simp [mark, List.take_append_of_le_length h]

/-- The next mark is behind the line that follows. -/
theorem mark_succ {ls : List Bytes} {k : Nat} {l : Bytes} (h : ls[k]? = some l) :
    mark ls (k + 1) = mark ls k + l.length + 1 := by
  rw [mark, mark, List.take_add_one, h, joined_append, List.length_append]
  simp [joined, Nat.add_assoc]

theorem mark_mono {ls : List Bytes} {i k : Nat} (h : i ≤ k) : mark ls i ≤ mark ls k := by
  obtain ⟨n, rfl⟩ := Nat.exists_eq_add_of_le h
  rw [mark, mark, List.take_add, joined_append, List.length_append]
  exact Nat.le_add_right _ _

theorem mark_le_length (ls : List Bytes) (k : Nat) : mark ls k ≤ (joined ls).length := by
  have h : mark ls k ≤ mark ls (max k ls.length) := mark_mono (Nat.le_max_left k ls.length)
  rwa [mark_of_length_le (Nat.le_max_right k ls.length)] at h

theorem mark_lt {ls : List Bytes} {i k : Nat} (h : i < k) (hi : i < ls.length) :
    mark ls i < mark ls k := by
  have h1 := mark_succ (List.getElem?_eq_getElem hi)
  have h2 : mark ls (i + 1) ≤ mark ls k := mark_mono h
  omega

theorem mark_inj {ls : List Bytes} {i k : Nat} (hi : i ≤ ls.length) (hk : k ≤ ls.length)
    (h : mark ls i = mark ls k) : i = k := by
  rcases Nat.lt_trichotomy i k with hlt | heq | hlt
  · have : mark ls i < mark ls k := mark_lt hlt (by omega)
    omega
  · exact heq
  · have : mark ls k < mark ls i := mark_lt hlt (by omega)
    omega

/-- Only the mark behind all lines is the length of the log. -/
theorem mark_eq_length_iff {ls : List Bytes} {k : Nat} (h : k ≤ ls.length) :
    mark ls k = (joined ls).length ↔ k = ls.length := by
  rw [← mark_length]
  exact ⟨fun heq => mark_inj h (Nat.le_refl _) heq, fun heq => by rw [heq]⟩

/-- Cutting off what is before a mark cuts off the lines before it. -/
theorem drop_mark (ls : List Bytes) (k : Nat) : (joined ls).drop (mark ls k) = joined (ls.drop k) := by
  calc (joined ls).drop (mark ls k)
      = (joined (ls.take k) ++ joined (ls.drop k)).drop (joined (ls.take k)).length := by
        rw [← joined_append, List.take_append_drop, mark]
    _ = joined (ls.drop k) := List.drop_left

/-- The same of a log with a torn end. -/
theorem drop_mark_log (log : Bytes) (k : Nat) :
    log.drop (mark (lines log) k) = joined ((lines log).drop k) ++ torn log := by
  calc log.drop (mark (lines log) k)
      = (joined (lines log) ++ torn log).drop (mark (lines log) k) := by rw [joined_lines_append_torn]
    _ = joined ((lines log).drop k) ++ torn log := by
      rw [List.drop_append_of_le_length (mark_le_length _ _), drop_mark]

/-- The lines of a log from a mark on. -/
theorem lines_drop_mark (log : Bytes) (k : Nat) :
    lines (log.drop (mark (lines log) k)) = (lines log).drop k := by
  rw [drop_mark_log, lines_joined_append_torn ((unbroken_lines log).drop k) (not_mem_torn log)]

/-- What is before a mark are the lines before it. -/
theorem take_mark (ls : List Bytes) (k : Nat) (rest : Bytes) :
    (joined ls ++ rest).take (mark ls k) = joined (ls.take k) := by
  calc (joined ls ++ rest).take (mark ls k)
      = (joined (ls.take k) ++ (joined (ls.drop k) ++ rest)).take (joined (ls.take k)).length := by
        rw [← List.append_assoc, ← joined_append, List.take_append_drop, mark]
    _ = joined (ls.take k) := List.take_left

/-- The lines of a log up to a mark. -/
theorem lines_take_mark (log : Bytes) (k : Nat) :
    lines (log.take (mark (lines log) k)) = (lines log).take k := by
  have htake := take_mark (lines log) k (torn log)
  rw [joined_lines_append_torn] at htake
  rw [htake]
  exact lines_joined fun l hl => unbroken_lines log l (List.mem_of_mem_take hl)

/-- Between two marks that follow each other is one line. -/
theorem drop_take_mark {ls : List Bytes} {k : Nat} {line : Bytes} (h : ls[k]? = some line) (rest : Bytes) :
    ((joined ls ++ rest).take (mark ls (k + 1))).drop (mark ls k) = line ++ [newline] := by
  have hmark : mark ls k = mark (ls.take (k + 1)) k := by
    rw [mark, mark, List.take_take, Nat.min_eq_left (Nat.le_succ k)]
  have hone : (ls.take (k + 1)).drop k = [line] := by
    rw [List.take_add_one, h, List.drop_append, List.drop_take, Nat.sub_self, List.take_zero, List.length_take,
      Nat.min_eq_left (List.getElem?_eq_some_iff.1 h).1.le, Nat.sub_self]
    rfl
  rw [take_mark, hmark, drop_mark, hone, joined_cons, joined_nil]

/-! ### Line boundaries -/

theorem onBoundary_mark (ls : List Bytes) (k : Nat) (rest : Bytes) :
    onBoundary (joined ls ++ rest) (mark ls k) = true := by
  induction k with
  | zero => simp [onBoundary]
  | succ k ih =>
    by_cases hk : k < ls.length
    · have hl := mark_succ (List.getElem?_eq_getElem hk)
      have hd : (joined ls ++ rest).drop (mark ls k) =
          ls[k] ++ newline :: (joined (ls.drop (k + 1)) ++ rest) := by
        rw [List.drop_append_of_le_length (mark_le_length ls k), drop_mark,
          List.drop_eq_getElem_cons hk, joined_cons, List.append_assoc, List.cons_append]
      have hget : (joined ls ++ rest)[mark ls k + ls[k].length]? = some newline := by
        rw [← List.getElem?_drop, hd, List.getElem?_append_right (Nat.le_refl _)]
        simp
      rw [hl, onBoundary, hget]
      rfl
    · rw [mark_of_length_le (by omega)]
      rwa [mark_of_length_le (by omega)] at ih

/-- An offset behind a newline is a mark: lines are cut off the front until it is reached. -/
theorem exists_mark {ls : List Bytes} (h : Unbroken ls) {rest : Bytes} (hr : newline ∉ rest) {n : Nat}
    (hn : onBoundary (joined ls ++ rest) n = true) : ∃ k ≤ ls.length, n = mark ls k := by
  induction ls generalizing n with
  | nil =>
    cases n with
    | zero => exact ⟨0, Nat.le_refl _, rfl⟩
    | succ n =>
      simp only [joined_nil, List.nil_append, onBoundary, beq_iff_eq] at hn
      exact absurd (List.mem_of_getElem? hn) hr
  | cons l ls ih =>
    have hl : newline ∉ l := h l List.mem_cons_self
    cases n with
    | zero => exact ⟨0, Nat.zero_le _, rfl⟩
    | succ n =>
      simp only [joined_cons, List.append_assoc, List.cons_append, onBoundary, beq_iff_eq] at hn
      rcases Nat.lt_trichotomy n l.length with hlt | heq | hlt
      · rw [List.getElem?_append_left hlt] at hn
        exact absurd (List.mem_of_getElem? hn) hl
      · exact ⟨1, by simp, by simp [mark, heq]⟩
      · obtain ⟨m, rfl⟩ := Nat.exists_eq_add_of_lt hlt
        rw [List.getElem?_append_right (by omega), show l.length + m + 1 - l.length = m + 1 by omega,
          List.getElem?_cons_succ] at hn
        obtain ⟨k, hk, hm⟩ := ih (fun x hx => h x (List.mem_cons_of_mem _ hx)) (n := m + 1)
          (by simpa [onBoundary] using hn)
        refine ⟨k + 1, by simpa using hk, ?_⟩
        simp only [mark, List.take_succ_cons, joined_cons, List.length_append, List.length_cons]
        simp only [mark] at hm
        omega

/-- The line boundaries of a log are its marks, also when its end is torn. -/
theorem onBoundary_iff {ls : List Bytes} (h : Unbroken ls) {rest : Bytes} (hr : newline ∉ rest)
    (n : Nat) : onBoundary (joined ls ++ rest) n = true ↔ ∃ k ≤ ls.length, n = mark ls k := by
  constructor
  · exact exists_mark h hr
  · rintro ⟨k, -, rfl⟩
    exact onBoundary_mark ls k rest

end CecRelay.Lines
