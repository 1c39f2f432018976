import CecRelay.Queue.Journal

/-!
# Operations that break off

An operation is a list of changes. A crash leaves the work of a first part of that list behind, and of
the next change, if it is a write, a first part of its bytes (`Effect.crash`). Where there is nothing no
operation makes anything (`Effect.crash_missing`). Replacing the cursor leaves the log alone, and the
cursor on disk is the old one or the new one at every moment (`Disk.Stands.crash_headEffects`).
-/

namespace CecRelay

namespace Effect

/-- What is done of a change that breaks off: `k` bytes of a write, nothing of any other change. -/
def broken (k : Nat) : Effect → List Effect
  | extendLog bytes => [.extendLog (bytes.take k)]
  | fillTmp bytes => [.fillTmp (bytes.take k)]
  | _ => []

/-- The disk after an operation that has died after `n` of its changes and `k` bytes of the next. -/
def crash (n k : Nat) : List Effect → Disk → Disk
  | [], d => d
  | e :: es, d =>
    match n with
    | 0 => (run (e.broken k) d).1
    | n + 1 =>
      match e.apply d with
      | .ok d => crash n k es d
      | .error _ => d

@[simp] theorem crash_nil (n k : Nat) (d : Disk) : crash n k [] d = d := by
  cases n <;> rfl

/-- An operation that dies after its last change has been carried out. -/
theorem crash_of_length_le {n : Nat} {es : List Effect} (h : es.length ≤ n) (k : Nat) (d : Disk) :
    crash n k es d = (run es d).1 := by
  induction es generalizing n d with
  | nil => rw [crash_nil, run_nil]
  | cons e es ih =>
    obtain ⟨n, rfl⟩ : ∃ m, n = m + 1 := ⟨n - 1, by simp only [List.length_cons] at h; omega⟩
    simp only [List.length_cons, Nat.add_le_add_iff_right] at h
    rw [crash, run]
    cases e.apply d with
    | ok d => exact ih h d
    | error fault => rfl

/-- A last change that is no write has been carried out or not. -/
theorem crash_append_cutLog (n k m : Nat) (es : List Effect) (d : Disk) :
    crash n k (es ++ [.cutLog m]) d = crash n k es d ∨
      (run es d).2 = none ∧ crash n k (es ++ [.cutLog m]) d =
        (run es d).1.setLog (resized m (run es d).1.log) := by
  induction es generalizing n d with
  | nil =>
    cases n with
    | zero => exact .inl rfl
    | succ n => exact .inr ⟨rfl, crash_nil n k _⟩
  | cons e es ih =>
    cases n with
    | zero => exact .inl rfl
    | succ n =>
      simp only [List.cons_append, crash, run]
      cases e.apply d with
      | ok d => exact ih n d
      | error fault => exact .inl rfl

/-! ### What changes keep -/

section Keeps

variable {P : Disk → Prop} {Q : Effect → Prop} (hkeep : ∀ e d d', Q e → P d → e.apply d = .ok d' → P d')

include hkeep

/-- What every change in a list keeps is kept by the list. -/
theorem run_keeps {es : List Effect} (hes : ∀ e ∈ es, Q e) {d : Disk} (hd : P d) : P (run es d).1 := by
  induction es generalizing d with
  | nil => exact hd
  | cons e es ih =>
    rw [run]
    split
    next d' happly =>
      exact ih (fun e' hmem => hes e' (List.mem_cons_of_mem _ hmem))
        (hkeep e d d' (hes e List.mem_cons_self) hd happly)
    next => exact hd

/-- So it is wherever the list breaks off. -/
theorem crash_keeps (hpart : ∀ e k, Q e → ∀ e' ∈ e.broken k, Q e') {es : List Effect} (hes : ∀ e ∈ es, Q e)
    (n k : Nat) {d : Disk} (hd : P d) : P (crash n k es d) := by
  induction es generalizing n d with
  | nil =>
    rw [crash_nil]
    exact hd
  | cons e es ih =>
    have he := hes e List.mem_cons_self
    cases n with
    | zero => exact run_keeps hkeep (hpart e k he) hd
    | succ n =>
      rw [crash]
      split
      next d' happly =>
        exact ih (fun e' hmem => hes e' (List.mem_cons_of_mem _ hmem)) n (hkeep e d d' he hd happly)
      next => exact hd

end Keeps

/-- No change makes anything where there is nothing. -/
theorem apply_missing {e : Effect} {d d' : Disk} (hd : d.place = .missing) (h : e.apply d = .ok d') :
    d'.place = .missing := by
  have hset : ∀ bytes, (d.setLog bytes).place = .missing := by
    intro bytes
    unfold Disk.setLog
    split
    · exact hd
    next heq =>
      rw [hd] at heq
      cases heq
    · exact hd
  have hfolder : d.folder? = .error .missing := by rw [Disk.folder?, hd]
  unfold apply at h
  split at h
  · cases h
    exact hset _
  · split at h
    · cases h
      exact hset _
    · cases h
  · rw [hfolder] at h
    cases h
  · rw [hfolder] at h
    cases h
  · rw [hfolder] at h
    cases h

theorem run_missing (es : List Effect) {d : Disk} (hd : d.place = .missing) : (run es d).1.place = .missing :=
  run_keeps (P := fun d => d.place = .missing) (Q := fun _ => True) (fun _ _ _ _ hd h => apply_missing hd h)
    (fun _ _ => trivial) hd

theorem crash_missing (n k : Nat) (es : List Effect) {d : Disk} (hd : d.place = .missing) :
    (crash n k es d).place = .missing :=
  crash_keeps (P := fun d => d.place = .missing) (Q := fun _ => True) (fun _ _ _ _ hd h => apply_missing hd h)
    (fun _ _ _ _ _ => trivial) (fun _ _ => trivial) n k hd

/-- The change is one to the cursor. -/
def OfCursor : Effect → Prop
  | cutLog _ | extendLog _ => False
  | openTmp | fillTmp _ | publishTmp => True

/-- A change to the cursor leaves the log alone. -/
theorem apply_log {e : Effect} (he : e.OfCursor) {d d' : Disk} (h : e.apply d = .ok d') : d'.log = d.log := by
  have hset : ∀ {f f' : Folder}, d.folder? = .ok f → f'.log = f.log →
      ({ d with place := .folder f' } : Disk).log = d.log := by
    intro f f' hf heq
    obtain ⟨place, orphan⟩ := d
    cases place with
    | folder f₀ =>
      cases hf
      cases orphan with
      | some bytes => rfl
      | none =>
        obtain ⟨log, _, _, _, _⟩ := f
        obtain ⟨_, _, _, _, _⟩ := f'
        cases heq
        match log with
        | none | some (.file _) | some (.folder _) => rfl
    | _ => cases hf
  unfold apply at h
  split at h
  · exact he.elim
  · exact he.elim
  · cases hf : d.folder? with
    | error fault => rw [hf] at h; cases h
    | ok f =>
      rw [hf] at h
      simp only [bind, Except.bind] at h
      split at h
      · cases h
      · cases h
        exact hset hf rfl
  · cases hf : d.folder? with
    | error fault => rw [hf] at h; cases h
    | ok f =>
      rw [hf] at h
      simp only [bind, Except.bind] at h
      split at h
      · cases h
        exact hset hf rfl
      · cases h
  · cases hf : d.folder? with
    | error fault => rw [hf] at h; cases h
    | ok f =>
      rw [hf] at h
      simp only [bind, Except.bind] at h
      split at h
      · cases h
      · cases h
        exact hset hf rfl

end Effect

/-- Cutting the log to nothing empties it. -/
theorem Effect.run_cutLog_zero (d : Disk) : run [.cutLog 0] d = (d.setLog [], none) := by
  have hempty : resized 0 d.log = [] := by simp [resized]
  rw [← hempty]
  rfl

/-- A log that is emptied is empty, if there is one. -/
theorem Disk.log_setLog_nil (d : Disk) : (d.setLog []).log = [] := by
  obtain ⟨place, orphan⟩ := d
  cases orphan with
  | some bytes => rfl
  | none =>
    cases place with
    | _ => rfl

/-- Replacing the cursor leaves the log alone, whatever else there is on disk, and wherever it breaks off. -/
theorem Journal.log_headEffects (c : Cursor) (n k : Nat) (d : Disk) :
    (Effect.run (headEffects c) d).1.log = d.log ∧ (Effect.crash n k (headEffects c) d).log = d.log := by
  have hkeep : ∀ (e : Effect) (d₁ d₂ : Disk), e.OfCursor → d₁.log = d.log → e.apply d₁ = .ok d₂ → d₂.log = d.log :=
    fun _ _ _ he hd h => (Effect.apply_log he h).trans hd
  have hpart : ∀ (e : Effect) (k : Nat), e.OfCursor → ∀ e' ∈ e.broken k, e'.OfCursor := by
    intro e k he e' hmem
    cases e with
    | fillTmp bytes =>
      cases List.mem_singleton.1 hmem
      trivial
    | cutLog _ => exact he.elim
    | extendLog _ => exact he.elim
    | openTmp => cases hmem
    | publishTmp => cases hmem
  have hes : ∀ e ∈ headEffects c, e.OfCursor := by
    intro e hmem
    simp only [headEffects, List.mem_cons, List.not_mem_nil, or_false] at hmem
    rcases hmem with rfl | rfl | rfl
    · trivial
    · trivial
    · trivial
  exact ⟨Effect.run_keeps hkeep hes rfl, Effect.crash_keeps hkeep hpart hes n k rfl⟩

/-! ### The log and the cursor on disk -/

/-- A folder stands at the path, with a log of these contents and with this in the cursor's place. -/
structure Disk.Stands (d : Disk) (log : Bytes) (head : Option Entry) : Prop where
  /-- The folder. -/
  folder : ∃ f : Folder, d = ⟨.folder f, none⟩ ∧ f.log = some (.file log) ∧ f.head = head

namespace Disk.Stands

variable {d : Disk} {log : Bytes} {head : Option Entry}

theorem log_eq (h : d.Stands log head) : d.log = log := by
  obtain ⟨⟨entry, _, _, _, _⟩, rfl, hlog, -⟩ := h.folder
  cases hlog
  rfl

theorem head_unique (h : d.Stands log head) {log' : Bytes} {head' : Option Entry} (h' : d.Stands log' head') :
    head = head' := by
  obtain ⟨f, rfl, -, rfl⟩ := h.folder
  obtain ⟨f', heq, -, rfl⟩ := h'.folder
  cases heq
  rfl

theorem setLog (h : d.Stands log head) (bytes : Bytes) : (d.setLog bytes).Stands bytes head := by
  obtain ⟨f, rfl, -, hhead⟩ := h.folder
  exact ⟨_, rfl, rfl, hhead⟩

theorem setLog_self (h : d.Stands log head) : d.setLog log = d := by
  obtain ⟨⟨entry, _, _, _, _⟩, rfl, hlog, -⟩ := h.folder
  cases hlog
  rfl

theorem setLog_setLog (h : d.Stands log head) (bytes more : Bytes) :
    (d.setLog bytes).setLog more = d.setLog more := by
  obtain ⟨f, rfl, -, -⟩ := h.folder
  rfl

/-! ### Replacing the cursor -/

/-- Replacing the cursor leaves the log alone, wherever it breaks off, and the cursor on disk is the
old one or the new one. -/
theorem crash_headEffects (h : d.Stands log head) (c : Cursor) (n k : Nat) :
    (Effect.crash n k (Journal.headEffects c) d).Stands log head ∨
      (Effect.crash n k (Journal.headEffects c) d).Stands log (some (.file c.bytes)) := by
  obtain ⟨⟨entry, head', tmp, others, removal⟩, rfl, hlog, hhead⟩ := h.folder
  cases hlog
  cases hhead
  have hold : ∀ tmp, Disk.Stands ⟨.folder ⟨some (.file log), head', tmp, others, removal⟩, none⟩ log head' :=
    fun _ => ⟨_, rfl, rfl, rfl⟩
  have hnew : Disk.Stands ⟨.folder ⟨some (.file log), some (.file c.bytes), none, others, removal⟩, none⟩
      log (some (.file c.bytes)) := ⟨_, rfl, rfl, rfl⟩
  -- only the third change touches more than the cursor to come
  match n, tmp with
  | 0, _ => exact .inl h
  | n + 1, some (.folder inside) => exact .inl h
  | 1, none | 1, some (.file bytes) => exact .inl (hold _)
  | 2, none | 2, some (.file bytes) => exact .inl (hold _)
  | n + 3, none | n + 3, some (.file bytes) =>
    rw [Effect.crash_of_length_le (by simp [Journal.headEffects])]
    match head' with
    | some (.folder inside) => exact .inl (hold _)
    | none | some (.file bytes) => exact .inr hnew

/-- Replacing the cursor succeeds unless a folder is in the place of the cursor to come, and then
nothing has been done. -/
theorem run_headEffects (h : d.Stands log head) {old : Cursor} (hc : Cursor.ofEntry head = .ok old)
    (c : Cursor) :
    Effect.run (Journal.headEffects c) d = (d, some .isFolder) ∨
      ∃ d', Effect.run (Journal.headEffects c) d = (d', none) ∧ d'.Stands log (some (.file c.bytes)) := by
  obtain ⟨⟨entry, head', tmp, others, removal⟩, rfl, hlog, hhead⟩ := h.folder
  cases hlog
  cases hhead
  have hnew : Disk.Stands ⟨.folder ⟨some (.file log), some (.file c.bytes), none, others, removal⟩, none⟩
      log (some (.file c.bytes)) := ⟨_, rfl, rfl, rfl⟩
  match tmp with
  | some (.folder inside) => exact .inl rfl
  | none | some (.file bytes) =>
    match head' with
    | some (.folder inside) => cases hc
    | none | some (.file bytes) => exact .inr ⟨_, rfl, hnew⟩

end Disk.Stands
end CecRelay
