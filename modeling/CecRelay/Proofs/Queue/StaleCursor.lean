import CecRelay.Proofs.Queue.Recovery

/-!
# A cursor that opening has refused

A cursor that is not on a mark of the log counts as zero while the journal is open, and it stays on
disk until the next commit. So whether the lines found at opening and those appended since are all
handed out after the next death hangs on that cursor: they are, unless the log has grown so that the
refused offset is a mark by then (`Place.Finds.handsOut_grown_iff`).
-/

namespace CecRelay

open Lines

namespace Journal

/-- The lines of events that are appended one after the other. -/
def bodies : List (Time.Stamp × Event) → UInt64 → List Bytes
  | [], _ => []
  | (now, e) :: es, seq => Envelope.body seq now e :: bodies es (seq + 1)

/-- The journal and the disk after events have been appended; none when one of them was refused. -/
def appendAll? : List (Time.Stamp × Event) → Journal → Disk → Option (Journal × Disk)
  | [], j, d => some (j, d)
  | (now, e) :: es, j, d =>
    match j.append now e d with
    | (j, d, .ok _) => appendAll? es j d
    | (_, _, .error _) => none

variable {j j' : Journal} {d d' : Disk} {ls : List Bytes} {head : Option Entry} {r : Nat}

/-- Events that are appended become the last lines of the log, one line each. -/
theorem At.appendAll? (h : j.At ls r) (hd : d.Stands (joined ls) head) {es : List (Time.Stamp × Event)}
    (happ : j.appendAll? es d = some (j', d')) : d'.Stands (joined (ls ++ bodies es j.nextSeq)) head := by
  induction es generalizing j d ls with
  | nil =>
    cases happ
    rwa [bodies, List.append_nil]
  | cons e es ih =>
    obtain ⟨now, e⟩ := e
    rw [← List.append_nil (joined ls)] at hd
    rcases h.append_cases hd now e with ⟨d₁, cause, heq, -⟩ | ⟨j₁, d₁, hd₁, hj₁, -, -, ⟨heq, hnext⟩ | ⟨heq, -⟩⟩
    · rw [Journal.appendAll?, heq] at happ
      cases happ
    · rw [Journal.appendAll?, heq] at happ
      have hd' := ih hj₁ hd₁ happ
      rcases succ?_cases j.nextSeq with ⟨-, hnone⟩ | ⟨-, -, hsome⟩
      · rw [hnone] at hnext
        cases hnext
      · rw [hsome] at hnext
        rwa [← Option.some.inj hnext, List.append_assoc, List.singleton_append] at hd'
    · rw [Journal.appendAll?, heq] at happ
      cases happ

theorem unbroken_bodies (es : List (Time.Stamp × Event)) (seq : UInt64) : Unbroken (bodies es seq) := by
  induction es generalizing seq with
  | nil => exact fun _ hl => by cases hl
  | cons e es ih => exact (unbroken_singleton (Envelope.newline_not_mem_body _ _ _)).append (ih _)

/-- None of them has the greatest number. -/
theorem greatest_not_mem_bodies {es : List (Time.Stamp × Event)} (happ : j.appendAll? es d = some (j', d')) :
    greatest ∉ numbers (bodies es j.nextSeq) := by
  induction es generalizing j d with
  | nil => exact List.not_mem_nil
  | cons e es ih =>
    obtain ⟨now, e⟩ := e
    rw [Journal.appendAll?] at happ
    split at happ
    next j₁ d₁ seq heq =>
      have hnext := (append_ok heq).2
      have hrest := ih happ
      rcases succ?_cases j.nextSeq with ⟨-, hnone⟩ | ⟨hne, -, hsome⟩
      · rw [hnone] at hnext
        cases hnext
      · rw [hsome] at hnext
        rw [← Option.some.inj hnext] at hrest
        rw [bodies, ← List.singleton_append, numbers_append, List.mem_append, not_or]
        exact ⟨@Store.greatest_not_mem [] List.not_mem_nil _ _ _ hne, hrest⟩
    next => cases happ

end Journal

/-- After events have been appended and the process has died the journal opens. What it hands out is
what it would have handed out before and one line for each event, unless the cursor that was refused
then is on a mark of the log by now. -/
theorem Place.Finds.handsOut_grown_iff {place place' : Place} {f : Folder} {log : Bytes} {c : Cursor}
    (h : place.Finds f log c) {j j' : Journal} (hopen : Journal.open place = (place', .ok j))
    {es : List (Time.Stamp × Event)} {d' : Disk} (happ : j.appendAll? es ⟨place', none⟩ = some (j', d')) :
    (∃ out, d'.place.HandsOut out) ∧
    (d'.place.HandsOut (j.handOut ⟨place', none⟩ ++ Journal.bodies es j.nextSeq) ↔
      ¬ (Journal.startOffset log c ≠ c.offset ∧ Journal.startOffset d'.log c = c.offset)) := by
  have hd := h.stands hopen
  have hopens := h.open_iff.1 ⟨place', j, hopen⟩
  obtain ⟨-, i, hj, -, hstart, hc⟩ := h.opened hopen
  have hi := hj.le
  have hbodies := Journal.greatest_not_mem_bodies happ
  rw [hstart, lines_drop_mark] at hopens
  rw [complete_eq] at hd
  have hd' := hj.appendAll? hd happ
  have hl := lines_joined ((unbroken_lines log).append (Journal.unbroken_bodies es j.nextSeq))
  rw [← lines_joined (unbroken_lines log)] at hj
  rw [hj.handOut hd, lines_joined (unbroken_lines log), hd'.log_eq]
  obtain ⟨f', hf', -⟩ := hd'.finds h.cursor
  obtain ⟨k, hk, hout, hc'⟩ := hf'.exists_offers
  rw [hl] at hk hout hc'
  -- whatever is offered, the last number is none of those appended
  have hopens' : ∀ {out}, d'.place.Offers out → out <:+ (lines log).drop i ++ Journal.bodies es j.nextSeq →
      d'.place.HandsOut out := fun hoffers hsuffix => hoffers.handsOut_iff.2 fun hlast =>
    hopens (Journal.lastSeq?_of_append hbodies (Journal.lastSeq?_of_suffix hsuffix hlast))
  rcases hc with hmark | ⟨rfl, hnone⟩
  · -- the cursor counted at opening, and lines behind it do not change that
    have hmark' : c.offset = mark (lines log ++ Journal.bodies es j.nextSeq) i := by
      rw [mark_append_left hi, hmark]
    have hle : i ≤ (lines log ++ Journal.bodies es j.nextSeq).length := by
      rw [List.length_append]
      exact Nat.le_add_right_of_le hi
    have hall := hf'.offers_mark (hl.symm ▸ hle) (hl.symm ▸ hmark')
    rw [hl, List.drop_append_of_le_length hi] at hall
    have hhands := hopens' hall List.suffix_rfl
    exact ⟨⟨_, hhands⟩, iff_of_true hhands fun hstale =>
      hstale.1 ((Journal.startOffset_eq_iff log c).2 ⟨i, hi, hmark⟩)⟩
  · have hrefused : Journal.startOffset log c ≠ c.offset := by
      intro heq
      obtain ⟨q, -, hq⟩ := (Journal.startOffset_eq_iff log c).1 heq
      exact hnone q hq
    rw [List.drop_zero] at hopens' ⊢
    have hhands := hopens' hout (List.drop_suffix _ _)
    refine ⟨⟨_, hhands⟩, ?_⟩
    rcases hc' with hmark' | ⟨rfl, hnone'⟩
    · refine iff_of_false (fun hall => ?_) (fun hcounts => hcounts ⟨hrefused, ?_⟩)
      · -- a line in front of the cursor would have to be handed out
        have hlen := congrArg List.length (hhands.unique hall)
        rw [List.length_drop] at hlen
        have hzero : k = 0 := by omega
        exact hnone 0 (by rw [hmark', hzero, mark_zero, mark_zero])
      · exact (Journal.startOffset_eq_iff _ c).2 ⟨k, hl.symm ▸ hk, hl.symm ▸ hmark'⟩
    · refine iff_of_true (by rwa [List.drop_zero] at hhands) fun hstale => ?_
      obtain ⟨q, -, hq⟩ := (Journal.startOffset_eq_iff _ c).1 hstale.2
      rw [hl] at hq
      exact hnone' q hq

/-- A key is appended to an empty log, on a cursor that was there before and says that 112 bytes have
been delivered. The line is 112 bytes long, and it is not handed out. -/
theorem Place.Finds.not_handsOut_grown :
    let place : Place := .folder { head := some (.file (Cursor.bytes ⟨112, 0⟩)) }
    let f : Folder := { log := some (.file []), head := some (.file (Cursor.bytes ⟨112, 0⟩)) }
    let es : List (Time.Stamp × Event) := [(⟨⟨2024, 1, 1⟩, 0, 0, 0, 123456789⟩, .key ⟨1, 0⟩)]
    let d' : Disk := ⟨.folder { f with log := some (.file (joined (Journal.bodies es 0))) }, none⟩
    place.Finds f [] ⟨112, 0⟩ ∧ Journal.open place = (.folder f, .ok ⟨{}, 0, 0, 0⟩) ∧
    Journal.appendAll? es ⟨{}, 0, 0, 0⟩ ⟨.folder f, none⟩ = some (⟨{}, 0, 112, 1⟩, d') ∧
    (Journal.startOffset [] ⟨112, 0⟩ ≠ 112 ∧ Journal.startOffset d'.log ⟨112, 0⟩ = 112) ∧
    ¬ d'.place.HandsOut (Journal.handOut ⟨{}, 0, 0, 0⟩ ⟨.folder f, none⟩ ++ Journal.bodies es 0) := by
  intro place f es d'
  have hcursor : Cursor.ofEntry (some (.file (Cursor.bytes ⟨112, 0⟩))) = .ok ⟨112, 0⟩ := by
    rw [Cursor.ofEntry_bytes]
    rfl
  have hfinds : place.Finds f [] ⟨112, 0⟩ := ⟨⟨_, rfl, rfl⟩, hcursor⟩
  have hopen : Journal.open place = (.folder f, .ok ⟨{}, 0, 0, 0⟩) := hfinds.open_eq
  have hline : joined (Journal.bodies es 0) = Store.keyLine := by
    simp only [es, Journal.bodies, joined_cons, joined_nil]
    rfl
  have happ : Journal.appendAll? es ⟨{}, 0, 0, 0⟩ ⟨.folder f, none⟩ = some (⟨{}, 0, 112, 1⟩, d') := by
    simp only [es, Journal.appendAll?, Store.append_keyLine f rfl, d', hline]
  have hstale : Journal.startOffset [] ⟨112, 0⟩ ≠ 112 ∧ Journal.startOffset d'.log ⟨112, 0⟩ = 112 := by
    constructor
    · decide
    · show Journal.startOffset (joined (Journal.bodies es 0)) ⟨112, 0⟩ = 112
      rw [hline]
      exact Store.startOffset_keyLine
  exact ⟨hfinds, hopen, happ, hstale, fun h => (hfinds.handsOut_grown_iff hopen happ).2.1 h hstale⟩

end CecRelay
