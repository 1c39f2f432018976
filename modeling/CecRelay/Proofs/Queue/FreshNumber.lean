import CecRelay.Proofs.Queue.Numbering

/-!
# The first number after opening

Opening looks for the next number in the lines behind the cursor, of which those that can be read have one. It counts on
from the *last* of these numbers, not from the greatest of them; behind the greatest number of all there is none, and
the folder does not open. In a log that the queue has written itself the numbers increase, and the last is the greatest
(`Life.Issued.numbers_increase`). On any other log the first number that is given may be one that stands there, or a
smaller one; `Place.Finds.fresh_iff` says when it is not.
-/

namespace CecRelay

open Lines

/-- The first number that a journal gives to an event, after events have been refused, lines read and the cursor moved,
on whatever disk. -/
inductive Journal.Gives : Journal → UInt64 → Prop
  /-- An event gets the number. -/
  | given {j j' : Journal} {d d' : Disk} {now : Time.Stamp} {e : Event} {id : UInt64} :
    j.append now e d = (j', d', .ok id) → Gives j id
  /-- An event gets none. -/
  | refused {j j' : Journal} {d d' : Disk} {now : Time.Stamp} {e : Event} {failure : Failure} {id : UInt64} :
    j.append now e d = (j', d', .error failure) → Gives j' id → Gives j id
  /-- The journal moves on behind a line. -/
  | advanced {j : Journal} {id : UInt64} (stop : Nat) : Gives (j.advance stop) id → Gives j id
  /-- The cursor moves. -/
  | committed {j : Journal} {id : UInt64} (stop : Nat) (d : Disk) : Gives (j.commit stop d).1 id → Gives j id

namespace Journal

/-- An event that gets no number uses none. -/
theorem nextSeq_append_error {j j' : Journal} {d d' : Disk} {now : Time.Stamp} {e : Event} {failure : Failure}
    (h : j.append now e d = (j', d', .error failure)) : j'.nextSeq = j.nextSeq := by
  cases failure with
  | error cause => rw [append_error h]
  | broken =>
    obtain ⟨hbefore, hafter⟩ := append_broken h
    rw [hbefore, hafter]

/-- That is the number that the journal has as the next one. -/
theorem Gives.eq {j : Journal} {id : UInt64} (h : j.Gives id) : id = j.nextSeq := by
  induction h with
  | given happ => exact (append_ok happ).1
  | refused happ _ ih => rw [ih, nextSeq_append_error happ]
  | advanced _ _ ih => exact ih
  | @committed j _ stop d _ ih => rw [ih, nextSeq_commit]

/-! ### Counting on -/

variable {seq fresh bound : UInt64} {ls : List Bytes}

/-- The first number behind some lines is one more than the last of them has. -/
theorem toNat_fresh (h : fresh? ls = some fresh) :
    fresh.toNat = (lastSeq? ls).elim 0 fun last => last.toNat + 1 := by
  rw [fresh?] at h
  cases hlast : lastSeq? ls with
  | none =>
    rw [hlast] at h
    cases h
    rfl
  | some last =>
    rw [hlast] at h
    exact toNat_of_succ? h

theorem lt_max_number_iff : seq < max fresh bound ↔ seq < fresh ∨ seq < bound := by
  simp only [UInt64.lt_iff_toNat_lt, UInt64.toNat_max]
  exact lt_max_iff

/-- It is greater than all numbers in these lines, or the bound is, exactly if no other one is greater than the last
without being below the bound. -/
theorem forall_lt_max_iff (h : fresh? ls = some fresh) : (∀ seq ∈ numbers ls, seq < max fresh bound) ↔
    ∀ last, lastSeq? ls = some last → ∀ seq ∈ numbers ls, seq ≤ last ∨ seq < bound := by
  have hfresh := toNat_fresh h
  simp only [lt_max_number_iff]
  cases hlast : lastSeq? ls with
  | none =>
    have hempty : numbers ls = [] := List.getLast?_eq_none_iff.1 hlast
    simp [hempty]
  | some last =>
    rw [hlast, Option.elim_some] at hfresh
    have hlt : ∀ seq : UInt64, seq < fresh ↔ seq ≤ last := fun seq => by
      rw [UInt64.lt_iff_toNat_lt, UInt64.le_iff_toNat_le, hfresh]
      exact Nat.lt_succ_iff
    simp only [hlt, Option.some.injEq, forall_eq']

end Journal

namespace Place.Finds

variable {place : Place} {f : Folder} {log : Bytes} {c : Cursor}

/-- A journal that has been opened gives its number to the first event for whose line there is room, unless that is the
greatest of all numbers. -/
theorem gives (h : place.Finds f log c) {place' : Place} {j : Journal} (hopen : Journal.open place = (place', .ok j))
    (hnext : j.nextSeq ≠ Journal.greatest) {now : Time.Stamp} {e : Event}
    (hroom : (complete log).length + (Envelope.line j.nextSeq now e).length ≤ maxFileSize) : j.Gives j.nextSeq := by
  obtain ⟨rfl, i, hj, -⟩ := h.opened hopen
  rcases Journal.succ?_cases j.nextSeq with ⟨hgreatest, -⟩ | ⟨-, -, hsucc⟩
  · exact absurd hgreatest hnext
  · let d : Disk := ⟨.folder { f with log := some (.file (complete log)) }, none⟩
    have hlen : d.log.length ≤ j.len := by
      rw [hj.len, ← complete_eq]
      exact Nat.le_refl _
    exact .given (Journal.append_room hsucc hlen hroom)

/-- A folder opens exactly if the last number behind the cursor is not the greatest of all numbers. The journal then
gives a number to the first event for whose line there is room, unless its own is the greatest. No first number is below
that of the cursor. It is counted without starting over, and it is greater than the last one behind the cursor. It is
greater than all numbers behind the cursor exactly if none of them is greater than the last one without being below that
of the cursor. -/
theorem fresh_iff (h : place.Finds f log c) :
    let ls := lines (log.drop (Journal.startOffset log c))
    ((∃ place' j, Journal.open place = (place', .ok j)) ↔ Journal.lastSeq? ls ≠ some Journal.greatest) ∧
    ∀ place' j, Journal.open place = (place', .ok j) →
      (j.nextSeq ≠ Journal.greatest → ∀ now e,
        (complete log).length + (Envelope.line j.nextSeq now e).length ≤ maxFileSize → ∃ id, j.Gives id) ∧
      ∀ id, j.Gives id → c.nextSeq ≤ id ∧
        id.toNat = max ((Journal.lastSeq? ls).elim 0 fun last => last.toNat + 1) c.nextSeq.toNat ∧
        (∀ last, Journal.lastSeq? ls = some last → last < id) ∧
        ((∀ seq ∈ numbers ls, seq < id) ↔
          ∀ last, Journal.lastSeq? ls = some last → ∀ seq ∈ numbers ls, seq ≤ last ∨ seq < c.nextSeq) := by
  intro ls
  refine ⟨h.open_iff, fun place' j hopen => ?_⟩
  refine ⟨fun hnext now e hroom => ⟨_, h.gives hopen hnext hroom⟩, fun id hgives => ?_⟩
  obtain ⟨fresh, hfresh, hnext⟩ := h.nextSeq_opened hopen
  have hcount := Journal.toNat_fresh hfresh
  obtain rfl : id = max fresh c.nextSeq := hgives.eq.trans hnext
  refine ⟨?_, by rw [UInt64.toNat_max, hcount], fun last hlast => ?_, Journal.forall_lt_max_iff hfresh⟩
  · rw [UInt64.le_iff_toNat_le, UInt64.toNat_max]
    exact Nat.le_max_right _ _
  · rw [hlast, Option.elim_some] at hcount
    rw [Journal.lt_max_number_iff, UInt64.lt_iff_toNat_lt, hcount]
    exact .inl (Nat.lt_succ_self _)

end Place.Finds

/-! ### Logs that the queue has not written -/

namespace Lines

/-- A log with the same key under these numbers. -/
def keyed (seqs : List UInt64) : Bytes := joined (seqs.map fun seq => Envelope.body seq Life.noon (.key ⟨1, 0⟩))

theorem numbers_keyed (seqs : List UInt64) : numbers (lines (keyed seqs)) = seqs := by
  have hunbroken : Unbroken (seqs.map fun seq => Envelope.body seq Life.noon (.key ⟨1, 0⟩)) := by
    intro line hline
    obtain ⟨seq, -, rfl⟩ := List.mem_map.1 hline
    exact Envelope.newline_not_mem_body _ _ _
  have hnumber : ∀ seq, Envelope.number? (Envelope.body seq Life.noon (.key ⟨1, 0⟩)) = some seq := fun seq =>
    Envelope.number?_body seq _ (by decide)
  rw [keyed, lines_joined hunbroken, numbers, List.filterMap_map]
  simp only [Function.comp_def, hnumber, List.filterMap_some]

theorem finds_keyed (seqs : List UInt64) :
    Place.Finds (.folder { log := some (.file (keyed seqs)) }) { log := some (.file (keyed seqs)) } (keyed seqs) {} :=
  ⟨⟨_, rfl, rfl⟩, rfl⟩

/-- Without a cursor everything is behind it. -/
theorem drop_keyed (seqs : List UInt64) :
    (keyed seqs).drop (Journal.startOffset (keyed seqs) {}) = keyed seqs := by
  have hzero : Journal.startOffset (keyed seqs) {} = 0 := ite_self 0
  rw [hzero, List.drop_zero]

theorem lastSeq?_keyed (seqs : List UInt64) : Journal.lastSeq? (lines (keyed seqs)) = seqs.getLast? :=
  congrArg List.getLast? (numbers_keyed seqs)

/-- A log in which the last number is not the greatest of all opens, and the next number comes after it. -/
theorem open_keyed {seqs : List UInt64} {last next : UInt64} (hlast : seqs.getLast? = some last)
    (hnext : Journal.succ? last = some next) :
    ∃ place j, Journal.open (.folder { log := some (.file (keyed seqs)) }) = (place, .ok j) ∧ j.nextSeq = next := by
  have hfound := lastSeq?_keyed seqs
  rw [hlast, ← drop_keyed seqs] at hfound
  have hopens : Journal.lastSeq? (lines ((keyed seqs).drop (Journal.startOffset (keyed seqs) {}))) ≠
      some Journal.greatest := by
    rw [hfound]
    intro hgreatest
    rw [Journal.succ?_eq_none_iff.2 (Option.some.inj hgreatest)] at hnext
    cases hnext
  obtain ⟨place, j, hopen⟩ := (finds_keyed seqs).open_iff.2 hopens
  obtain ⟨fresh, hfresh, hmax⟩ := (finds_keyed seqs).nextSeq_opened hopen
  rw [Journal.fresh?, hfound] at hfresh
  rw [Option.some.inj (hfresh.symm.trans hnext)] at hmax
  refine ⟨place, j, hopen, hmax.trans ?_⟩
  rw [← UInt64.toNat_inj, UInt64.toNat_max]
  exact Nat.max_eq_left (Nat.zero_le _)

/-- Behind 3 and 5 comes 6. -/
theorem fresh_three_five :
    (Place.folder { log := some (.file (keyed [3, 5])) }).Finds { log := some (.file (keyed [3, 5])) }
        (keyed [3, 5]) {} ∧
      ∃ place j, Journal.open (.folder { log := some (.file (keyed [3, 5])) }) = (place, .ok j) ∧ j.Gives 6 ∧
        ∀ seq ∈ numbers (lines (keyed [3, 5])), seq < 6 := by
  obtain ⟨place, j, hopen, hnext⟩ := @open_keyed [3, 5] 5 6 rfl rfl
  obtain ⟨hroom, hfresh⟩ := (finds_keyed [3, 5]).fresh_iff.2 place j hopen
  rw [hnext] at hroom
  obtain ⟨id, hgives⟩ := hroom (by decide) Life.noon (.key ⟨2, 0⟩) (by decide +kernel)
  obtain rfl : id = 6 := hgives.eq.trans hnext
  have hiff := (hfresh 6 hgives).2.2.2
  rw [drop_keyed, lastSeq?_keyed, numbers_keyed] at hiff
  refine ⟨finds_keyed [3, 5], place, j, hopen, hgives, ?_⟩
  rw [numbers_keyed]
  refine hiff.2 fun last hlast => ?_
  obtain rfl : 5 = last := Option.some.inj hlast
  rw [List.forall_mem_cons, List.forall_mem_singleton]
  exact ⟨.inl (by decide), .inl (by decide)⟩

/-- Behind 5 and 3 comes 4, which is not greater than 5. -/
theorem not_fresh_five_three :
    (∃ place j, Journal.open (.folder { log := some (.file (keyed [5, 3])) }) = (place, .ok j) ∧ j.Gives 4) ∧
      numbers (lines (keyed [5, 3])) = [5, 3] ∧
      ¬ ∀ place f log c, Place.Finds place f log c → ∀ place' j, Journal.open place = (place', .ok j) →
        ∀ id, j.Gives id → ∀ seq ∈ numbers (lines (log.drop (Journal.startOffset log c))), seq < id := by
  obtain ⟨place, j, hopen, hnext⟩ := @open_keyed [5, 3] 3 4 rfl rfl
  have hroom : (complete (keyed [5, 3])).length + (Envelope.line 4 Life.noon (.key ⟨2, 0⟩)).length ≤ maxFileSize := by
    decide +kernel
  rw [← hnext] at hroom
  have hgives := (finds_keyed [5, 3]).gives hopen (by rw [hnext]; decide) hroom
  rw [hnext] at hgives
  refine ⟨⟨place, j, hopen, hgives⟩, numbers_keyed [5, 3], fun hall => ?_⟩
  have hbelow := hall _ _ _ _ (finds_keyed [5, 3]) place j hopen 4 hgives 5
  rw [drop_keyed, numbers_keyed] at hbelow
  exact absurd (hbelow List.mem_cons_self) (by decide)

end Lines

end CecRelay
