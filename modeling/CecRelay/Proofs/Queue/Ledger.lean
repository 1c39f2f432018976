import CecRelay.Proofs.Queue.Lines
import CecRelay.Proofs.Queue.Marks
import CecRelay.Queue.Envelope

/-!
# The ledger as a list of lines

The lines of a log carry the events of two streams (`events`, and `items` with the positions of the
lines). A ledger tells of consecutive lines, and which of them count as received hangs on one number for
each stream: how many of its events have been received of those lines (`Ledger.slotsOf`). A receipt
raises that number by one (`Ledger.markFirst_slotsOf`), and settling moves a first part of the lines,
all of it received, out of the ledger (`Ledger.settle_slotsOf`).
-/

namespace CecRelay

open Lines

/-! ### The events of lines -/

/-- The event of a stream in a line. -/
def Envelope.item? (s : Stream) (line : Bytes) : Option Event :=
  (decode? line).bind fun (_, e) => if e.stream = s then some e else none

/-- The events of a stream in lines; lines that cannot be read carry none. -/
def events (s : Stream) (ls : List Bytes) : List Event := ls.filterMap (Envelope.item? s)

/-- The events of a stream, each with the position of its line, which are counted from `n` on. -/
def items (s : Stream) (n : Nat) : List Bytes → List (Nat × Event)
  | [] => []
  | line :: ls =>
    match Envelope.item? s line with
    | some e => (n, e) :: items s (n + 1) ls
    | none => items s (n + 1) ls

theorem events_append (s : Stream) (ls ms : List Bytes) : events s (ls ++ ms) = events s ls ++ events s ms :=
  List.filterMap_append

theorem events_cons_none {line : Bytes} (h : Envelope.decode? line = none) (s : Stream) (ls : List Bytes) :
    events s (line :: ls) = events s ls := by
  simp [events, Envelope.item?, h]

theorem events_cons_some {line : Bytes} {seq : UInt64} {e : Event} (h : Envelope.decode? line = some (seq, e))
    (s : Stream) (ls : List Bytes) :
    events s (line :: ls) = if e.stream = s then e :: events s ls else events s ls := by
  by_cases hs : e.stream = s
  · simp [events, Envelope.item?, h, hs]
  · simp [events, Envelope.item?, h, hs]

/-- Without their positions the items are the events. -/
theorem items_map_snd (s : Stream) (n : Nat) (ls : List Bytes) : (items s n ls).map Prod.snd = events s ls := by
  induction ls generalizing n with
  | nil => rfl
  | cons line ls ih =>
    rw [items, events, List.filterMap_cons]
    split
    next e heq => rw [heq, List.map_cons, ih, events]
    next heq => rw [heq, ih, events]

theorem length_items (s : Stream) (n : Nat) (ls : List Bytes) : (items s n ls).length = (events s ls).length := by
  rw [← items_map_snd s n ls, List.length_map]

theorem items_append (s : Stream) (n : Nat) (ls ms : List Bytes) :
    items s n (ls ++ ms) = items s n ls ++ items s (n + ls.length) ms := by
  induction ls generalizing n with
  | nil => rfl
  | cons line ls ih =>
    have hlen : n + 1 + ls.length = n + (line :: ls).length := by
      rw [List.length_cons]
      omega
    rw [List.cons_append, items, items, ih, hlen]
    split
    · rfl
    · rfl

theorem items_singleton_none {line : Bytes} (h : Envelope.decode? line = none) (s : Stream) (n : Nat) :
    items s n [line] = [] := by
  simp [items, Envelope.item?, h]

theorem items_singleton_some {line : Bytes} {seq : UInt64} {e : Event}
    (h : Envelope.decode? line = some (seq, e)) (s : Stream) (n : Nat) :
    items s n [line] = if e.stream = s then [(n, e)] else [] := by
  by_cases hs : e.stream = s
  · simp [items, Envelope.item?, h, hs]
  · simp [items, Envelope.item?, h, hs]

/-- Every line that can be read is an item of its stream, at its position. -/
theorem mem_items {ls : List Bytes} {i : Nat} {line : Bytes} (hi : ls[i]? = some line) {seq : UInt64}
    {e : Event} (h : Envelope.decode? line = some (seq, e)) (n : Nat) : (n + i, e) ∈ items e.stream n ls := by
  induction ls generalizing i n with
  | nil => cases hi
  | cons l ls ih =>
    cases i with
    | zero =>
      cases hi
      simp [items, Envelope.item?, h]
    | succ i =>
      have hmem := ih (i := i) (by simpa using hi) (n + 1)
      rw [Nat.add_assoc, Nat.add_comm 1] at hmem
      rw [items]
      split
      · exact List.mem_cons_of_mem _ hmem
      · exact hmem

/-- An item is at the position of a line that carries it. -/
theorem of_mem_items {s : Stream} {n : Nat} {ls : List Bytes} {i : Nat} {e : Event} (h : (i, e) ∈ items s n ls) :
    ∃ k line seq, i = n + k ∧ ls[k]? = some line ∧ Envelope.decode? line = some (seq, e) := by
  induction ls generalizing n with
  | nil => cases h
  | cons line ls ih =>
    rw [items] at h
    have hrest : (i, e) ∈ items s (n + 1) ls →
        ∃ k l seq, i = n + k ∧ (line :: ls)[k]? = some l ∧ Envelope.decode? l = some (seq, e) := by
      intro hmem
      obtain ⟨k, l, seq, rfl, hl, hd⟩ := ih hmem
      exact ⟨k + 1, l, seq, by omega, by simpa using hl, hd⟩
    split at h
    next e' heq =>
      rcases List.mem_cons.1 h with hhead | hmem
      · cases hhead
        obtain ⟨⟨seq, e''⟩, hd, hs⟩ := Option.bind_eq_some_iff.1 heq
        simp only at hs
        split at hs
        · cases hs
          exact ⟨0, line, seq, rfl, rfl, hd⟩
        · cases hs
      · exact hrest hmem
    next => exact hrest h

/-! ### The slots of lines -/

namespace Ledger

/-- The slots of consecutive lines that start at an offset, when `owed s` events of stream `s` have been
received of them. -/
def slotsOf (owed : Stream → Nat) (start : Nat) : List Bytes → List Slot
  | [] => []
  | line :: ls =>
    let stop := start + line.length + 1
    match Envelope.decode? line with
    | none => ⟨stop, none, true⟩ :: slotsOf owed stop ls
    | some (_, e) =>
      ⟨stop, some e.stream, 0 < owed e.stream⟩ ::
        slotsOf (Function.update owed e.stream (owed e.stream - 1)) stop ls

theorem slotsOf_cons_none {line : Bytes} (h : Envelope.decode? line = none) (owed : Stream → Nat) (start : Nat)
    (ls : List Bytes) :
    slotsOf owed start (line :: ls) =
      ⟨start + line.length + 1, none, true⟩ :: slotsOf owed (start + line.length + 1) ls := by
  rw [slotsOf]
  simp only [h]

theorem slotsOf_cons_some {line : Bytes} {seq : UInt64} {e : Event} (h : Envelope.decode? line = some (seq, e))
    (owed : Stream → Nat) (start : Nat) (ls : List Bytes) :
    slotsOf owed start (line :: ls) =
      ⟨start + line.length + 1, some e.stream, 0 < owed e.stream⟩ ::
        slotsOf (Function.update owed e.stream (owed e.stream - 1)) (start + line.length + 1) ls := by
  rw [slotsOf]
  simp only [h]

/-- Consecutive lines that start at an offset, each with the stream of its event. -/
def spans (start : Nat) : List Bytes → List Line
  | [] => []
  | line :: ls =>
    ⟨start + line.length + 1, (Envelope.decode? line).map (·.2.stream)⟩ :: spans (start + line.length + 1) ls

theorem slotsOf_eq_marked (owed : Stream → Nat) (start : Nat) (ls : List Bytes) :
    slotsOf owed start ls = marked owed (spans start ls) := by
  induction ls generalizing owed start with
  | nil => rfl
  | cons line ls ih =>
    cases h : Envelope.decode? line with
    | none => rw [slotsOf_cons_none h, spans, h, Option.map_none, marked_cons_none, ih]
    | some p => rw [slotsOf_cons_some h, spans, h, Option.map_some, marked_cons_some, ih]

theorem spans_concat (start : Nat) (ls : List Bytes) (line : Bytes) :
    spans start (ls ++ [line]) = spans start ls ++
      [⟨start + (joined (ls ++ [line])).length, (Envelope.decode? line).map (·.2.stream)⟩] := by
  induction ls generalizing start with
  | nil => simp [spans, Nat.add_assoc]
  | cons l ls ih =>
    have hlen : start + l.length + 1 + (joined (ls ++ [line])).length =
        start + (joined (l :: ls ++ [line])).length := by
      simp only [List.cons_append, joined_cons, List.length_append, List.length_cons]
      omega
    rw [List.cons_append, spans, ih, hlen, spans, List.cons_append, List.cons_append]

/-- The lines handed to a stream are those of its events. -/
theorem length_handed_spans (s : Stream) (start : Nat) (ls : List Bytes) :
    (handed s (spans start ls)).length = (events s ls).length := by
  induction ls generalizing start with
  | nil => rfl
  | cons line ls ih =>
    cases h : Envelope.decode? line with
    | none =>
      rw [events_cons_none h, spans, h, handed_cons_ne fun heq => Option.some_ne_none s heq.symm, ih]
    | some p =>
      rw [events_cons_some h, spans, h]
      by_cases hs : p.2.stream = s
      · rw [if_pos hs, handed_cons_self (congrArg some hs), List.length_cons, ih, List.length_cons]
      · rw [if_neg hs, handed_cons_ne fun heq => hs (Option.some.inj heq), ih]

variable {owed : Stream → Nat} {start : Nat} {ls : List Bytes} {line : Bytes}

/-- A line that cannot be read gets a slot that counts as received. -/
theorem slotsOf_append_none (h : Envelope.decode? line = none) :
    slotsOf owed start (ls ++ [line]) =
      slotsOf owed start ls ++ [⟨start + (joined (ls ++ [line])).length, none, true⟩] := by
  rw [slotsOf_eq_marked, spans_concat, marked_concat, h, slotsOf_eq_marked]
  rfl

/-- A line that has just been handed out is not received, as no more events have been received than
were there before it. -/
theorem slotsOf_append_some {seq : UInt64} {e : Event} (h : Envelope.decode? line = some (seq, e))
    (ho : owed e.stream ≤ (events e.stream ls).length) :
    slotsOf owed start (ls ++ [line]) =
      slotsOf owed start ls ++ [⟨start + (joined (ls ++ [line])).length, some e.stream, false⟩] := by
  rw [← length_handed_spans e.stream start] at ho
  rw [slotsOf_eq_marked, spans_concat, marked_concat, h, slotsOf_eq_marked]
  simp [ho]

/-- A receipt marks the oldest line of its stream that has not been received. -/
theorem markFirst_slotsOf (s : Stream) :
    markFirst s (slotsOf owed start ls) = slotsOf (Function.update owed s (owed s + 1)) start ls := by
  rw [slotsOf_eq_marked, markFirst_marked, slotsOf_eq_marked]

/-- Settling takes received lines off the front. -/
theorem settleSlots_slotsOf (ready : Option Nat) :
    ∃ done rest, ls = done ++ rest ∧ (∀ s, (events s done).length ≤ owed s) ∧
      settleSlots (slotsOf owed start ls) ready =
        (slotsOf (fun s => owed s - (events s done).length) (start + (joined done).length) rest,
          if done = [] then ready else some (start + (joined done).length)) := by
  induction ls generalizing owed start ready with
  | nil => exact ⟨[], [], rfl, fun s => Nat.zero_le _, rfl⟩
  | cons l ls ih =>
    have hstay : ∃ done rest, l :: ls = done ++ rest ∧ (∀ s, (events s done).length ≤ owed s) ∧
        (slotsOf owed start (l :: ls), ready) =
          (slotsOf (fun s => owed s - (events s done).length) (start + (joined done).length) rest,
            if done = [] then ready else some (start + (joined done).length)) :=
      ⟨[], l :: ls, rfl, fun s => Nat.zero_le _, rfl⟩
    have hready : ∀ (stop : Nat) (done : List Bytes), stop = start + l.length + 1 →
        (if done = [] then some stop else some (stop + (joined done).length)) =
          if l :: done = [] then ready else some (start + (joined (l :: done)).length) := by
      rintro stop done rfl
      rw [if_neg (List.cons_ne_nil l done), joined_cons, List.length_append, List.length_cons]
      split
      next hnil => rw [hnil]; rfl
      next => congr 1; omega
    have hstart : ∀ done : List Bytes, start + l.length + 1 + (joined done).length =
        start + (joined (l :: done)).length := by
      intro done
      rw [joined_cons, List.length_append, List.length_cons]
      omega
    cases hl : Envelope.decode? l with
    | none =>
      obtain ⟨done, rest, rfl, howed, heq⟩ :=
        @ih owed (start + l.length + 1) (some (start + l.length + 1))
      refine ⟨l :: done, rest, rfl, fun s => by rw [events_cons_none hl]; exact howed s, ?_⟩
      rw [slotsOf_cons_none hl, settleSlots, if_pos rfl, heq, hready _ done rfl, hstart]
      simp only [events_cons_none hl]
    | some p =>
      obtain ⟨seq, e⟩ := p
      by_cases hpos : 0 < owed e.stream
      · obtain ⟨done, rest, rfl, howed, heq⟩ := @ih (Function.update owed e.stream (owed e.stream - 1))
          (start + l.length + 1) (some (start + l.length + 1))
        have hspent : ∀ s, (events s (l :: done)).length ≤ owed s ∧
            Function.update owed e.stream (owed e.stream - 1) s - (events s done).length =
              owed s - (events s (l :: done)).length := by
          intro s
          have hs := howed s
          rw [events_cons_some hl]
          by_cases heqs : e.stream = s
          · subst heqs
            rw [Function.update_self] at hs
            rw [if_pos rfl, Function.update_self, List.length_cons]
            omega
          · rw [Function.update_of_ne (Ne.symm heqs)] at hs
            rw [if_neg heqs, Function.update_of_ne (Ne.symm heqs)]
            exact ⟨hs, rfl⟩
        refine ⟨l :: done, rest, rfl, fun s => (hspent s).1, ?_⟩
        rw [slotsOf_cons_some hl, settleSlots, if_pos (by simpa using hpos), heq, hready _ done rfl, hstart]
        simp only [fun s => (hspent s).2]
      · have hunreceived : settleSlots (slotsOf owed start (l :: ls)) ready =
            (slotsOf owed start (l :: ls), ready) := by
          rw [slotsOf_cons_some hl, settleSlots, if_neg (by simpa using hpos)]
        rw [hunreceived]
        exact hstay

end Ledger
end CecRelay
