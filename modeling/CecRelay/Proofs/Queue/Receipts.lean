import CecRelay.Proofs.Queue.Marks
import Mathlib.Data.List.Infix
import Mathlib.Data.List.TakeWhile

/-!
# Receipts

Somebody uses a ledger: lines are handed out and passed over, items are received, and what is ready is
taken and sometimes put back (`Ledger.after`). The ledger keeps the lines that are not settled, with the
marks of the streams' order (`Ledger.slots_eq`), and each call settles what it can behind the lines settled
before it (`Ledger.ready_concat`). So what is ready at any time is the offset behind a settled line
(`Ledger.mem_stops_of_ready`), and until somebody takes it the largest there is (`Ledger.ready_eq_max?`).
-/

namespace CecRelay
namespace Ledger

/-! ### Calls -/

/-- What is done with a ledger. -/
inductive Call
  /-- A line is handed to a stream. -/
  | handedOut (s : Stream) (stop : Nat)
  /-- A line that cannot be read is passed over. -/
  | passedOver (stop : Nat)
  /-- An item of a stream is received. -/
  | received (s : Stream)
  /-- The offset that is ready is taken. -/
  | takeReady
  /-- An offset is put back. -/
  | putBack (stop : Nat)
  deriving DecidableEq, Repr

/-- The line that a call hands out or passes over. -/
def Call.line? : Call → Option Line
  | .handedOut s stop => some ⟨stop, some s⟩
  | .passedOver stop => some ⟨stop, none⟩
  | _ => none

/-- The offset that a call puts back. -/
def Call.putBack? : Call → Option Nat
  | .putBack stop => some stop
  | _ => none

/-- The ledger after a call. -/
def call (l : Ledger) : Call → Ledger
  | .handedOut s stop => l.handedOut s stop
  | .passedOver stop => l.passedOver stop
  | .received s => l.received s
  | .takeReady => l.takeReady.2
  | .putBack stop => l.putBack stop

/-- A new ledger after calls. -/
def after (cs : List Call) : Ledger := cs.foldl call {}

/-- The lines handed out and passed over. -/
def lines (cs : List Call) : List Line := cs.filterMap Call.line?

/-- How many items of a stream have been received. -/
def receipts (s : Stream) (cs : List Call) : Nat := cs.count (.received s)

/-- The offsets put back. -/
def putBacks (cs : List Call) : List Nat := cs.filterMap Call.putBack?

/-- All the lines so far, marked as the streams' order says. -/
def marks (cs : List Call) : List Slot := marked (receipts · cs) (lines cs)

/-- The offsets behind the lines of the longest first part that has been received or passed over. -/
def stops (cs : List Call) : List Nat := ((marks cs).takeWhile (·.received)).map Slot.stop

/-- The offsets that have been ready after some of the calls. -/
def readies (cs : List Call) : List Nat := cs.inits.filterMap fun before => (after before).ready

/-- An offset has been taken. -/
def Taken (cs : List Call) (stop : Nat) : Prop :=
  ∃ before, before ++ [.takeReady] <+: cs ∧ (after before).takeReady.1 = some stop

/-- A call that may be made after others: a line stops behind those before it, an item that is received has
been handed out, and an offset that is put back has been taken. -/
def Call.Allowed (before : List Call) : Call → Prop
  | .handedOut _ stop | .passedOver stop => ∀ line ∈ lines before, line.stop < stop
  | .received s => receipts s before < (handed s (lines before)).length
  | .takeReady => True
  | .putBack stop => Taken before stop

/-- Every call may be made after those before it. -/
def Proper (cs : List Call) : Prop := ∀ before c, before ++ [c] <+: cs → c.Allowed before

variable {cs before recent : List Call} {c : Call} {s : Stream} {stop v : Nat}

instance (cs : List Call) (stop : Nat) : Decidable (Taken cs stop) :=
  decidable_of_iff
    (∃ before ∈ cs.inits, before ++ [.takeReady] <+: cs ∧ (after before).takeReady.1 = some stop) <| by
    refine exists_congr fun before => ⟨And.right, fun h => ⟨?_, h⟩⟩
    exact (List.mem_inits _ _).2 ((List.prefix_append _ _).trans h.1)

instance (before : List Call) : (c : Call) → Decidable (c.Allowed before)
  | .handedOut _ stop => inferInstanceAs (Decidable (∀ line ∈ lines before, line.stop < stop))
  | .passedOver stop => inferInstanceAs (Decidable (∀ line ∈ lines before, line.stop < stop))
  | .received s => inferInstanceAs (Decidable (receipts s before < (handed s (lines before)).length))
  | .takeReady => inferInstanceAs (Decidable True)
  | .putBack stop => inferInstanceAs (Decidable (Taken before stop))

theorem proper_iff : Proper cs ↔ ∀ i (h : i < cs.length), cs[i].Allowed (cs.take i) := by
  constructor
  · intro h i hi
    refine h _ _ ?_
    rw [List.take_append_getElem hi]
    exact List.take_prefix _ _
  · rintro h before c ⟨rest, rfl⟩
    have hi := h before.length (by simp)
    simpa using hi

instance (cs : List Call) : Decidable (Proper cs) :=
  decidable_of_iff (∀ i (h : i < cs.length), cs[i].Allowed (cs.take i)) proper_iff.symm

theorem Proper.upTo (h : Proper cs) (hp : before <+: cs) : Proper before :=
  fun _ _ hc => h _ _ (hc.trans hp)

theorem Proper.init (h : Proper (cs ++ [c])) : Proper cs := h.upTo (List.prefix_append cs [c])

theorem Proper.last (h : Proper (cs ++ [c])) : c.Allowed cs := h cs c (List.prefix_refl _)

theorem after_concat (cs : List Call) (c : Call) : after (cs ++ [c]) = (after cs).call c :=
  List.foldl_concat _ _ _ _

theorem lines_concat (cs : List Call) (c : Call) : lines (cs ++ [c]) = lines cs ++ c.line?.toList := by
  rw [lines, List.filterMap_append]
  cases h : c.line? <;> simp [lines, h]

theorem receipts_concat_self (s : Stream) (cs : List Call) :
    receipts s (cs ++ [.received s]) = receipts s cs + 1 := by
  rw [receipts, List.count_append, List.count_singleton_self, receipts]

theorem receipts_concat_ne (h : c ≠ .received s) : receipts s (cs ++ [c]) = receipts s cs := by
  rw [receipts, List.count_append, List.count_singleton, if_neg (by simpa using h), receipts]
  rfl

/-! ### The lines of a ledger -/

/-- No more items have been received of a stream than it has been handed. -/
theorem Proper.receipts_le (h : Proper cs) (s : Stream) : receipts s cs ≤ (handed s (lines cs)).length := by
  induction cs using List.reverseRecOn with
  | nil => exact Nat.le_refl 0
  | append_singleton cs c ih =>
    have hmore : (handed s (lines cs)).length ≤ (handed s (lines (cs ++ [c]))).length := by
      rw [lines_concat, handed, handed, List.filter_append, List.length_append]
      exact Nat.le_add_right _ _
    by_cases hc : c = .received s
    · subst hc
      have hlt : receipts s cs < (handed s (lines cs)).length := h.last
      rw [receipts_concat_self]
      exact Nat.le_trans hlt hmore
    · rw [receipts_concat_ne hc]
      exact Nat.le_trans (ih h.init) hmore

/-- The lines stop in order. -/
theorem Proper.pairwise (h : Proper cs) : ((lines cs).map Line.stop).Pairwise (· < ·) := by
  induction cs using List.reverseRecOn with
  | nil => exact .nil
  | append_singleton cs c ih =>
    rw [lines_concat, List.map_append, List.pairwise_append]
    refine ⟨ih h.init, ?_, ?_⟩
    · cases c.line? <;> simp
    · intro w hw v hv
      obtain ⟨line, hline, rfl⟩ := List.mem_map.1 hw
      have hlast := h.last
      cases c with
      | handedOut s stop =>
        rw [List.mem_singleton.1 hv]
        exact hlast line hline
      | passedOver stop =>
        rw [List.mem_singleton.1 hv]
        exact hlast line hline
      | received => cases hv
      | takeReady => cases hv
      | putBack => cases hv

theorem marks_concat (cs : List Call) (c : Call) (hc : ∀ s, c ≠ .received s) :
    marks (cs ++ [c]) = marked (receipts · cs) (lines cs ++ c.line?.toList) := by
  have howed : (receipts · (cs ++ [c])) = (receipts · cs) := funext fun s => receipts_concat_ne (hc s)
  rw [marks, howed, lines_concat]

/-- A line that has just been handed out has no mark. -/
theorem marks_handedOut (h : Proper (cs ++ [.handedOut s stop])) :
    marks (cs ++ [.handedOut s stop]) = marks cs ++ [⟨stop, some s, false⟩] := by
  have hle := h.init.receipts_le s
  rw [marks_concat cs (.handedOut s stop) nofun]
  refine (marked_concat _ _ ⟨stop, some s⟩).trans ?_
  simp [marks, hle]

theorem marks_passedOver (cs : List Call) (stop : Nat) :
    marks (cs ++ [.passedOver stop]) = marks cs ++ [⟨stop, none, true⟩] := by
  rw [marks_concat cs (.passedOver stop) nofun]
  exact marked_concat _ _ ⟨stop, none⟩

theorem marks_received (cs : List Call) (s : Stream) :
    marks (cs ++ [.received s]) = markFirst s (marks cs) := by
  have howed : (receipts · (cs ++ [.received s])) =
      Function.update (receipts · cs) s (receipts s cs + 1) := by
    funext t
    by_cases ht : t = s
    · subst ht
      rw [Function.update_self, receipts_concat_self]
    · rw [Function.update_of_ne ht, receipts_concat_ne (by simpa using Ne.symm ht)]
  rw [marks, howed, lines_concat, marks, markFirst_marked]
  exact congrArg _ (List.append_nil _)

theorem marks_still (cs : List Call) (c : Call) (hline : c.line? = none) (hc : ∀ s, c ≠ .received s) :
    marks (cs ++ [c]) = marks cs := by
  rw [marks_concat cs c hc, hline]
  exact congrArg _ (List.append_nil _)

theorem settle_eq (l : Ledger) :
    l.settle = ⟨l.slots.dropWhile (·.received),
      ((l.slots.takeWhile (·.received)).getLast?.map Slot.stop).or l.ready⟩ := by
  rw [settle, settleSlots_eq]

/-- A slot with a mark is none that a receipt looks for. -/
theorem markFirst_append_marked (s : Stream) {slots : List Slot} (h : ∀ slot ∈ slots, slot.received = true)
    (rest : List Slot) : markFirst s (slots ++ rest) = slots ++ markFirst s rest := by
  induction slots with
  | nil => rfl
  | cons slot slots ih =>
    obtain ⟨hslot, hslots⟩ := List.forall_mem_cons.1 h
    rw [List.cons_append, markFirst, if_neg (by simp [hslot]), ih hslots, List.cons_append]

/-- A line passed over or an item received changes the lines that are not settled, and then the ledger
settles. -/
theorem exists_settle (hs : (after cs).slots = (marks cs).dropWhile (·.received))
    (hc : (∃ stop, c = .passedOver stop) ∨ ∃ s, c = .received s) :
    ∃ slots, marks (cs ++ [c]) = (marks cs).takeWhile (·.received) ++ slots ∧
      after (cs ++ [c]) = settle { after cs with slots := slots } := by
  rcases hc with ⟨stop, rfl⟩ | ⟨s, rfl⟩
  · refine ⟨(after cs).slots ++ [⟨stop, none, true⟩], ?_, by rw [after_concat]; rfl⟩
    rw [marks_passedOver, hs, ← List.append_assoc, List.takeWhile_append_dropWhile]
  · refine ⟨markFirst s (after cs).slots, ?_, by rw [after_concat]; rfl⟩
    rw [marks_received, hs, ← markFirst_append_marked s fun _ hslot => List.mem_takeWhile_imp hslot,
      List.takeWhile_append_dropWhile]

/-- The ledger has the lines that are not settled, marked as the streams' order says. -/
theorem slots_eq (h : Proper cs) : (after cs).slots = (marks cs).dropWhile (·.received) := by
  induction cs using List.reverseRecOn with
  | nil => rfl
  | append_singleton cs c ih =>
    have hslots := ih h.init
    have hsettle (hc : (∃ stop, c = .passedOver stop) ∨ ∃ s, c = .received s) :
        (after (cs ++ [c])).slots = (marks (cs ++ [c])).dropWhile (·.received) := by
      obtain ⟨slots, hmarks, hafter⟩ := exists_settle hslots hc
      rw [hafter, settle_eq, hmarks, List.dropWhile_append_of_pos fun _ hslot => List.mem_takeWhile_imp hslot]
    cases c with
    | handedOut s stop =>
      rw [marks_handedOut h, after_concat]
      refine (congrArg (· ++ [_]) hslots).trans ?_
      rw [List.dropWhile_append]
      split
      next hnil => rw [List.isEmpty_iff.1 hnil]; rfl
      next => rfl
    | passedOver stop => exact hsettle (.inl ⟨stop, rfl⟩)
    | received s => exact hsettle (.inr ⟨s, rfl⟩)
    | takeReady => rw [marks_still cs .takeReady rfl nofun, after_concat]; exact hslots
    | putBack stop => rw [marks_still cs (.putBack stop) rfl nofun, after_concat]; exact hslots

/-! ### What is ready -/

/-- What is ready after a call, unless lines are settled. -/
def Call.readies (c : Call) (ready : Option Nat) : Option Nat :=
  match c with
  | .takeReady => none
  | .putBack stop => some (match ready with | none => stop | some ready => max ready stop)
  | _ => ready

theorem Call.readies_putBack {ready : Option Nat} (h : (Call.putBack stop).readies ready = some v) :
    v = stop ∨ ready = some v := by
  cases ready with
  | none => exact .inl (Option.some.inj h).symm
  | some w =>
    have hmax : max w stop = v := Option.some.inj h
    rcases Nat.le_total w stop with hle | hle
    · exact .inl (hmax.symm.trans (Nat.max_eq_right hle))
    · exact .inr (congrArg some ((Nat.max_eq_left hle).symm.trans hmax))

/-- What a call settles comes behind what has been settled before it, and the last of it is ready. -/
theorem ready_concat (h : Proper (cs ++ [c])) :
    ∃ fresh, stops (cs ++ [c]) = stops cs ++ fresh ∧
      (after (cs ++ [c])).ready = fresh.getLast?.or (c.readies (after cs).ready) := by
  have hsettle (hc : (∃ stop, c = .passedOver stop) ∨ ∃ s, c = .received s) :
      ∃ fresh, stops (cs ++ [c]) = stops cs ++ fresh ∧
        (after (cs ++ [c])).ready = fresh.getLast?.or (after cs).ready := by
    obtain ⟨slots, hmarks, hafter⟩ := exists_settle (slots_eq h.init) hc
    refine ⟨(slots.takeWhile (·.received)).map Slot.stop, ?_, ?_⟩
    · rw [stops, hmarks, List.takeWhile_append_of_pos fun _ hslot => List.mem_takeWhile_imp hslot,
        List.map_append, stops]
    · rw [hafter, settle_eq, List.getLast?_map]
  have hsame (hmarks : marks (cs ++ [c]) = marks cs) : stops (cs ++ [c]) = stops cs ++ [] := by
    rw [stops, hmarks, List.append_nil, stops]
  cases c with
  | handedOut s stop =>
    refine ⟨[], ?_, by rw [after_concat]; rfl⟩
    rw [stops, marks_handedOut h, List.takeWhile_append, List.append_nil, stops]
    split
    next hlen =>
      rw [List.takeWhile_cons_of_neg (by simp), List.append_nil]
      rw [(List.takeWhile_prefix _).eq_of_length hlen]
    next => rfl
  | passedOver stop => exact hsettle (.inl ⟨stop, rfl⟩)
  | received s => exact hsettle (.inr ⟨s, rfl⟩)
  | takeReady => exact ⟨[], hsame (marks_still cs .takeReady rfl nofun), by rw [after_concat]; rfl⟩
  | putBack stop => exact ⟨[], hsame (marks_still cs (.putBack stop) rfl nofun), by rw [after_concat]; rfl⟩

/-- What has been settled stays settled. -/
theorem stops_grow (h : Proper cs) (hp : before <+: cs) : stops before <+: stops cs := by
  induction cs using List.reverseRecOn with
  | nil => rw [List.prefix_nil.1 hp]
  | append_singleton cs c ih =>
    rcases List.prefix_concat_iff.1 hp with rfl | hp
    · exact List.prefix_refl _
    · obtain ⟨fresh, hfresh, -⟩ := ready_concat h
      rw [hfresh]
      exact (ih h.init hp).trans (List.prefix_append _ _)

/-- What is ready at any time is the offset behind a line settled by then. -/
theorem mem_stops_of_ready (h : Proper cs) (hp : before <+: cs) (hready : (after before).ready = some v) :
    v ∈ stops before := by
  induction cs using List.reverseRecOn generalizing before v with
  | nil =>
    rw [List.prefix_nil.1 hp] at hready
    cases hready
  | append_singleton cs c ih =>
    rcases List.prefix_concat_iff.1 hp with rfl | hp
    · obtain ⟨fresh, hfresh, heq⟩ := ready_concat h
      rw [heq] at hready
      rw [hfresh]
      cases hlast : fresh.getLast? with
      | some last =>
        rw [hlast] at hready
        cases hready
        exact List.mem_append_right _ (List.mem_of_getLast? hlast)
      | none =>
        rw [hlast, Option.none_or] at hready
        refine List.mem_append_left _ ?_
        have hkept {w : Nat} : (after cs).ready = some w → w ∈ stops cs := ih h.init (List.prefix_refl _)
        cases c with
        | handedOut s stop => exact hkept hready
        | passedOver stop => exact hkept hready
        | received s => exact hkept hready
        | takeReady => cases hready
        | putBack stop =>
          obtain ⟨earlier, hp, htaken⟩ : Taken cs stop := h.last
          have hp := (List.prefix_append _ _).trans hp
          have hback : stop ∈ stops cs := (stops_grow h.init hp).subset (ih h.init hp htaken)
          rcases Call.readies_putBack hready with rfl | hnow
          · exact hback
          · exact hkept hnow
    · exact ih h.init hp hready

theorem Taken.mem_stops (h : Proper cs) (ht : Taken cs v) : v ∈ stops cs := by
  obtain ⟨before, hp, hready⟩ := ht
  have hp := (List.prefix_append _ _).trans hp
  exact (stops_grow h hp).subset (mem_stops_of_ready h hp hready)

theorem stops_pairwise (h : Proper cs) : (stops cs).Pairwise (· < ·) := by
  have hsub : (stops cs).Sublist ((lines cs).map Line.stop) := by
    rw [← map_stop_marked (receipts · cs)]
    exact (List.takeWhile_sublist _).map _
  exact h.pairwise.sublist hsub

theorem le_of_mem_stops (h : Proper cs) {last : Nat} (hlast : (stops cs).getLast? = some last)
    (hv : v ∈ stops cs) : v ≤ last := by
  obtain ⟨init, heq⟩ := List.getLast?_eq_some_iff.1 hlast
  have hpairs := stops_pairwise h
  rw [heq, List.pairwise_append] at hpairs
  rw [heq] at hv
  rcases List.mem_append.1 hv with hv | hv
  · exact Nat.le_of_lt (hpairs.2.2 v hv last List.mem_cons_self)
  · exact Nat.le_of_eq (List.mem_singleton.1 hv)

/-- The offset behind the last line settled has been ready. -/
theorem exists_ready (h : Proper cs) (hlast : (stops cs).getLast? = some v) :
    ∃ before, before <+: cs ∧ (after before).ready = some v := by
  induction cs using List.reverseRecOn with
  | nil => cases hlast
  | append_singleton cs c ih =>
    obtain ⟨fresh, hfresh, heq⟩ := ready_concat h
    rw [hfresh, List.getLast?_append] at hlast
    cases hl : fresh.getLast? with
    | some last =>
      rw [hl] at hlast heq
      exact ⟨_, List.prefix_refl _, heq.trans hlast⟩
    | none =>
      rw [hl] at hlast
      obtain ⟨before, hp, hready⟩ := ih h.init hlast
      exact ⟨before, hp.trans (List.prefix_append _ _), hready⟩

theorem mem_readies : v ∈ readies cs ↔ ∃ before, before <+: cs ∧ (after before).ready = some v := by
  simp [readies]

/-- The largest offset that has been ready is the one behind the last line settled. -/
theorem max?_readies (h : Proper cs) : (readies cs).max? = (stops cs).getLast? := by
  have hmem : ∀ w ∈ readies cs, w ∈ stops cs := by
    intro w hw
    obtain ⟨before, hp, hready⟩ := mem_readies.1 hw
    exact (stops_grow h hp).subset (mem_stops_of_ready h hp hready)
  cases hlast : (stops cs).getLast? with
  | none =>
    rw [List.getLast?_eq_none_iff] at hlast
    rw [List.max?_eq_none_iff, List.eq_nil_iff_forall_not_mem]
    intro w hw
    exact List.not_mem_nil (hlast ▸ hmem w hw)
  | some v =>
    exact List.max?_eq_some_iff.2
      ⟨mem_readies.2 (exists_ready h hlast), fun w hw => le_of_mem_stops h hlast (hmem w hw)⟩

/-- What may be ready after recent calls: what was ready before them, what they have put back and what they
have settled. -/
def offered (before recent : List Call) : List Nat :=
  (after before).ready.toList ++ putBacks recent ++ (stops (before ++ recent)).drop (stops before).length

theorem putBacks_concat (cs : List Call) (c : Call) :
    putBacks (cs ++ [c]) = putBacks cs ++ c.putBack?.toList := by
  rw [putBacks, List.filterMap_append]
  cases h : c.putBack? <;> simp [putBacks, h]

theorem mem_putBacks : v ∈ putBacks cs ↔ .putBack v ∈ cs := by
  refine List.mem_filterMap.trans ⟨?_, fun h => ⟨_, h, rfl⟩⟩
  rintro ⟨c, hc, hput⟩
  cases c with
  | putBack stop =>
    cases hput
    exact hc
  | handedOut => cases hput
  | passedOver => cases hput
  | received => cases hput
  | takeReady => cases hput

/-- What may be ready is the offset behind a line that has been settled. -/
theorem mem_stops_of_offered (h : Proper (before ++ recent)) (hv : v ∈ offered before recent) :
    v ∈ stops (before ++ recent) := by
  have hp : before <+: before ++ recent := List.prefix_append _ _
  simp only [offered, List.mem_append, Option.mem_toList] at hv
  rcases hv with (hready | hback) | hfresh
  · exact (stops_grow h hp).subset (mem_stops_of_ready h hp hready)
  · obtain ⟨early, late, rfl⟩ := List.append_of_mem (mem_putBacks.1 hback)
    have hp : (before ++ early) ++ [.putBack v] <+: before ++ (early ++ .putBack v :: late) :=
      ⟨late, by simp⟩
    have htaken : Taken (before ++ early) v := h _ _ hp
    have hp := (List.prefix_append _ _).trans hp
    exact (stops_grow h hp).subset (htaken.mem_stops (h.upTo hp))
  · exact List.mem_of_mem_drop hfresh

theorem max?_insert (xs ys : List Nat) (v : Nat) :
    (xs ++ [v] ++ ys).max? = some (match (xs ++ ys).max? with | none => v | some w => max w v) := by
  cases h : (xs ++ ys).max? with
  | none =>
    obtain ⟨rfl, rfl⟩ := List.append_eq_nil_iff.1 (List.max?_eq_none_iff.1 h)
    rfl
  | some w =>
    obtain ⟨hw, hle⟩ := List.max?_eq_some_iff.1 h
    simp only [List.mem_append] at hw hle
    refine List.max?_eq_some_iff.2 ⟨?_, ?_⟩
    · simp only [List.mem_append, List.mem_singleton]
      rcases Nat.le_total w v with hwv | hwv
      · rw [Nat.max_eq_right hwv]
        exact .inl (.inr rfl)
      · rw [Nat.max_eq_left hwv]
        exact hw.elim (fun h => .inl (.inl h)) .inr
    · intro b hb
      simp only [List.mem_append, List.mem_singleton] at hb
      rcases hb with (hb | rfl) | hb
      · exact (hle b (.inl hb)).trans (Nat.le_max_left _ _)
      · exact Nat.le_max_right _ _
      · exact (hle b (.inr hb)).trans (Nat.le_max_left _ _)

/-- Until somebody takes it, the largest offset of all that may be ready is. -/
theorem ready_eq_max? (h : Proper (before ++ recent)) (hno : .takeReady ∉ recent) :
    (after (before ++ recent)).ready = (offered before recent).max? := by
  induction recent using List.reverseRecOn with
  | nil =>
    rw [offered, List.append_nil, List.drop_length]
    cases hready : (after before).ready with
    | none => rfl
    | some ready => rfl
  | append_singleton recent c ih =>
    rw [← List.append_assoc] at h ⊢
    have hold := ih h.init fun hmem => hno (List.mem_append_left _ hmem)
    obtain ⟨fresh, hfresh, heq⟩ := ready_concat h
    obtain ⟨mid, hmid⟩ := stops_grow h.init (List.prefix_append before recent)
    have hoffered : offered before (recent ++ [c]) =
        (after before).ready.toList ++ (putBacks recent ++ c.putBack?.toList) ++ (mid ++ fresh) := by
      rw [offered, ← List.append_assoc, hfresh, ← hmid, List.append_assoc (stops before), List.drop_left,
        putBacks_concat]
    rw [offered, ← hmid, List.drop_left] at hold
    rw [heq]
    cases hlast : fresh.getLast? with
    | some last =>
      -- the lines just settled stop behind all the others
      have hend : (stops (before ++ recent ++ [c])).getLast? = some last := by
        rw [hfresh, List.getLast?_append, hlast, Option.some_or]
      refine (List.max?_eq_some_iff.2 ⟨?_, fun w hw => le_of_mem_stops h hend ?_⟩).symm
      · rw [hoffered]
        exact List.mem_append_right _ (List.mem_append_right _ (List.mem_of_getLast? hlast))
      · rw [List.append_assoc] at h ⊢
        exact mem_stops_of_offered h hw
    | none =>
      rw [List.getLast?_eq_none_iff] at hlast
      rw [hoffered, hlast, List.append_nil, Option.none_or, hold]
      cases c with
      | putBack stop => rw [← List.append_assoc]; exact (max?_insert _ _ _).symm
      | takeReady => exact absurd (List.mem_append_right _ List.mem_cons_self) hno
      | handedOut s stop => simp [Call.putBack?, Call.readies]
      | passedOver stop => simp [Call.putBack?, Call.readies]
      | received s => simp [Call.putBack?, Call.readies]

/-- Behind the last call that took what was ready there is none. -/
theorem exists_last_take (cs : List Call) :
    ∃ before recent, cs = before ++ recent ∧ .takeReady ∉ recent ∧ (after before).ready = none ∧
      ∀ w, Taken cs w → Taken before w := by
  induction cs using List.reverseRecOn with
  | nil => exact ⟨[], [], rfl, List.not_mem_nil, rfl, fun _ => id⟩
  | append_singleton cs c ih =>
    by_cases hc : c = .takeReady
    · subst hc
      exact ⟨cs ++ [.takeReady], [], (List.append_nil _).symm, List.not_mem_nil, by rw [after_concat]; rfl,
        fun _ => id⟩
    · obtain ⟨before, recent, rfl, hno, hready, htaken⟩ := ih
      refine ⟨before, recent ++ [c], List.append_assoc _ _ _, ?_, hready, ?_⟩
      · rw [List.mem_append, List.mem_singleton]
        exact not_or.2 ⟨hno, Ne.symm hc⟩
      · rintro w ⟨earlier, hp, htake⟩
        rcases List.prefix_concat_iff.1 hp with heq | hp
        · exact absurd (List.cons.inj (List.append_inj' heq rfl).2).1.symm hc
        · exact htaken w ⟨earlier, hp, htake⟩

/-- What somebody takes is larger than all that has been taken, unless it has been put back since. -/
theorem taken_lt_or_putBack (h : Proper cs) (hready : (after cs).ready = some v) :
    (∀ w, Taken cs w → w < v) ∨
      ∃ early late, cs = early ++ .putBack v :: late ∧ .takeReady ∉ late := by
  obtain ⟨before, recent, rfl, hno, hnone, htaken⟩ := exists_last_take cs
  have hmem : v ∈ offered before recent :=
    (List.max?_eq_some_iff.1 ((ready_eq_max? h hno).symm.trans hready)).1
  rw [offered, hnone] at hmem
  rcases List.mem_append.1 hmem with hback | hfresh
  · right
    obtain ⟨early, late, rfl⟩ := List.append_of_mem (mem_putBacks.1 hback)
    exact ⟨before ++ early, late, (List.append_assoc _ _ _).symm,
      fun hlate => hno (List.mem_append_right _ (List.mem_cons_of_mem _ hlate))⟩
  · left
    intro w hw
    have hp : before <+: before ++ recent := List.prefix_append _ _
    have hpairs := stops_pairwise h
    obtain ⟨rest, hrest⟩ := stops_grow h hp
    rw [← hrest, List.drop_left] at hfresh
    rw [← hrest, List.pairwise_append] at hpairs
    exact hpairs.2.2 w ((htaken w hw).mem_stops (h.upTo hp)) v hfresh

/-! ### Receipts -/

/-- A receipt marks the slot of the line whose turn it is among those handed to its stream. -/
theorem exists_received (h : Proper (cs ++ [.received s])) :
    ∃ line earlier later, (handed s (lines cs))[receipts s cs]? = some line ∧
      (after cs).slots = earlier ++ ⟨line.stop, some s, false⟩ :: later ∧
      after (cs ++ [.received s]) =
        settle { after cs with slots := earlier ++ ⟨line.stop, some s, true⟩ :: later } := by
  have hlt : (receipts · cs) s < (handed s (lines cs)).length := h.last
  obtain ⟨line, earlier, later, hline, hmarks, hearlier⟩ :=
    exists_unmarked (receipts · cs) hlt
  have hslots : (after cs).slots =
      earlier.dropWhile (·.received) ++ ⟨line.stop, some s, false⟩ :: later := by
    rw [slots_eq h.init, marks, hmarks, List.dropWhile_append]
    split
    next hnil => rw [List.isEmpty_iff.1 hnil]; rfl
    next => rfl
  refine ⟨line, earlier.dropWhile (·.received), later, hline, hslots, ?_⟩
  rw [after_concat, call, Ledger.received, hslots, markFirst_append]
  exact fun slot hslot => hearlier slot ((List.dropWhile_sublist _).subset hslot)

/-- **A ledger settles the received part of its lines.** Whatever is done with it, as far as it may be done:
* the receipts of a stream mark the slots of the lines handed to it, one each, in their order;
* the largest offset that has ever been ready is the one behind the longest first part of the lines that has
  been received or passed over;
* who takes what is ready gets a larger offset than anybody before, unless it has been put back since somebody
  last took what was ready;
* and gets the largest of what was ready at an earlier time, of what has been put back since then, and of the
  offsets behind the lines settled since then, if nobody has taken what was ready since then. -/
theorem settles_received_lines (h : Proper cs) :
    (∀ before s, before ++ [.received s] <+: cs →
      ∃ line earlier later, (handed s (lines before))[receipts s before]? = some line ∧
        (after before).slots = earlier ++ ⟨line.stop, some s, false⟩ :: later ∧
        after (before ++ [.received s]) =
          settle { after before with slots := earlier ++ ⟨line.stop, some s, true⟩ :: later }) ∧
    (readies cs).max? = (stops cs).getLast? ∧
    (∀ before v, before <+: cs → (after before).takeReady.1 = some v →
      (∀ w, Taken before w → w < v) ∨
        ∃ early late, before = early ++ .putBack v :: late ∧ .takeReady ∉ late) ∧
    (∀ before recent, before ++ recent <+: cs → .takeReady ∉ recent →
      (after (before ++ recent)).takeReady.1 = (offered before recent).max?) := by
  refine ⟨?_, max?_readies h, ?_, ?_⟩
  · exact fun before s hp => exists_received (h.upTo hp)
  · exact fun before v hp hready => taken_lt_or_putBack (h.upTo hp) hready
  · exact fun before recent hp hno => ready_eq_max? (h.upTo hp) hno

/-- Calls in which the streams are received in another order than the lines, and an offset is put back. -/
def mixedCalls : List Call :=
  [.handedOut .keys 10, .handedOut .power 20, .passedOver 30, .handedOut .keys 40, .received .power,
    .takeReady, .received .keys, .takeReady, .putBack 30, .received .keys, .takeReady]

theorem settles_received_lines_mixed : Proper mixedCalls ∧ (readies mixedCalls).max? = some 40 := by
  have h : Proper mixedCalls := by decide
  exact ⟨h, (settles_received_lines h).2.1.trans (by decide)⟩

end Ledger
end CecRelay
