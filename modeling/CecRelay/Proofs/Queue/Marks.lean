import CecRelay.Queue.Ledger
import Mathlib.Logic.Function.Basic

/-!
# The marks of lines handed out

A receipt says of which stream an item has been received, not which item. A stream keeps its order, so
the lines that have been received are its oldest (`Ledger.marked`). Marking the oldest line that is not
marked is what another receipt asks for (`Ledger.markFirst_marked`), and settling takes the marked lines
off the front (`Ledger.settleSlots_eq`).
-/

namespace CecRelay
namespace Ledger

/-- A line handed out or passed over. -/
structure Line where
  /-- The offset behind the line. -/
  stop : Nat
  /-- The stream it went to; none for a line passed over. -/
  stream : Option Stream
  deriving DecidableEq, Repr

/-- The lines handed to a stream. -/
def handed (s : Stream) (ls : List Line) : List Line := ls.filter (·.stream = some s)

/-- The slots of lines, of which as many have been received of each stream as `owed` says. A line is
marked when fewer lines of its stream stand before it, or when it has been passed over. -/
def marked (owed : Stream → Nat) (ls : List Line) : List Slot :=
  ls.mapIdx fun i line =>
    ⟨line.stop, line.stream, line.stream.all fun s => (handed s (ls.take i)).length < owed s⟩

variable {owed : Stream → Nat} {ls : List Line} {line : Line} {s : Stream}

theorem handed_cons_self (h : line.stream = some s) : handed s (line :: ls) = line :: handed s ls :=
  List.filter_cons_of_pos (by simpa using h)

theorem handed_cons_ne (h : line.stream ≠ some s) : handed s (line :: ls) = handed s ls :=
  List.filter_cons_of_neg (by simpa using h)

/-- A first line that has been passed over is marked. -/
theorem marked_cons_none (stop : Nat) (owed : Stream → Nat) (ls : List Line) :
    marked owed (⟨stop, none⟩ :: ls) = ⟨stop, none, true⟩ :: marked owed ls := by
  rw [marked, List.mapIdx_cons, marked]
  refine congrArg (_ :: ·) (List.mapIdx_eq_mapIdx_iff.2 fun i _ => ?_)
  have hsame : ∀ t, handed t (⟨stop, none⟩ :: ls.take i) = handed t (ls.take i) := fun t =>
    handed_cons_ne nofun
  simp only [List.take_succ_cons, hsame]

/-- A first line of a stream is the one its first receipt is for. -/
theorem marked_cons_some (stop : Nat) (s : Stream) (owed : Stream → Nat) (ls : List Line) :
    marked owed (⟨stop, some s⟩ :: ls) =
      ⟨stop, some s, 0 < owed s⟩ :: marked (Function.update owed s (owed s - 1)) ls := by
  rw [marked, List.mapIdx_cons, marked]
  refine congrArg (_ :: ·) (List.mapIdx_eq_mapIdx_iff.2 fun i _ => ?_)
  have hcount : ∀ t, (handed t (⟨stop, some s⟩ :: ls.take i)).length < owed t ↔
      (handed t (ls.take i)).length < Function.update owed s (owed s - 1) t := by
    intro t
    by_cases hs : s = t
    · subst hs
      rw [handed_cons_self rfl, Function.update_self, List.length_cons]
      omega
    · rw [handed_cons_ne (by simpa using hs), Function.update_of_ne (Ne.symm hs)]
  simp only [List.take_succ_cons, hcount]

/-- A line at the end leaves the marks of the others as they are. -/
theorem marked_concat (owed : Stream → Nat) (ls : List Line) (line : Line) :
    marked owed (ls ++ [line]) =
      marked owed ls ++
        [⟨line.stop, line.stream, line.stream.all fun s => (handed s ls).length < owed s⟩] := by
  have hsame : ∀ i ≤ ls.length, (ls ++ [line]).take i = ls.take i := fun i hi =>
    List.take_append_of_le_length hi
  rw [marked, List.mapIdx_concat, hsame _ (Nat.le_refl _), List.take_length]
  refine congrArg (· ++ _) (List.mapIdx_eq_mapIdx_iff.2 fun i hi => ?_)
  rw [hsame i (Nat.le_of_lt hi)]

theorem map_stop_marked (owed : Stream → Nat) (ls : List Line) :
    (marked owed ls).map Slot.stop = ls.map Line.stop := by
  refine List.ext_getElem (by simp [marked]) fun i _ _ => ?_
  simp [marked]

/-- Marking the oldest unmarked line of a stream is what one more receipt of it asks for. -/
theorem markFirst_marked (s : Stream) (owed : Stream → Nat) (ls : List Line) :
    markFirst s (marked owed ls) = marked (Function.update owed s (owed s + 1)) ls := by
  induction ls generalizing owed with
  | nil => rfl
  | cons line ls ih =>
    obtain ⟨stop, stream⟩ := line
    cases stream with
    | none => rw [marked_cons_none, marked_cons_none, markFirst, if_neg (by simp), ih]
    | some t =>
      rw [marked_cons_some, marked_cons_some, markFirst]
      by_cases hs : t = s
      · subst hs
        rw [Function.update_self, Function.update_idem, Nat.add_sub_cancel]
        by_cases hzero : owed t = 0
        · rw [if_pos ⟨rfl, by simp [hzero]⟩, hzero]
          simp
        · have hone : owed t - 1 + 1 = owed t := by omega
          rw [if_neg (by simp; omega), ih, Function.update_self, Function.update_idem, hone]
          simp
          omega
      · rw [if_neg (by simp [hs]), ih, Function.update_of_ne hs, Function.update_of_ne (Ne.symm hs),
          Function.update_comm hs]

/-- The oldest unmarked slot of a stream is that of its first line behind those received. -/
theorem exists_unmarked (owed : Stream → Nat) (h : owed s < (handed s ls).length) :
    ∃ line earlier later, (handed s ls)[owed s]? = some line ∧
      marked owed ls = earlier ++ ⟨line.stop, some s, false⟩ :: later ∧
      ∀ slot ∈ earlier, slot.stream = some s → slot.received = true := by
  induction ls generalizing owed with
  | nil => cases h
  | cons line ls ih =>
    -- behind a first line that is not the one looked for, the lemma holds of the rest
    have hbehind : ∀ first owed', marked owed (line :: ls) = first :: marked owed' ls →
        (first.stream = some s → first.received = true) → owed' s < (handed s ls).length →
        (handed s ls)[owed' s]? = (handed s (line :: ls))[owed s]? →
        ∃ l earlier later, (handed s (line :: ls))[owed s]? = some l ∧
          marked owed (line :: ls) = earlier ++ ⟨l.stop, some s, false⟩ :: later ∧
          ∀ slot ∈ earlier, slot.stream = some s → slot.received = true := by
      intro first owed' hcons hfirst howed hget
      obtain ⟨l, earlier, later, hl, heq, hearlier⟩ := ih owed' howed
      refine ⟨l, first :: earlier, later, hget ▸ hl, by rw [hcons, heq, List.cons_append], ?_⟩
      exact List.forall_mem_cons.2 ⟨hfirst, hearlier⟩
    obtain ⟨stop, stream⟩ := line
    cases stream with
    | none =>
      have hne : handed s (⟨stop, none⟩ :: ls) = handed s ls := handed_cons_ne nofun
      rw [hne] at h
      exact hbehind _ _ (marked_cons_none stop owed ls) nofun h (by rw [hne])
    | some t =>
      have hcons := marked_cons_some stop t owed ls
      by_cases hs : t = s
      · subst hs
        rw [handed_cons_self rfl, List.length_cons] at h
        cases hn : owed t with
        | zero =>
          rw [handed_cons_self rfl, hcons, hn]
          exact ⟨⟨stop, some t⟩, [], _, rfl, rfl, fun _ hslot => absurd hslot List.not_mem_nil⟩
        | succ n =>
          have hone : Function.update owed t (owed t - 1) t = n := by rw [Function.update_self, hn, Nat.add_sub_cancel]
          rw [← hn]
          refine hbehind _ _ hcons (fun _ => by simp [hn]) (by omega) ?_
          rw [hone, handed_cons_self rfl, hn, List.getElem?_cons_succ]
      · have hne : (⟨stop, some t⟩ : Line).stream ≠ some s := by simpa using hs
        rw [handed_cons_ne hne] at h
        refine hbehind _ _ hcons (fun heq => absurd heq hne) ?_ ?_
        · rwa [Function.update_of_ne (Ne.symm hs)]
        · rw [Function.update_of_ne (Ne.symm hs), handed_cons_ne hne]

/-- A slot behind those marked of its stream is the one that gets the mark. -/
theorem markFirst_append {earlier later : List Slot} {stop : Nat}
    (h : ∀ slot ∈ earlier, slot.stream = some s → slot.received = true) :
    markFirst s (earlier ++ ⟨stop, some s, false⟩ :: later) =
      earlier ++ ⟨stop, some s, true⟩ :: later := by
  induction earlier with
  | nil => rw [List.nil_append, markFirst, if_pos ⟨rfl, rfl⟩, List.nil_append]
  | cons slot earlier ih =>
    have hskip : ¬(slot.stream = some s ∧ slot.received = false) := by
      rintro ⟨hs, hr⟩
      exact Bool.false_ne_true (hr.symm.trans (h slot List.mem_cons_self hs))
    rw [List.cons_append, markFirst, if_neg hskip, ih fun slot hslot => h slot (List.mem_cons_of_mem _ hslot),
      List.cons_append]

/-- Settling takes the marked slots off the front, and the offset behind the last of them is ready. -/
theorem settleSlots_eq (slots : List Slot) (ready : Option Nat) :
    settleSlots slots ready =
      (slots.dropWhile (·.received),
        ((slots.takeWhile (·.received)).getLast?.map Slot.stop).or ready) := by
  induction slots generalizing ready with
  | nil => rfl
  | cons slot slots ih =>
    rw [settleSlots, List.dropWhile_cons, List.takeWhile_cons]
    cases hr : slot.received with
    | false => rfl
    | true =>
      rw [if_pos rfl, ih, if_pos rfl, if_pos rfl, List.getLast?_cons]
      cases (slots.takeWhile (·.received)).getLast? with
      | none => rfl
      | some last => rfl

end Ledger
end CecRelay
