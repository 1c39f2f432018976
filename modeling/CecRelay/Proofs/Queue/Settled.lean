import CecRelay.Proofs.Queue.Closing
import CecRelay.Proofs.Queue.Lives

/-!
# The first lines that have been received

Of the lines that the pump has read since opening, the first that have all been received or cannot be read
(`Service.Through`) are those that are no longer in the ledger (`Service.Sound.through`), as the ledger
settles with every receipt (`Service.Settled`). The cursor on disk is never behind them, unless it is the one that
opening has refused (`Service.Sound.cursor_le`).

What a step of the pump does to the ledger, the journal and the disk is told once for all of them
(`Live.Turn`).
-/

namespace CecRelay

open Lines

namespace Ledger

/-- When the ledger has settled, its oldest line has not been received. -/
theorem head?_settleSlots (slots : List Slot) (ready : Option Nat) :
    ∀ slot ∈ (settleSlots slots ready).1.head?, slot.received = false := by
  induction slots generalizing ready with
  | nil => intro slot h; cases h
  | cons s slots ih =>
    rw [settleSlots]
    split
    · exact ih _
    next hs =>
      intro slot h
      cases h
      exact Bool.eq_false_iff.2 hs

theorem length_slotsOf (owed : Stream → Nat) (start : Nat) (ls : List Bytes) :
    (slotsOf owed start ls).length = ls.length := by
  induction ls generalizing owed start with
  | nil => rfl
  | cons line ls ih =>
    cases h : Envelope.decode? line with
    | none => rw [slotsOf_cons_none h, List.length_cons, ih, List.length_cons]
    | some p => rw [slotsOf_cons_some h, List.length_cons, ih, List.length_cons]

end Ledger

/-! ### Steps of the pump -/

/-- Nothing is taken from the ledger or put into it, and nothing is done to the disk. -/
structure Live.Still (l l' : Live) : Prop where
  /-- The disk. -/
  disk : l'.disk = l.disk
  /-- The ledger. -/
  ledger : l'.queue.ledger = l.queue.ledger
  /-- The length of the log. -/
  len : l'.queue.journal.len = l.queue.journal.len
  /-- The next number. -/
  nextSeq : l'.queue.journal.nextSeq = l.queue.journal.nextSeq
  /-- It is not a commit. -/
  before : ∀ stop, l.queue.phase ≠ .committing stop
  /-- Nor does it lead to one. -/
  after : ∀ stop, l'.queue.phase ≠ .committing stop
  /-- Having found nothing to read the pump waits. -/
  reading : l.queue.phase = .reading ↔ l'.queue.phase = .idle
  /-- It reads when nothing is ready for the cursor. -/
  ready : l'.queue.phase = .reading → l.queue.ledger.ready = none

/-- What a step of the pump does to the ledger, the journal and the disk. -/
inductive Live.Turn (l : Live) : Live → Prop
  /-- It takes what is ready for the cursor. -/
  | takes {stop : Nat} : l.queue.phase = .top → l.queue.ledger.ready = some stop →
    Turn l { l with queue := { l.queue with ledger.ready := none, phase := .committing stop } }
  /-- It moves the cursor. -/
  | commits {stop : Nat} {j : Journal} {d : Disk} {fault : Option Fault} : l.queue.phase = .committing stop →
    l.queue.journal.commit stop l.disk = (j, d, fault) →
    Turn l ⟨{ l.queue with
      journal := j
      ledger := if fault.isSome then l.queue.ledger.putBack stop else l.queue.ledger
      phase := .reading }, d⟩
  /-- It reads a line that carries no event. -/
  | passesOver {line : Bytes} {stop : Nat} : l.queue.phase = .reading →
    l.queue.journal.peek l.disk = some (line, stop) → Envelope.decode? line = none →
    Turn l { l with queue := { l.queue with ledger := l.queue.ledger.passedOver stop, phase := .moving stop } }
  /-- It reads a line that carries an event. -/
  | handsOut {line : Bytes} {stop : Nat} {seq : UInt64} {e : Event} : l.queue.phase = .reading →
    l.queue.journal.peek l.disk = some (line, stop) → Envelope.decode? line = some (seq, e) →
    Turn l { l with
      queue := { l.queue with ledger := l.queue.ledger.handedOut e.stream stop, phase := .handing e stop } }
  /-- Nothing. -/
  | still {l' : Live} : l.Still l' → Turn l l'

theorem Live.turn_of_step? {l l' : Live} (h : l.step? = some l') : l.Turn l' := by
  rw [step?] at h
  cases hphase : l.queue.phase with
  | top =>
    simp only [hphase] at h
    split at h
    · cases h
      exact .still ⟨rfl, rfl, rfl, rfl, by simp [hphase], by simp, by simp [hphase], by simp⟩
    · split at h
      next stop ledger heq =>
        cases h
        simp only [Ledger.takeReady, Prod.mk.injEq] at heq
        obtain ⟨hready, rfl⟩ := heq
        exact .takes hphase hready
      next heq =>
        cases h
        simp only [Ledger.takeReady, Prod.mk.injEq] at heq
        exact .still ⟨rfl, rfl, rfl, rfl, by simp [hphase], by simp, by simp [hphase], fun _ => heq.1⟩
  | committing stop =>
    simp only [hphase] at h
    rcases hcommit : l.queue.journal.commit stop l.disk with ⟨j, d, fault⟩
    rw [hcommit] at h
    cases h
    exact .commits hphase hcommit
  | reading =>
    simp only [hphase] at h
    split at h
    next =>
      cases h
      exact .still ⟨rfl, rfl, rfl, rfl, by simp [hphase], by simp, by simp [hphase], by simp⟩
    next line stop heq =>
      split at h
      next hdecode =>
        cases h
        exact .passesOver hphase heq hdecode
      next seq e hdecode =>
        cases h
        exact .handsOut hphase heq hdecode
  | handing e stop =>
    simp only [hphase] at h
    split at h
    · cases h
      exact .still ⟨rfl, rfl, rfl, rfl, by simp [hphase], by simp, by simp [hphase], by simp⟩
    · split at h
      · cases h
        obtain ⟨⟨keys, power, heq⟩, -, -⟩ := l.queue.push_eq e
        rw [heq]
        exact .still ⟨rfl, rfl, rfl, rfl, by simp [hphase], by simp, by simp [hphase], by simp⟩
      · cases h
  | moving stop =>
    simp only [hphase] at h
    cases h
    exact .still ⟨rfl, rfl, rfl, rfl, by simp [hphase], by simp, by simp [hphase], by simp⟩
  | idle =>
    simp only [hphase] at h
    split at h
    · cases h
      exact .still ⟨rfl, rfl, rfl, rfl, by simp [hphase], by simp, by simp [hphase], by simp⟩
    · split at h
      · cases h
        exact .still ⟨rfl, rfl, rfl, rfl, by simp [hphase], by simp, by simp [hphase], by simp⟩
      · cases h
  | stopped =>
    simp only [hphase] at h
    cases h

namespace Service

/-! ### The ledger settles -/

/-- The oldest line in the ledger has not been received. -/
def Settled (v : Service) : Prop := ∀ slot ∈ v.live.queue.ledger.slots.head?, slot.received = false

variable {o : Origin} {v v' : Service} {w : View}

theorem pumped_settled (h : v.Settled) {l : Live} (hstep : v.live.step? = some l) : (v.pumped l).Settled := by
  rw [Settled, (pumped_same v l).1]
  cases Live.turn_of_step? hstep with
  | takes => exact h
  | commits =>
    split
    · exact h
    · exact h
  | passesOver => exact Ledger.head?_settleSlots _ _
  | handsOut =>
    simp only [Ledger.handedOut, List.head?_append]
    intro slot hslot
    cases hhead : v.live.queue.ledger.slots.head? with
    | none =>
      rw [hhead] at hslot
      cases hslot
      rfl
    | some oldest =>
      rw [hhead] at hslot
      cases hslot
      exact h slot hhead
  | still hs =>
    rw [hs.ledger]
    exact h

theorem Step.settled {a : Happening} (hstep : Step v a v') (h : v.Settled) : v'.Settled := by
  -- most steps leave the lines in the ledger as they are
  have hsame : v'.live.queue.ledger.slots = v.live.queue.ledger.slots → v'.Settled := fun heq => by
    rw [Settled, heq]
    exact h
  cases hstep with
  | @accepted _ now e _ _ happ | @untold _ now e _ happ | @refused _ now e _ happ =>
    obtain ⟨j, heq⟩ := append_queue v.live now e
    rw [happ] at heq
    exact hsame ((congrArg (fun q : Queue => q.ledger.slots) heq).trans rfl)
  | pumped hpump => exact pumped_settled h hpump
  | waited =>
    obtain ⟨phase, heq⟩ := v.live.tick_eq
    rw [heq]
    exact h
  | took ht =>
    obtain ⟨⟨keys, power, rfl⟩, -, -⟩ := Live.take?_eq ht
    exact h
  | received => exact Ledger.head?_settleSlots _ _
  | @closed stop _ =>
    obtain ⟨j, heq, -⟩ := endClose_queue v.live false (some stop)
    exact hsame ((congrArg (fun q : Queue => q.ledger.slots) heq).trans rfl)
  | removed => exact hsame ((congrArg (fun q : Queue => q.ledger.slots) (removeFolder_queue _)).trans rfl)
  | _ => exact h

theorem Reaches.settled {v₀ : Service} (hv : Reaches v₀ v) (h₀ : v₀.Settled) : v.Settled := by
  induction hv with
  | refl => exact h₀
  | step _ hstep ih => exact hstep.settled ih

/-! ### Lines that have been received -/

/-- The line has been received, or it carries nothing. -/
def Done (v : Service) (i : Nat) : Prop :=
  ∀ line seq e, v.lines[i]? = some line → Envelope.decode? line = some (seq, e) → (i, e) ∈ v.got e.stream

/-- The first `n` of the lines that the pump has read are done, and the next one is not. -/
structure Through (v : Service) (n : Nat) : Prop where
  /-- They have been read. -/
  le : n ≤ v.count
  /-- They are done. -/
  done : ∀ i < n, v.Done i
  /-- The next one is not. -/
  next : n < v.count → ¬ v.Done n

theorem Through.unique {m n : Nat} (hm : v.Through m) (hn : v.Through n) : m = n := by
  rcases Nat.lt_trichotomy m n with hlt | heq | hlt
  · exact absurd (hn.done m hlt) (hm.next (Nat.lt_of_lt_of_le hlt hn.le))
  · exact heq
  · exact absurd (hm.done n hlt) (hn.next (Nat.lt_of_lt_of_le hlt hm.le))

/-- How many of the lines that the pump has read are no longer in the ledger. -/
def past (v : Service) : Nat := v.count - v.live.queue.ledger.slots.length

/-- They are as many when the pump leaves the ledger alone. -/
theorem past_pumped {l : Live} (h : v.live.Still l) : (v.pumped l).past = v.past := by
  have hcount : (v.pumped l).count = v.count := by
    unfold Service.pumped
    split
    next hphase => exact if_pos (h.reading.1 hphase)
    next => split <;> rfl
    next => rfl
  rw [past, past, hcount, (pumped_same v l).1, h.ledger]

/-- The lines after those. -/
def rest (v : Service) : List Bytes := v.lines.drop v.past

namespace Standing

theorem length_slots (h : Standing o v w) : v.live.queue.ledger.slots.length = w.opens.length := by
  rw [h.slots, Ledger.length_slotsOf]

theorem past_eq (h : Standing o v w) : v.past = w.past.length := by
  rw [past, h.count, h.length_slots, List.length_append, Nat.add_sub_cancel]

theorem rest_eq (h : Standing o v w) : v.rest = w.opens ++ w.unread := by
  rw [rest, h.past_eq, h.whole, List.drop_left]

/-- What has been received of the lines since opening is in front of the oldest line in the ledger. -/
theorem through (h : Standing o v w) (hsettled : v.Settled) (hin : w.InPhase v v.live.queue.phase)
    (hlanes : Lanes v) : v.Through v.past := by
  have hpast := h.items_past_prefix hin hlanes
  rw [h.past_eq]
  refine ⟨?_, fun i hi line seq e hline hdecode => ?_, fun hlt hdone => ?_⟩
  · rw [h.count, List.length_append]
    exact Nat.le_add_right _ _
  · rw [h.whole, List.getElem?_append_left hi] at hline
    have hmem := mem_items hline hdecode 0
    rw [Nat.zero_add] at hmem
    exact (hpast e.stream).subset hmem
  · rw [h.count, List.length_append] at hlt
    cases hopens : w.opens with
    | nil =>
      rw [hopens] at hlt
      exact Nat.lt_irrefl _ hlt
    | cons line ls =>
      have hslots := h.slots
      have hline : v.lines[w.past.length]? = some line := by
        rw [h.whole, List.getElem?_append_right (Nat.le_refl _), Nat.sub_self, hopens]
        rfl
      rw [hopens] at hslots
      cases hdecode : Envelope.decode? line with
      | none =>
        rw [Ledger.slotsOf_cons_none hdecode] at hslots
        have hreceived := hsettled _ (by rw [hslots]; rfl)
        cases hreceived
      | some p =>
        obtain ⟨seq, e⟩ := p
        rw [Ledger.slotsOf_cons_some hdecode] at hslots
        have hreceived := hsettled _ (by rw [hslots]; rfl)
        -- nothing of its stream has been received beyond what is no longer in the ledger
        have hnone : w.owed e.stream = 0 := by simpa using hreceived
        have hgot : items e.stream 0 w.past = v.got e.stream := by
          refine (hpast e.stream).eq_of_length ?_
          rw [length_items, h.got e.stream, hnone, Nat.add_zero]
        have hmem := hdone line seq e hline hdecode
        rw [← hgot] at hmem
        obtain ⟨k, l, s, hk, hl, -⟩ := of_mem_items hmem
        have := (List.getElem?_eq_some_iff.1 hl).1
        omega

end Standing

theorem Sound.through (hs : Sound o v) (hsettled : v.Settled) (hthere : v.gone = false) : v.Through v.past := by
  cases hs with
  | gone hgone =>
    rw [hthere] at hgone
    cases hgone
  | standing w _ hcore hin hlanes _ => exact hcore.through hsettled hin hlanes

/-- The cursor on disk is not behind the lines that have been received, unless it is the one that opening has
refused. -/
theorem Sound.cursor_le (hs : Sound o v) (hthere : v.gone = false) :
    ∃ f log c, v.live.disk.place.Finds f log c ∧
      (Journal.startOffset log c = c.offset ∧ v.rest ++ v.left <:+ Lines.lines (log.drop c.offset) ∨
        o.refused ∧ f.head = o.head) := by
  cases hs with
  | gone hgone =>
    rw [hthere] at hgone
    cases hgone
  | standing w _ hcore _ _ _ =>
    obtain ⟨c, hc, hcursor⟩ := hcore.cursor
    obtain ⟨f, hf, hhead⟩ := hcore.disk.finds hc
    refine ⟨f, w.log, c, hf, ?_⟩
    rcases hcursor with ⟨i, hi, hmark⟩ | ⟨hrefused, hstill, -⟩
    · obtain ⟨hstart, -, hnext⟩ := hcore.lines_next hi hmark
      refine .inl ⟨hstart, ?_⟩
      rw [hnext, hcore.rest_eq, List.append_assoc (w.front.drop i)]
      exact List.suffix_append _ _
    · exact .inr ⟨hrefused, hhead.trans hstill⟩

end Service

end CecRelay
