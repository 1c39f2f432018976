import CecRelay.Proofs.Queue.Agreement
import Mathlib.Logic.Relation

/-!
# Waking the pump

When the pump has found nothing to read it waits, and somebody wakes it: a producer whose line is in the log,
or a consumer whose receipt may have made an offset ready for the cursor. Both do so a step after there is
something to wake it for, and one wake-up is kept. Here a receipt is taken apart into its two steps
(`Attended.Step`), as storing an event is already (`Shared.Step`).

While the pump waits and no wake-up is kept for it, whatever there is for it to do comes from somebody who is
about to wake it (`Attended.Heeds`): each line that it has not read from a producer, an offset that is ready
from a consumer. When nobody else takes a step the pump goes on until nothing is left, or until it needs
something other than a wake-up (`Attended.Stays`), and each of its steps brings it nearer to that
(`Service.toDo`).

There is one exception. Behind a line that is stored under the greatest number the program breaks off, and its
producer wakes nobody (`Stored.stage`). When the pump waits and has only such lines to read, it waits as long as it
waits (`Attended.Missed`).

## Scope

Appending may fail, but whenever the pump is to move the cursor on disk it can. Whoever is about to wake the pump
may stay there for good, as any visitor may stay where it is; then the pump goes on when somebody else wakes it or
when it has waited as long as it waits.
-/

namespace CecRelay

open Lines

/-! ### A receipt in two steps -/

/-- The offset that a receipt makes ready for the cursor. -/
def Ledger.made (l : Ledger) (s : Stream) : Option Nat :=
  if (l.received s).ready = l.ready then none else (l.received s).ready

/-- What is ready after a receipt was ready before, or the receipt has made it ready. -/
theorem Ledger.ready_received {l : Ledger} {s : Stream} {stop : Nat} (h : (l.received s).ready = some stop) :
    l.ready = some stop ∨ l.made s = some stop := by
  unfold made
  split
  next hsame => exact .inl (hsame.symm.trans h)
  next => exact .inr h

namespace Service

/-- A wake-up is kept for the pump, or none is. -/
def woken (v : Service) (wake : Bool) : Service := { v with live.queue.wake := wake }

/-- A consumer has marked the oldest event that it holds as received, and is to wake the pump. -/
def marked (v : Service) (s : Stream) (i : Nat) (e : Event) (rest : List (Nat × Event)) : Service :=
  { v with
    live.queue.ledger := v.live.queue.ledger.received s
    held := Function.update v.held s rest
    got := Function.update v.got s (v.got s ++ [(i, e)]) }

variable {o : Origin} {v : Service} {w : View}

/-- Marked and with the pump woken, an event has been received. -/
theorem marked_woken (v : Service) (s : Stream) (i : Nat) (e : Event) (rest : List (Nat × Event)) :
    (v.marked s i e rest).woken true =
      { v with
        live := v.live.acknowledge s
        held := Function.update v.held s rest
        got := Function.update v.got s (v.got s ++ [(i, e)]) } := rfl

theorem Sound.woken (h : Sound o v) (wake : Bool) : Sound o (v.woken wake) := by
  cases h with
  | gone hgone hquiet hput hlanes => exact .gone hgone hquiet hput { hlanes with }
  | standing w hthere hcore hin hlanes hclosers =>
    exact .standing w hthere { hcore with } (hin.same rfl rfl rfl _ _ _) { hlanes with }
      (hclosers.congr rfl id rfl List.prefix_rfl (.inl rfl))

/-- The lines not yet read are the last of those since opening. -/
theorem Standing.drop_count (h : Standing o v w) : v.lines.drop v.count = w.unread := by
  rw [h.whole, h.count, ← List.append_assoc, List.drop_left]

theorem Standing.count_le (h : Standing o v w) : v.count ≤ v.lines.length := by
  rw [h.whole, h.count, ← List.append_assoc]
  exact (List.prefix_append _ _).length_le

/-- When the pump reads, it finds the first of the lines not yet read. -/
theorem Standing.peek_fst (h : Standing o v w) (hline : w.line = (w.front ++ w.opens).length) :
    (v.live.queue.journal.peek v.live.disk).map Prod.fst = (v.lines.drop v.count).head? := by
  have hfst : (Prod.fst ∘ fun line : Bytes => (line, mark w.lines (w.line + 1))) = id := rfl
  rw [h.journal.peek_append h.unbroken h.disk.log_eq, Option.map_map, hfst, Option.map_id_fun, id, h.drop_count,
    View.lines, ← List.append_assoc, hline, List.getElem?_append_right (Nat.le_refl _), Nat.sub_self,
    List.head?_eq_getElem?]

end Service

/-! ### The steps -/

/-- The cursor can be written if the pump is to move it. -/
def Live.CanCommit (l : Live) : Prop :=
  ∀ stop, l.queue.phase = .committing stop → (l.queue.journal.commit stop l.disk).2.2 = none

/-- How far a consumer has come with a receipt. -/
inductive Receiving
  /-- It has no receipt to make. -/
  | rests
  /-- It has marked an event as received, which may have made an offset ready, and is to wake the pump. -/
  | marked (made : Option Nat)

/-- A queue with its visitors and its consumers. -/
structure Attended where
  /-- The queue and its visitors. -/
  shared : Shared
  /-- The consumers. -/
  receivers : Stream → Receiving := fun _ => .rests

namespace Attended

/-- The queue and what has happened to it. -/
abbrev service (x : Attended) : Service := x.shared.service

/-- The queue and its disk. -/
abbrev live (x : Attended) : Live := x.shared.live

/-- Something has been done to the queue, and nobody has come further. -/
def worked (x : Attended) (v : Service) : Attended := { x with shared := { x.shared with service := v } }

/-- A consumer has come further with a receipt. -/
def turned (x : Attended) (s : Stream) (r : Receiving) : Attended :=
  { x with receivers := Function.update x.receivers s r }

/-- A step of the pump. -/
inductive Pumped (x : Attended) : Attended → Prop
  /-- It uses the journal only while nobody has it, and can write the cursor. -/
  | step {l : Live} : (x.live.queue.phase.UsesJournal → x.shared.Free) → x.live.CanCommit →
    x.live.step? = some l → Pumped x (x.worked (x.service.pumped l))

/-- The steps of the pump, the visitors and the consumers. -/
inductive Step (x : Attended) : Attended → Prop
  /-- A visitor comes. -/
  | comes {i : Nat} {c : Visitor} : x.shared.visitors i = none → c.Fresh →
    Step x { x with shared := x.shared.come i c }
  /-- A visitor takes a step. -/
  | acts {i : Nat} {c c' : Visitor} {l : Live} {new : List Stored} : x.shared.visitors i = some c →
    c.Step i x.shared.Free x.live l c' new → Step x { x with shared := x.shared.acted i c' l new }
  /-- The pump takes a step. -/
  | pumps {x' : Attended} : x.Pumped x' → Step x x'
  /-- The pump has waited as long as it waits. -/
  | waited : Step x (x.worked { x.service with live := x.live.tick })
  /-- A consumer takes an event out of its lane. -/
  | took {l : Live} {s : Stream} {e : Event} : x.live.take? s = some (e, l) →
    Step x (x.worked
      { x.service with
        live := l
        held := Function.update x.service.held s (x.service.held s ++ [(x.service.position s, e)]) })
  /-- The consumer marks it as received. -/
  | marks {s : Stream} {i : Nat} {e : Event} {rest : List (Nat × Event)} : x.receivers s = .rests →
    x.service.held s = (i, e) :: rest →
    Step x ((x.worked (x.service.marked s i e rest)).turned s (.marked (x.live.queue.ledger.made s)))
  /-- It wakes the pump. -/
  | wakes {s : Stream} {made : Option Nat} : x.receivers s = .marked made →
    Step x ((x.worked (x.service.woken true)).turned s .rests)
  /-- The consumers give up their ends of the lanes. -/
  | deafened : Step x (x.worked { x.service with live := x.live.deafen })

/-- Any number of steps. -/
abbrev Reaches : Attended → Attended → Prop := Relation.ReflTransGen Step

/-- A queue that nobody has come to. -/
def start (l : Live) : Attended := { shared := .start l }

end Attended

/-! ### What each step leaves as it is -/

/-- The pump has looked what is ready for the cursor, and has read no line since. -/
def Phase.HasLooked : Phase → Prop
  | .committing _ | .reading | .idle => True
  | _ => False

namespace Shared

variable {o : Service.Origin} {ls : List Bytes} {first : UInt64} {g : Shared}

theorem Holds.woken (h : Holds o ls first g) (wake : Bool) :
    Holds o ls first { g with service := g.service.woken wake } := by
  refine { h with fits := fun i c hi => ?_, sound := ?_, parted := { h.parted with } }
  · exact (h.fits i c hi).stays ⟨id, id, id⟩
  · exact h.sound.imp id fun ⟨hthere, hnobody, hsound⟩ => ⟨hthere, hnobody, hsound.woken wake⟩

theorem Holds.marked (h : Holds o ls first g) {s : Stream} {i : Nat} {e : Event} {rest : List (Nat × Event)}
    (hheld : g.service.held s = (i, e) :: rest) :
    Holds o ls first { g with service := g.service.marked s i e rest } := by
  have hreceived := h.works (.received hheld)
  rw [← Service.marked_woken] at hreceived
  exact hreceived.woken g.live.queue.wake

/-- Until the pump has stopped the folder is there. -/
theorem Holds.exists_standing (h : Holds o ls first g) (hrun : g.live.queue.phase ≠ .stopped) :
    ∃ w, Service.Standing o g.service w ∧ w.InPhase g.service g.live.queue.phase := by
  rcases h.sound with hended | ⟨hthere, -, hsound⟩
  · exact absurd (h.quiet hended).2 hrun
  · cases hsound with
    | gone hgone =>
      rw [hthere] at hgone
      cases hgone
    | standing w _ hcore hin _ _ => exact ⟨w, hcore, hin⟩

/-- What the pump would read next is the first of the lines not yet read. -/
theorem Holds.peek_fst (h : Holds o ls first g) (hlooked : g.live.queue.phase.HasLooked) :
    (g.live.queue.journal.peek g.live.disk).map Prod.fst = (g.service.lines.drop g.service.count).head? := by
  have hrun : g.live.queue.phase ≠ .stopped := by
    intro hstopped
    rw [hstopped] at hlooked
    exact hlooked
  obtain ⟨w, hcore, hin⟩ := h.exists_standing hrun
  cases hphase : g.live.queue.phase with
  | committing stop =>
    rw [hphase] at hin
    exact hcore.peek_fst hin.2.1
  | reading | idle =>
    rw [hphase] at hin
    exact hcore.peek_fst hin.2
  | _ =>
    rw [hphase] at hlooked
    exact hlooked.elim

end Shared

/-- Where its producer is when the event has been stored: it is to wake the pump, unless it has been told that there is
no number. -/
def Stored.stage (y : Stored) : Storing := if y.seq = Journal.greatest then .answered none else .stored y.seq

namespace Visitor.Step

variable {i : Nat} {free : Prop} {l l' : Live} {c c' : Visitor} {new : List Stored}

/-- A visitor leaves the pump where it is, and takes no wake-up away. -/
theorem pump (h : c.Step i free l l' c' new) : l'.queue.phase = l.queue.phase ∧
    (l'.queue.wake = false → l.queue.wake = false) := by
  cases h with
  | wakes => exact ⟨rfl, fun hwake => (by cases hwake)⟩
  | @ends delete ready =>
    obtain ⟨j, hqueue, -⟩ := Service.endClose_queue l delete ready
    rw [hqueue]
    exact ⟨rfl, id⟩
  | _ => exact ⟨rfl, id⟩

/-- Nothing becomes ready for the cursor by a visitor. -/
theorem ready (h : c.Step i free l l' c' new) {stop : Nat} (hready : l'.queue.ledger.ready = some stop) :
    l.queue.ledger.ready = some stop := by
  cases h with
  | takes => cases hready
  | @ends delete ready =>
    obtain ⟨j, hqueue, -⟩ := Service.endClose_queue l delete ready
    rw [hqueue] at hready
    exact hready
  | _ => exact hready

/-- A producer who has stored its event and goes on wakes the pump. -/
theorem wake_of_stage (h : c.Step i free l l' c' new) {y : Stored} (hc : c = .producer y.event y.stage) :
    l'.queue.wake = true := by
  unfold Stored.stage at hc
  cases h with
  | wakes => rfl
  | _ =>
    split at hc
    · cases hc
    · cases hc

/-- Whoever has just stored an event is to wake the pump, unless it got the greatest number. -/
theorem stage_of_new (h : c.Step i free l l' c' new) : ∀ y ∈ new, y.visitor = i ∧
    c' = .producer y.event y.stage := by
  cases h with
  | appends _ happ =>
    intro y hy
    cases List.mem_singleton.1 hy
    obtain ⟨rfl, hnext⟩ := Journal.append_ok happ
    have hne : l.queue.journal.nextSeq ≠ Journal.greatest := fun heq => by
      rw [Journal.succ?_eq_none_iff.2 heq] at hnext
      cases hnext
    exact ⟨rfl, by rw [Stored.stage, if_neg hne]⟩
  | breaks _ happ =>
    intro y hy
    cases List.mem_singleton.1 hy
    exact ⟨rfl, by rw [Stored.stage, if_pos (Journal.append_broken happ).1]⟩
  | _ => exact fun y hy => (by cases hy)

end Visitor.Step

namespace Live

variable {l l' : Live}

/-- When the pump reads it finds nothing and waits, or it finds a line. -/
theorem step?_reading (h : l.step? = some l') (hreading : l.queue.phase = .reading) :
    l.queue.journal.peek l.disk = none ∧ l' = { l with queue := { l.queue with phase := .idle } } ∨
    ∃ x ledger phase, l.queue.journal.peek l.disk = some x ∧
      l' = { l with queue := { l.queue with ledger := ledger, phase := phase } } ∧
      ((∃ e stop, phase = .handing e stop) ∨ ∃ stop, phase = .moving stop) := by
  rw [step?, hreading] at h
  simp only at h
  split at h
  next hpeek =>
    cases h
    exact .inl ⟨hpeek, rfl⟩
  next line stop hpeek =>
    split at h
    · cases h
      exact .inr ⟨_, _, _, hpeek, rfl, .inr ⟨stop, rfl⟩⟩
    next seq e _ =>
      cases h
      exact .inr ⟨_, _, _, hpeek, rfl, .inl ⟨e, stop, rfl⟩⟩

/-- The pump waits when it has read and found nothing. -/
theorem step?_idle (h : l.step? = some l') (hidle : l'.queue.phase = .idle) :
    l.queue.phase = .reading ∧ l.queue.journal.peek l.disk = none ∧
      l' = { l with queue := { l.queue with phase := .idle } } := by
  have hreading : l.queue.phase = .reading := by
    cases turn_of_step? h with
    | still hs => exact hs.reading.2 hidle
    | _ => cases hidle
  rcases step?_reading h hreading with ⟨hpeek, hl⟩ | ⟨_, _, _, -, rfl, ⟨_, _, rfl⟩ | ⟨_, rfl⟩⟩
  · exact ⟨hreading, hpeek, hl⟩
  · cases hidle
  · cases hidle

/-- When the pump waits it goes on if it is to stop or if a wake-up is kept. -/
theorem step?_eq_none_of_idle (hidle : l.queue.phase = .idle) :
    l.step? = none ↔ l.queue.cancelled = false ∧ l.queue.wake = false := by
  rw [step?, hidle]
  cases hcancelled : l.queue.cancelled with
  | true => simp
  | false =>
    cases hwake : l.queue.wake with
    | true => simp
    | false => simp

/-- The pump has to wait when it waits and no wake-up is kept, when a lane is full, and when it has stopped. -/
theorem step?_none (h : l.step? = none) : l.queue.phase = .idle ∧ l.queue.wake = false ∨
    (∃ e stop, l.queue.phase = .handing e stop ∧ l.queue.hasRoom e = false) ∨ l.queue.phase = .stopped := by
  cases hphase : l.queue.phase with
  | top =>
    simp only [step?, hphase] at h
    split at h
    · cases h
    · split at h
      · cases h
      · cases h
  | reading =>
    simp only [step?, hphase] at h
    split at h
    · cases h
    · split at h
      · cases h
      · cases h
  | handing e stop =>
    simp only [step?, hphase] at h
    split at h
    · cases h
    · split at h
      · cases h
      next hroom => exact .inr (.inl ⟨e, stop, rfl, Bool.eq_false_iff.2 hroom⟩)
  | idle => exact .inl ⟨rfl, ((step?_eq_none_of_idle hphase).1 h).2⟩
  | stopped => exact .inr (.inr rfl)
  | _ =>
    simp only [step?, hphase] at h
    cases h

end Live

/-! ### What the pump may wait for -/

/-- What is ready when the pump has looked has become ready since. -/
theorem Live.ready_of_step? {l l' : Live} (h : l.step? = some l') (hcan : l.CanCommit)
    (hlooked : l'.queue.phase.HasLooked) {stop : Nat} (hready : l'.queue.ledger.ready = some stop) :
    l.queue.phase.HasLooked ∧ l'.queue.wake = l.queue.wake ∧ l.queue.ledger.ready = some stop := by
  cases turn_of_step? h with
  | takes => cases hready
  | @commits stop' j d fault hphase hcommit =>
    have hnone := hcan stop' hphase
    rw [hcommit] at hnone
    obtain rfl : fault = none := hnone
    rw [hphase]
    exact ⟨trivial, rfl, hready⟩
  | passesOver | handsOut => exact hlooked.elim
  | still hs =>
    cases hphase : l'.queue.phase with
    | committing stop' => exact absurd hphase (hs.after stop')
    | reading =>
      rw [hs.ledger, hs.ready hphase] at hready
      cases hready
    | idle =>
      obtain ⟨hreading, -, rfl⟩ := step?_idle h hphase
      rw [hreading]
      exact ⟨trivial, rfl, hready⟩
    | _ =>
      rw [hphase] at hlooked
      exact hlooked.elim

/-- Each line not yet read is that of an event whose producer is to wake the pump, unless it was stored under the
greatest number. -/
def Shared.UnreadToCome (g : Shared) : Prop :=
  ∃ pending, pending <:+ g.stored ∧ g.service.lines.drop g.service.count = pending.map Stored.line ∧
    ∀ y ∈ pending, g.visitors y.visitor = some (.producer y.event y.stage)

namespace Attended

variable {o : Service.Origin} {ls : List Bytes} {first : UInt64} {x x' : Attended}

/-- As long as no wake-up is kept, whatever there is for the pump to do comes from somebody who is about to
wake it. -/
structure Heeds (x : Attended) : Prop where
  /-- The lines, while it waits. -/
  unread : x.live.queue.phase = .idle → x.live.queue.wake = false → x.shared.UnreadToCome
  /-- What is ready for the cursor, unless it will look before it waits. -/
  ready : x.live.queue.phase.HasLooked → x.live.queue.wake = false →
    ∀ stop, x.live.queue.ledger.ready = some stop → ∃ s, x.receivers s = .marked (some stop)

namespace Heeds

/-- Lines, wake-ups and what is ready are as they were, and the pump is where it was or looks next. -/
theorem same (h : x.Heeds) {v : Service} (hlines : v.lines = x.service.lines) (hcount : v.count = x.service.count)
    (hwake : v.live.queue.wake = x.live.queue.wake) (hledger : v.live.queue.ledger = x.live.queue.ledger)
    (hphase : v.live.queue.phase = x.live.queue.phase ∨ v.live.queue.phase = .top) :
    (x.worked v).Heeds := by
  rcases hphase with hsame | htop
  · refine ⟨fun hidle hnone => ?_, fun hlooked hnone stop hready => ?_⟩
    · obtain ⟨pending, hsuffix, hunread, hstored⟩ := h.unread (hsame.symm.trans hidle) (hwake.symm.trans hnone)
      exact ⟨pending, hsuffix, (congrArg₂ List.drop hcount hlines).trans hunread, hstored⟩
    · exact h.ready (hsame ▸ hlooked) (hwake.symm.trans hnone) stop (hledger ▸ hready)
  · refine ⟨fun hidle => ?_, fun hlooked => ?_⟩
    · cases htop.symm.trans hidle
    · change v.live.queue.phase.HasLooked at hlooked
      rw [htop] at hlooked
      exact hlooked.elim

theorem comes (h : x.Heeds) {i : Nat} {c : Visitor} (hnone : x.shared.visitors i = none) :
    Heeds { x with shared := x.shared.come i c } := by
  refine { h with unread := fun hidle hwake => ?_ }
  obtain ⟨pending, hsuffix, hunread, hstored⟩ := h.unread hidle hwake
  refine ⟨pending, hsuffix, hunread, fun y hy => ?_⟩
  have hy' := hstored y hy
  have hne : y.visitor ≠ i := by
    rintro rfl
    rw [hnone] at hy'
    cases hy'
  rw [Shared.come_of_ne _ _ hne, hy']

theorem acts (h : x.Heeds) (hh : Shared.Holds o ls first x.shared) {i : Nat} {c c' : Visitor} {l : Live}
    {new : List Stored} (hi : x.shared.visitors i = some c) (hstep : c.Step i x.shared.Free x.live l c' new) :
    Heeds { x with shared := x.shared.acted i c' l new } := by
  obtain ⟨hphase, hwake⟩ := hstep.pump
  refine ⟨fun hidle hnone => ?_, fun hlooked hnone stop hready => ?_⟩
  · have hidle' : x.live.queue.phase = .idle := hphase.symm.trans hidle
    obtain ⟨pending, hsuffix, hunread, hstored⟩ := h.unread hidle' (hwake hnone)
    obtain ⟨w, hcore, -⟩ := hh.exists_standing fun hstopped => (by cases hidle'.symm.trans hstopped)
    refine ⟨pending ++ new, List.suffix_append_self_iff.2 hsuffix, ?_, fun y hy => ?_⟩
    · show List.drop x.service.count (x.service.lines ++ new.map Stored.line) = _
      rw [List.drop_append_of_le_length hcore.count_le, hunread, List.map_append]
    · rcases List.mem_append.1 hy with hold | hnew
      · have hy' := hstored y hold
        have hne : y.visitor ≠ i := by
          -- it would have woken the pump
          rintro rfl
          rw [hi] at hy'
          have htrue := hstep.wake_of_stage (Option.some.inj hy')
          cases htrue.symm.trans hnone
        rw [Shared.acted_of_ne _ _ _ _ hne, hy']
      · obtain ⟨rfl, rfl⟩ := hstep.stage_of_new y hnew
        exact Shared.acted_self _ _ _ _
  · exact h.ready (hphase ▸ hlooked) (hwake hnone) stop (hstep.ready hready)

theorem pumped (h : x.Heeds) (hh : Shared.Holds o ls first x.shared) (hpumped : x.Pumped x') : x'.Heeds := by
  obtain @⟨l, -, hcan, hstep⟩ := hpumped
  obtain ⟨hsame, -, -, -, hlines⟩ := Service.pumped_same x.service l
  have hlive : (x.worked (x.service.pumped l)).live = l := hsame
  constructor
  · intro hidle _
    rw [hlive] at hidle
    obtain ⟨hreading, hpeek, -⟩ := Live.step?_idle hstep hidle
    -- there is nothing that the pump has not read
    have hhead := hh.peek_fst (by rw [hreading]; trivial)
    rw [hpeek] at hhead
    have hcount : (x.service.pumped l).count = x.service.count := by
      rw [Service.pumped, hreading]
      exact if_pos hidle
    refine ⟨[], List.nil_suffix, ?_, fun y hy => (by cases hy)⟩
    show List.drop (x.service.pumped l).count (x.service.pumped l).lines = []
    rw [hlines, hcount, List.head?_eq_none_iff.1 hhead.symm]
  · intro hlooked hnone stop hready
    rw [hlive] at hlooked hnone hready
    obtain ⟨hlooked', hwake, hready'⟩ := Live.ready_of_step? hstep hcan hlooked hready
    exact h.ready hlooked' (hwake.symm.trans hnone) stop hready'

theorem marks (h : x.Heeds) {s : Stream} {i : Nat} {e : Event} {rest : List (Nat × Event)}
    (hrests : x.receivers s = .rests) :
    ((x.worked (x.service.marked s i e rest)).turned s (.marked (x.live.queue.ledger.made s))).Heeds := by
  refine ⟨h.unread, fun hlooked hwake stop hready => ?_⟩
  rcases Ledger.ready_received hready with hold | hmade
  · obtain ⟨t, ht⟩ := h.ready hlooked hwake stop hold
    have hts : t ≠ s := by
      rintro rfl
      cases hrests.symm.trans ht
    exact ⟨t, (Function.update_of_ne hts _ _).trans ht⟩
  · exact ⟨s, (Function.update_self _ _ _).trans (congrArg Receiving.marked hmade)⟩

theorem step (h : x.Heeds) (hh : Shared.Holds o ls first x.shared) (hstep : Step x x') : x'.Heeds := by
  cases hstep with
  | comes hnone => exact h.comes hnone
  | acts hi hc => exact h.acts hh hi hc
  | pumps hpumped => exact h.pumped hh hpumped
  | waited =>
    have htick : x.live.tick = x.live ∨
        x.live.tick = { x.live with queue := { x.live.queue with phase := .top } } := by
      unfold Live.tick
      split
      · exact .inr rfl
      · exact .inl rfl
    rcases htick with heq | heq
    · rw [heq]
      exact h.same rfl rfl rfl rfl (.inl rfl)
    · rw [heq]
      exact h.same rfl rfl rfl rfl (.inr rfl)
  | took ht =>
    obtain ⟨⟨keys, power, rfl⟩, -, -⟩ := Live.take?_eq ht
    exact h.same rfl rfl rfl rfl (.inl rfl)
  | marks hrests => exact h.marks hrests
  | wakes => exact ⟨fun _ hwake => (by cases hwake), fun _ hwake => (by cases hwake)⟩
  | deafened => exact h.same rfl rfl rfl rfl (.inl rfl)

end Heeds

theorem Step.holds (hstep : Step x x') (h : Shared.Holds o ls first x.shared) :
    Shared.Holds o ls first x'.shared := by
  cases hstep with
  | comes hnone hfresh => exact h.comes hnone hfresh
  | acts hi hc => exact h.acts hi hc
  | pumps hpumped =>
    obtain ⟨huses, -, hpump⟩ := hpumped
    exact h.works (.pumped huses hpump)
  | waited => exact h.works .waited
  | took ht => exact h.works (.took ht)
  | marks _ hheld => exact h.marked hheld
  | wakes => exact h.woken true
  | deafened => exact h.works .deafened

end Attended

/-! ### How far the pump has to go -/

/-- How many steps it is at most until the pump waits, when it reads nothing and nobody wakes it. -/
def Phase.ahead : Phase → Nat
  | .stopped => 0
  | .idle => 1
  | .reading => 2
  | .committing _ => 3
  | .top => 4
  | .moving _ => 5
  | .handing _ _ => 6

/-- The same, with the wake-up that is kept. -/
def Live.ahead (l : Live) : Nat := l.queue.phase.ahead + if l.queue.wake then 6 else 0

/-- But for reading, a step of the pump brings it nearer to where it waits. -/
theorem Live.ahead_step? {l l' : Live} (h : l.step? = some l') (hreading : l.queue.phase ≠ .reading) :
    l'.ahead < l.ahead := by
  rw [step?] at h
  cases hphase : l.queue.phase with
  | top =>
    simp only [hphase] at h
    split at h
    · cases h
      simp [ahead, Phase.ahead, hphase]
    · split at h
      · cases h
        simp [ahead, Phase.ahead, hphase]
      · cases h
        simp [ahead, Phase.ahead, hphase]
  | reading => exact absurd hphase hreading
  | handing e stop =>
    simp only [hphase] at h
    split at h
    · cases h
      simp [ahead, Phase.ahead, hphase]
    · split at h
      · cases h
        obtain ⟨⟨keys, power, heq⟩, -, -⟩ := l.queue.push_eq e
        simp [ahead, Phase.ahead, hphase, heq]
      · cases h
  | idle =>
    simp only [hphase] at h
    split at h
    · cases h
      simp [ahead, Phase.ahead, hphase]
    · split at h
      next hwake =>
        cases h
        simp [ahead, Phase.ahead, hphase, hwake]
      · cases h
  | stopped =>
    simp only [hphase] at h
    cases h
  | _ =>
    simp only [hphase] at h
    cases h
    simp [ahead, Phase.ahead, hphase]

namespace Service

/-- More than the pump can still do, when nothing comes to what there is. -/
def toDo (v : Service) : Nat := 8 * (v.lines.length - v.count) + v.live.ahead

/-- Each step of the pump brings it nearer to where it waits. -/
theorem toDo_pumped {v : Service} {l : Live} (hstep : v.live.step? = some l)
    (hpeek : v.live.queue.phase = .reading →
      (v.live.queue.journal.peek v.live.disk).map Prod.fst = (v.lines.drop v.count).head?) :
    (v.pumped l).toDo < v.toDo := by
  obtain ⟨hlive, -, -, -, hlines⟩ := pumped_same v l
  rw [toDo, toDo, hlive, hlines]
  by_cases hreading : v.live.queue.phase = .reading
  · have hcount : (v.pumped l).count = if l.queue.phase = .idle then v.count else v.count + 1 := by
      rw [pumped, hreading]
    rw [hcount]
    rcases Live.step?_reading hstep hreading with ⟨-, rfl⟩ | ⟨x, ledger, phase, hx, rfl, hphase⟩
    · simp [Live.ahead, hreading, Phase.ahead]
    · have hlt : v.count < v.lines.length := by
        have hhead := hpeek hreading
        rw [hx] at hhead
        by_contra hge
        rw [List.drop_eq_nil_of_le (Nat.le_of_not_lt hge)] at hhead
        cases hhead
      rcases hphase with ⟨e, stop, rfl⟩ | ⟨stop, rfl⟩
      · simp only [Live.ahead, hreading, Phase.ahead, reduceCtorEq, if_false]
        omega
      · simp only [Live.ahead, hreading, Phase.ahead, reduceCtorEq, if_false]
        omega
  · have hcount : (v.pumped l).count = v.count := by
      unfold pumped
      split
      next hphase => exact absurd hphase hreading
      · split
        · rfl
        · rfl
      · rfl
    rw [hcount]
    exact Nat.add_lt_add_left (Live.ahead_step? hstep hreading) _

end Service

namespace Attended

variable {o : Service.Origin} {ls : List Bytes} {first : UInt64} {x x' : Attended}

/-- Nobody but the pump has anything to do: no producer is to wake it or has the journal, and no consumer is to
wake it. -/
structure AtRest (x : Attended) : Prop where
  /-- The journal. -/
  free : x.shared.Free
  /-- The producers. -/
  stored : ∀ i e seq, x.shared.visitors i ≠ some (.producer e (.stored seq))
  /-- The consumers. -/
  receivers : ∀ s, x.receivers s = .rests

/-- The pump does not go on, and not because it has missed a wake-up. -/
inductive Stays (x : Attended) : Prop
  /-- It waits, and there is nothing to read and nothing ready for the cursor. -/
  | done : x.live.queue.phase = .idle → x.live.queue.journal.peek x.live.disk = none →
    x.service.lines.drop x.service.count = [] → x.live.queue.ledger.ready = none → Stays x
  /-- It has an event for a lane that is full. -/
  | full {e : Event} {stop : Nat} : x.live.queue.phase = .handing e stop → x.live.queue.hasRoom e = false → Stays x
  /-- It has stopped. -/
  | stopped : x.live.queue.phase = .stopped → Stays x
  /-- It is to move the cursor, which cannot be written. -/
  | unwritable : ¬ x.live.CanCommit → Stays x

/-- The pump has missed a wake-up: it does not go on though there are lines to read. All of them have been stored under
the greatest number. -/
structure Missed (x : Attended) : Prop where
  /-- It waits. -/
  idle : x.live.queue.phase = .idle
  /-- It does not go on. -/
  waits : x.live.step? = none
  /-- The lines. -/
  unread : ∃ pending, pending ≠ [] ∧ pending <:+ x.shared.stored ∧
    x.service.lines.drop x.service.count = pending.map Stored.line ∧ ∀ y ∈ pending, y.seq = Journal.greatest
  /-- Nothing is ready for the cursor. -/
  ready : x.live.queue.ledger.ready = none

/-- While everybody rests nobody is to wake the pump. -/
theorem AtRest.greatest (h : x.AtRest) {y : Stored}
    (hy : x.shared.visitors y.visitor = some (.producer y.event y.stage)) : y.seq = Journal.greatest := by
  by_contra hne
  rw [Stored.stage, if_neg hne] at hy
  exact h.stored _ _ _ hy

/-- Whoever finds the pump waiting when everybody rests, and no wake-up kept, finds nothing to be done, or else lines
that have been stored under the greatest number. -/
theorem Heeds.done_or_missed (h : x.Heeds) (hrest : x.AtRest) (hidle : x.live.queue.phase = .idle)
    (hstep : x.live.step? = none) (hwake : x.live.queue.wake = false) :
    x.service.lines.drop x.service.count = [] ∧ x.live.queue.ledger.ready = none ∨ x.Missed := by
  have hready : x.live.queue.ledger.ready = none := by
    cases hready : x.live.queue.ledger.ready with
    | none => rfl
    | some stop =>
      have hlooked : x.live.queue.phase.HasLooked := by
        rw [hidle]
        trivial
      obtain ⟨s, hs⟩ := h.ready hlooked hwake stop hready
      cases (hrest.receivers s).symm.trans hs
  obtain ⟨pending, hsuffix, hunread, hstored⟩ := h.unread hidle hwake
  by_cases hnil : pending = []
  · rw [hnil] at hunread
    exact .inl ⟨hunread, hready⟩
  · exact .inr ⟨hidle, hstep, ⟨pending, hnil, hsuffix, hunread, fun y hy => hrest.greatest (hstored y hy)⟩, hready⟩

/-- When everybody else rests the pump goes on until nothing is left to be done, or until it needs something
other than a wake-up, or until it has only lines to read that have been stored under the greatest number. -/
theorem exists_stays (hh : Shared.Holds o ls first x.shared) (h : x.Heeds) (hrest : x.AtRest) :
    ∃ x', Relation.ReflTransGen Pumped x x' ∧ (x'.Stays ∨ x'.Missed) := by
  induction hn : x.service.toDo using Nat.strong_induction_on generalizing x with
  | _ n ih =>
    by_cases hcan : x.live.CanCommit
    · cases hstep : x.live.step? with
      | none =>
        refine ⟨x, .refl, ?_⟩
        rcases Live.step?_none hstep with ⟨hidle, hwake⟩ | ⟨e, stop, hphase, hroom⟩ | hstopped
        · rcases h.done_or_missed hrest hidle hstep hwake with ⟨hunread, hready⟩ | hmissed
          · have hpeek := hh.peek_fst (by rw [hidle]; trivial)
            rw [hunread] at hpeek
            exact .inl (.done hidle (Option.map_eq_none_iff.1 hpeek) hunread hready)
          · exact .inr hmissed
        · exact .inl (.full hphase hroom)
        · exact .inl (.stopped hstopped)
      | some l =>
        have hpumped : x.Pumped (x.worked (x.service.pumped l)) := .step (fun _ => hrest.free) hcan hstep
        have hlt : (x.worked (x.service.pumped l)).service.toDo < n :=
          hn ▸ Service.toDo_pumped hstep fun hreading => hh.peek_fst (by rw [hreading]; trivial)
        obtain ⟨x', hrun, hstays⟩ := ih _ hlt (Step.holds (.pumps hpumped) hh) (h.pumped hh hpumped)
          ⟨hrest.free, hrest.stored, hrest.receivers⟩ rfl
        exact ⟨x', .head hpumped hrun, hstays⟩
    · exact ⟨x, .refl, .inl (.unwritable hcan)⟩

/-! ### A producer who is alone -/

/-- A producer who is alone comes as far as the journal. -/
theorem exists_appends (x : Attended) (hfree : x.shared.Free) (hopen : x.live.queue.closed = false) {i : Nat}
    (hi : x.shared.visitors i = none) (e : Event) :
    Reaches x { x with shared := x.shared.acted i (.producer e .appends) x.live [] } := by
  have hlooks := @Visitor.Step.looks i (x.shared.come i (.producer e .looks)).Free x.live e
  rw [hopen, if_neg Bool.false_ne_true] at hlooks
  have henters := @Visitor.Step.enters i (x.shared.acted i (.producer e .waits) x.live []).Free x.live e
    (hfree.acted (fun _ hc => (by cases hc)) x.live [])
  rw [hopen, if_neg Bool.false_ne_true] at henters
  have hcomes : Reaches x { x with shared := x.shared.come i (.producer e .looks) } := .tail .refl (.comes hi trivial)
  have hwaits := hcomes.tail (.acts (Shared.come_self _ _) hlooks)
  rw [Shared.come_acted] at hwaits
  have happends := hwaits.tail (.acts (Shared.acted_self _ _ _ _) henters)
  rwa [Shared.acted_acted] at happends

/-! ### From opening on -/

theorem Reaches.holds_heeds (hx : Reaches x x') (hh : Shared.Holds o ls first x.shared) (h : x.Heeds) :
    Shared.Holds o ls first x'.shared ∧ x'.Heeds := by
  induction hx with
  | refl => exact ⟨hh, h⟩
  | tail _ hstep ih => exact ⟨hstep.holds ih.1, ih.2.step ih.1 hstep⟩

/-- When the pump waits, everybody rests, and somebody comes whose event is stored under the greatest number, the pump
misses it. -/
theorem exists_missed (hh : Shared.Holds o ls first x.shared) (h : x.Heeds) (hrest : x.AtRest)
    (hidle : x.live.queue.phase = .idle) (hstep : x.live.step? = none) (hopen : x.live.queue.closed = false) {i : Nat}
    (hi : x.shared.visitors i = none) {now : Time.Stamp} (hnow : now.Valid) {e : Event} {j : Journal} {d : Disk}
    (happ : x.live.queue.journal.append now e x.live.disk = (j, d, .error .broken)) :
    ∃ x', Reaches x x' ∧ x'.Missed := by
  have hbreaks := (exists_appends x hrest.free hopen hi e).tail
    (.acts (Shared.acted_self _ _ _ _) (.breaks hnow happ))
  rw [Shared.acted_acted] at hbreaks
  refine ⟨_, hbreaks, ?_⟩
  obtain ⟨hgoes, hwake⟩ := (Live.step?_eq_none_of_idle hidle).1 hstep
  have hwaits : Live.step? ⟨{ x.live.queue with journal := j }, d⟩ = none :=
    (@Live.step?_eq_none_of_idle ⟨{ x.live.queue with journal := j }, d⟩ hidle).2 ⟨hgoes, hwake⟩
  -- the producer has been told that there is no number
  have hrest' : AtRest { x with
      shared := x.shared.acted i (.producer e (.answered none)) ⟨{ x.live.queue with journal := j }, d⟩
        [⟨i, x.live.queue.journal.nextSeq, now, e⟩] } := by
    refine ⟨hrest.free.acted (fun _ hc => (by cases hc)) _ _, fun k e' seq hk => ?_, hrest.receivers⟩
    rcases Shared.of_update hk with ⟨-, heq⟩ | ⟨-, hk⟩
    · cases heq
    · exact hrest.stored k e' seq hk
  obtain ⟨-, hheeds⟩ := Reaches.holds_heeds hbreaks hh h
  refine (hheeds.done_or_missed hrest' hidle hwaits hwake).resolve_left fun ⟨hdone, _⟩ => ?_
  -- its line has not been read
  obtain ⟨w, hcore, -⟩ := hh.exists_standing fun hstopped => (by cases hidle.symm.trans hstopped)
  have hle := List.drop_eq_nil_iff.1 hdone
  simp only [Shared.acted, List.length_append, List.length_map, List.nil_append, List.length_singleton] at hle
  exact absurd hcore.count_le (by omega)

/-- A queue is opened, and producers, consumers, the pump and those who close it take their steps in any order.
While the pump waits, the next line it would read is the first of those not yet read, and a wake-up is kept for
it; or else each line not yet read comes from a producer who is to wake it, and what is ready for the cursor
from a consumer who is to wake it; but who has stored its event under the greatest number is to wake nobody. So when
nobody else has anything to do the pump, without having waited as long as it waits, goes on until it has read all lines
and nothing is ready for the cursor, or until a lane is full, it has stopped or the cursor cannot be written; or until
it waits and has only lines to read that have been stored under the greatest number. It does miss those: when it waits
and the next event that comes is stored under that number. -/
theorem Reaches.heeded {path : String} {capacity : Nat} {place place' : Place} {q : Queue}
    (hopen : Queue.open? path capacity place = (place', .ok q)) {x : Attended}
    (hx : Reaches (start ⟨q, ⟨place', none⟩⟩) x) :
    (x.live.queue.phase = .idle →
      (x.live.queue.journal.peek x.live.disk).map Prod.fst = (x.service.lines.drop x.service.count).head? ∧
      (x.live.queue.wake = true ∨ x.shared.UnreadToCome ∧
        ∀ stop, x.live.queue.ledger.ready = some stop → ∃ s, x.receivers s = .marked (some stop))) ∧
    (x.AtRest → ∃ x', Relation.ReflTransGen Pumped x x' ∧ (x'.Stays ∨ x'.Missed)) ∧
    (x.AtRest → x.live.queue.phase = .idle → x.live.step? = none → x.live.queue.closed = false →
      ∀ i now e j d, x.shared.visitors i = none → now.Valid →
        x.live.queue.journal.append now e x.live.disk = (j, d, .error .broken) → ∃ x', Reaches x x' ∧ x'.Missed) := by
  obtain ⟨j, hjournal, -⟩ := Service.exists_journal hopen
  obtain ⟨f, log, c, hfinds⟩ := Journal.exists_finds hjournal
  have hstart : (start ⟨q, ⟨place', none⟩⟩).Heeds := by
    obtain ⟨j, -, rfl⟩ := Service.exists_journal hopen
    exact ⟨fun hidle => (by cases hidle), fun hlooked => hlooked.elim⟩
  obtain ⟨hh, h⟩ := hx.holds_heeds (Shared.holds_start hfinds hopen) hstart
  refine ⟨fun hidle => ?_, exists_stays hh h, fun hrest hidle hstep hclosed i now e j d hi hnow happ =>
    exists_missed hh h hrest hidle hstep hclosed hi hnow happ⟩
  have hlooked : x.live.queue.phase.HasLooked := by
    rw [hidle]
    trivial
  refine ⟨hh.peek_fst hlooked, ?_⟩
  cases hwake : x.live.queue.wake with
  | true => exact .inl rfl
  | false => exact .inr ⟨h.unread hidle hwake, h.ready hlooked hwake⟩

/-- A key is stored while the pump waits, and its producer is to wake it. When it has, the pump goes on. -/
theorem heeded_after_first_key :
    let f : Folder := { log := some (.file []) }
    let q : Queue := .ofJournal ⟨{}, 0, 0, 0⟩ 1
    Queue.open? "q" 1 .missing = (.folder f, .ok q) ∧
    ∃ x, Reaches (start ⟨q, ⟨.folder f, none⟩⟩) x ∧ x.live.queue.phase = .idle ∧ x.live.queue.wake = false ∧
      x.service.lines.drop x.service.count =
        [Envelope.body 0 ⟨⟨2024, 1, 1⟩, 0, 0, 0, 123456789⟩ (.key ⟨1, 0⟩)] ∧
      x.shared.visitors 0 = some (.producer (.key ⟨1, 0⟩) (.stored 0)) ∧ x.shared.UnreadToCome ∧
      ∃ x', Step x x' ∧ x'.AtRest ∧ ∃ x'', Relation.ReflTransGen Pumped x' x'' ∧ (x''.Stays ∨ x''.Missed) := by
  intro f q
  let l : Live := ⟨q, ⟨.folder f, none⟩⟩
  have hopen : Queue.open? "q" 1 .missing = (.folder f, .ok q) := rfl
  -- the pump finds nothing and waits
  let v : Service := { Service.start l with live := { l with queue := { l.queue with phase := .idle } } }
  have hwaits : Reaches (start l) ((start l).worked v) := by
    have hreads : (start l).Pumped ((start l).worked
        { Service.start l with live := { l with queue := { l.queue with phase := .reading } } }) :=
      .step (fun hjournal => hjournal.elim) (fun _ hphase => (by cases hphase)) rfl
    exact .tail (.tail .refl (.pumps hreads)) (.pumps (.step (fun _ _ _ hi => (by cases hi))
      (fun _ hphase => (by cases hphase)) rfl))
  -- a producer stores its key
  have happends := exists_appends ((start l).worked v) (fun _ _ hi => (by cases hi)) rfl (i := 0) rfl (.key ⟨1, 0⟩)
  have hkey := Store.append_keyLine f rfl
  have hstored := (hwaits.trans happends).tail
    (.acts (Shared.acted_self _ _ _ _) (.appends (by decide) hkey))
  rw [Shared.acted_acted] at hstored
  have hlines : (Service.start l).lines = [] := by
    simp [Service.start, Journal.handOut, Journal.peek, Queue.ofJournal, l, q]
  obtain ⟨hidle, -⟩ := Reaches.heeded hopen hstored
  obtain ⟨-, htrue | ⟨hpending, -⟩⟩ := hidle rfl
  · cases htrue
  refine ⟨hopen, _, hstored, rfl, rfl, ?_, Shared.acted_self _ _ _ _, hpending, ?_⟩
  · show List.drop 0 ((Service.start l).lines ++ _) = _
    rw [hlines]
    rfl
  · -- it wakes the pump, and nobody else is there
    suffices hwakes : ∃ x', Step _ x' ∧ x'.AtRest by
      obtain ⟨x', hwakes, hrest⟩ := hwakes
      exact ⟨x', hwakes, hrest, (Reaches.heeded hopen (hstored.tail hwakes)).2.1 hrest⟩
    refine ⟨_, .acts (Shared.acted_self _ _ _ _) .wakes, fun i e hi => ?_, fun i e seq hi => ?_, fun _ => rfl⟩
    all_goals
      rcases Shared.of_update hi with ⟨-, heq⟩ | ⟨hne, hi⟩
      · cases heq
      · rcases Shared.of_update hi with ⟨h, -⟩ | ⟨-, hi⟩
        · exact hne h
        · cases hi

end Attended
end CecRelay
