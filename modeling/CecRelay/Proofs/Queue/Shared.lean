import CecRelay.Proofs.Queue.Settled
import Mathlib.Data.List.Nodup

/-!
# A queue that is shared

Any number of visitors come to a queue, to have an event stored or to close the queue (`Visitor`). They take
their steps in any order, between those of the pump and of the consumers (`Shared.Step`). A producer looks
twice whether the queue is closed, the second time when it has got the journal, and keeps the journal from
then until its event is in the log. When its number is the greatest the program breaks off there, and the
producer is told that there is none. Somebody who closes the queue first sets the two flags, one after the
other, waits for the pump, takes what is ready for the cursor, and then waits for the journal. Whoever uses
the journal uses it alone; everything else may fall between any two of these steps.

A visitor who is alone does what the operations of the queue do (`Shared.exists_enqueue`,
`Shared.exists_close`). What holds in every run is `Shared.Holds`.

## Scope

A visitor may stay where it is for good, except that nobody who waits for the pump gives the waiting up. A
visitor who stays with the journal keeps all others from it.
-/

namespace CecRelay

open Lines

/-! ### Visitors -/

/-- How far somebody has come who wants an event to be stored. -/
inductive Storing
  /-- It looks whether the queue is closed. -/
  | looks
  /-- It waits for the journal, to look once more. -/
  | waits
  /-- It has the journal, and appends the event. -/
  | appends
  /-- The event has been stored, and the pump is to be woken. -/
  | stored (seq : UInt64)
  /-- It has an answer. -/
  | answered (answer : Option UInt64)

/-- How far somebody has come who closes the queue. -/
inductive Shutting
  /-- It keeps producers out. -/
  | shuts
  /-- It tells the pump to stop. -/
  | cancels
  /-- It waits for the pump. -/
  | waits
  /-- It has taken what was ready for the cursor, and waits for the journal. -/
  | took (ready : Option Nat)
  /-- It has an answer. -/
  | answered (answer : Except RelayError Unit)

/-- Somebody who comes to the queue. -/
inductive Visitor
  /-- It wants an event to be stored. -/
  | producer (e : Event) (stage : Storing)
  /-- It closes the queue. -/
  | closer (delete : Bool) (stage : Shutting)

/-- An event in the log, and the visitor who has put it there. -/
structure Stored where
  /-- The visitor. -/
  visitor : Nat
  /-- The number. -/
  seq : UInt64
  /-- The time. -/
  now : Time.Stamp
  /-- The event. -/
  event : Event

/-- Its line in the log. -/
def Stored.line (x : Stored) : Bytes := Envelope.body x.seq x.now x.event

namespace Visitor

/-- It has just come. -/
def Fresh : Visitor → Prop
  | .producer _ .looks | .closer _ .shuts => True
  | _ => False

/-- The number under which its event has been stored. -/
def number? : Visitor → Option (UInt64 × Event)
  | .producer e (.stored seq) | .producer e (.answered (some seq)) => some (seq, e)
  | _ => none

theorem bind_number? (c : Option Visitor) {seq : UInt64} {e : Event} : c.bind number? = some (seq, e) ↔
    c = some (.producer e (.stored seq)) ∨ c = some (.producer e (.answered (some seq))) := by
  constructor
  · intro h
    obtain ⟨c, rfl, hnumber⟩ := Option.bind_eq_some_iff.1 h
    unfold number? at hnumber
    split at hnumber
    · cases hnumber
      exact .inl rfl
    · cases hnumber
      exact .inr rfl
    · cases hnumber
  · rintro (rfl | rfl)
    · rfl
    · rfl

end Visitor

/-- What the visitor is told, or is to be told: the number, or, when that is the greatest, that there is none. -/
def Stored.Tells (x : Stored) (c : Visitor) : Prop :=
  if x.seq = Journal.greatest then c = .producer x.event (.answered none) else c.number? = some (x.seq, x.event)

namespace Stored

variable {x : Stored}

/-- Who has not appended yet is told nothing. -/
theorem not_tells (x : Stored) {e : Event} {stage : Storing}
    (hstage : stage = .looks ∨ stage = .waits ∨ stage = .appends) : ¬ x.Tells (.producer e stage) := by
  intro htells
  unfold Tells at htells
  split at htells
  · rcases hstage with rfl | rfl | rfl
    · cases htells
    · cases htells
    · cases htells
  · rcases hstage with rfl | rfl | rfl
    · cases htells
    · cases htells
    · cases htells

theorem not_tells_closer (x : Stored) (delete : Bool) (stage : Shutting) : ¬ x.Tells (.closer delete stage) := by
  intro htells
  unfold Tells at htells
  split at htells
  · cases htells
  · cases htells

/-- Who has a number has that of its event. -/
theorem Tells.number?_eq {c : Visitor} (h : x.Tells c) {p : UInt64 × Event} (hp : c.number? = some p) :
    p = (x.seq, x.event) := by
  unfold Tells at h
  split at h
  · rw [h] at hp
    cases hp
  · exact Option.some.inj (hp.symm.trans h)

end Stored

namespace Visitor

/-- The next step of visitor `i`, what the queue is after it, and what has been stored in it. When `free` says
so nobody has the journal. -/
inductive Step (i : Nat) (free : Prop) (l : Live) : Visitor → Live → Visitor → List Stored → Prop
  /-- A producer looks whether the queue is closed. -/
  | looks {e : Event} :
    Step i free l (.producer e .looks) l (.producer e (if l.queue.closed then .answered none else .waits)) []
  /-- It gets the journal and looks once more. -/
  | enters {e : Event} : free →
    Step i free l (.producer e .waits) l (.producer e (if l.queue.closed then .answered none else .appends)) []
  /-- It appends its event, under a stamp that a clock can show. -/
  | appends {e : Event} {now : Time.Stamp} {j : Journal} {d : Disk} {seq : UInt64} : now.Valid →
    l.queue.journal.append now e l.disk = (j, d, .ok seq) →
    Step i free l (.producer e .appends) ⟨{ l.queue with journal := j }, d⟩ (.producer e (.stored seq))
      [⟨i, seq, now, e⟩]
  /-- It appends its event, and the program breaks off behind the line. -/
  | breaks {e : Event} {now : Time.Stamp} {j : Journal} {d : Disk} : now.Valid →
    l.queue.journal.append now e l.disk = (j, d, .error .broken) →
    Step i free l (.producer e .appends) ⟨{ l.queue with journal := j }, d⟩ (.producer e (.answered none))
      [⟨i, l.queue.journal.nextSeq, now, e⟩]
  /-- The event is refused. -/
  | refused {e : Event} {now : Time.Stamp} {j : Journal} {d : Disk} {cause : RelayError} :
    l.queue.journal.append now e l.disk = (j, d, .error (.error cause)) →
    Step i free l (.producer e .appends) ⟨{ l.queue with journal := j }, d⟩ (.producer e (.answered none)) []
  /-- The append breaks off, and what has been written stays: any part of the line, or all of it. -/
  | refusedPartly {e : Event} {now : Time.Stamp} (n k : Nat) : now.Valid →
    Step i free l (.producer e .appends)
      { l with
        disk := Effect.crash n k (l.queue.journal.appendEffects l.disk.log
          (Envelope.line l.queue.journal.nextSeq now e)) l.disk }
      (.producer e (.answered none)) []
  /-- It wakes the pump and is told the number. -/
  | wakes {e : Event} {seq : UInt64} :
    Step i free l (.producer e (.stored seq)) { l with queue := l.queue.notify }
      (.producer e (.answered (some seq))) []
  /-- Somebody closes the queue to producers. -/
  | shuts {delete : Bool} :
    Step i free l (.closer delete .shuts) { l with queue := { l.queue with closed := true } }
      (.closer delete .cancels) []
  /-- It tells the pump to stop. -/
  | cancels {delete : Bool} :
    Step i free l (.closer delete .cancels) { l with queue := { l.queue with cancelled := true } }
      (.closer delete .waits) []
  /-- When the pump has stopped it takes what is ready for the cursor. -/
  | takes {delete : Bool} : l.queue.phase = .stopped →
    Step i free l (.closer delete .waits) l.takeReady (.closer delete (.took l.queue.ledger.ready)) []
  /-- It gets the journal and removes the folder, or moves the cursor. -/
  | ends {delete : Bool} {ready : Option Nat} : free →
    Step i free l (.closer delete (.took ready)) (l.endClose delete ready).1
      (.closer delete (.answered (l.endClose delete ready).2)) []
  /-- It gets the journal, and the cursor cannot be written. -/
  | endsFailing {stop : Nat} (n k : Nat) : free →
    Step i free l (.closer false (.took (some stop))) (l.endCloseFailing n k stop)
      (.closer false (.answered (.ok ()))) []

end Visitor

/-! ### The pump and the consumers -/

/-- The pump uses the journal. -/
def Phase.UsesJournal : Phase → Prop
  | .committing _ | .reading | .moving _ => True
  | _ => False

/-- What the pump and the consumers do. When `free` says so nobody has the journal. -/
inductive Service.Works (free : Prop) (v : Service) : Service → Prop
  /-- The pump takes a step. -/
  | pumped {l : Live} : (v.live.queue.phase.UsesJournal → free) → v.live.step? = some l →
    Works free v (v.pumped l)
  /-- The pump moves the cursor, which cannot be written. -/
  | pumpedFailing {stop : Nat} (n k : Nat) : free → v.live.queue.phase = .committing stop →
    Works free v { v with live := v.live.commitFailing n k stop }
  /-- The pump has waited as long as it waits. -/
  | waited : Works free v { v with live := v.live.tick }
  /-- A consumer takes an event out of its lane. -/
  | took {l : Live} {s : Stream} {e : Event} : v.live.take? s = some (e, l) →
    Works free v { v with live := l, held := Function.update v.held s (v.held s ++ [(v.position s, e)]) }
  /-- The consumer marks it as received. -/
  | received {s : Stream} {i : Nat} {e : Event} {rest : List (Nat × Event)} : v.held s = (i, e) :: rest →
    Works free v
      { v with
        live := v.live.acknowledge s
        held := Function.update v.held s rest
        got := Function.update v.got s (v.got s ++ [(i, e)]) }
  /-- The consumers give up their ends of the lanes. -/
  | deafened : Works free v { v with live := v.live.deafen }

/-! ### The queue and its visitors -/

/-- A queue in service, its visitors by number, and what they have stored, in the order of the log. -/
structure Shared where
  /-- The queue. -/
  service : Service
  /-- The visitors. -/
  visitors : Nat → Option Visitor := fun _ => none
  /-- What they have stored. -/
  stored : List Stored := []

namespace Shared

/-- The queue and its disk. -/
abbrev live (g : Shared) : Live := g.service.live

/-- No visitor has the journal. -/
def Free (g : Shared) : Prop := ∀ i e, g.visitors i ≠ some (.producer e .appends)

/-- A visitor has come. -/
def come (g : Shared) (i : Nat) (c : Visitor) : Shared :=
  { g with visitors := Function.update g.visitors i (some c) }

/-- A visitor has come to another stage, and has done something to the queue by that. -/
def acted (g : Shared) (i : Nat) (c : Visitor) (l : Live) (new : List Stored) : Shared where
  service := { g.service with live := l, lines := g.service.lines ++ new.map Stored.line }
  visitors := Function.update g.visitors i (some c)
  stored := g.stored ++ new

section

variable (g : Shared) {i j : Nat} (c : Visitor) (l : Live) (new : List Stored)

@[simp] theorem come_self : (g.come i c).visitors i = some c := Function.update_self ..

theorem come_of_ne (h : j ≠ i) : (g.come i c).visitors j = g.visitors j := Function.update_of_ne h ..

@[simp] theorem acted_self : (g.acted i c l new).visitors i = some c := Function.update_self ..

theorem acted_of_ne (h : j ≠ i) : (g.acted i c l new).visitors j = g.visitors j := Function.update_of_ne h ..

end

/-- Among the visitors one is new or has come further, and the others are where they were. -/
theorem of_update {visitors : Nat → Option Visitor} {i j : Nat} {c c' : Visitor}
    (h : Function.update visitors i (some c) j = some c') : j = i ∧ c' = c ∨ j ≠ i ∧ visitors j = some c' := by
  by_cases hji : j = i
  · subst hji
    rw [Function.update_self] at h
    exact .inl ⟨rfl, (Option.some.inj h).symm⟩
  · rw [Function.update_of_ne hji] at h
    exact .inr ⟨hji, h⟩

/-- The steps of a queue and its visitors. -/
inductive Step (g : Shared) : Shared → Prop
  /-- A visitor comes. -/
  | comes {i : Nat} {c : Visitor} : g.visitors i = none → c.Fresh → Step g (g.come i c)
  /-- A visitor takes a step. -/
  | acts {i : Nat} {c c' : Visitor} {l : Live} {new : List Stored} : g.visitors i = some c →
    c.Step i g.Free g.live l c' new → Step g (g.acted i c' l new)
  /-- The pump or a consumer takes a step. -/
  | works {v : Service} : g.service.Works g.Free v → Step g { g with service := v }

/-- Any number of steps. -/
inductive Reaches (g₀ : Shared) : Shared → Prop
  /-- None. -/
  | refl : Reaches g₀ g₀
  /-- One more. -/
  | step {g g' : Shared} : Reaches g₀ g → Step g g' → Reaches g₀ g'

/-- Somebody has closed the queue and has been told so. -/
def Ended (g : Shared) : Prop := ∃ i delete answer, g.visitors i = some (.closer delete (.answered answer))

theorem Reaches.trans {g₀ g g' : Shared} (h : Reaches g₀ g) (h' : Reaches g g') : Reaches g₀ g' := by
  induction h' with
  | refl => exact h
  | step _ hstep ih => exact .step ih hstep

end Shared

/-! ### What is never taken back -/

/-- The flags, and that the pump has stopped. -/
structure Live.Stays (l l' : Live) : Prop where
  /-- Closed to producers. -/
  closed : l.queue.closed = true → l'.queue.closed = true
  /-- The pump is to stop. -/
  cancelled : l.queue.cancelled = true → l'.queue.cancelled = true
  /-- It has stopped. -/
  stopped : l.queue.phase = .stopped → l'.queue.phase = .stopped

/-- What is done to the log by whoever appends nothing: it is left alone or emptied, and where there is nothing nothing
is made. -/
structure Live.Spares (l l' : Live) : Prop where
  /-- The log. -/
  log : l'.disk.log = l.disk.log ∧ l'.queue.journal.len = l.queue.journal.len ∨ l'.disk.log = []
  /-- The folder. -/
  missing : l.disk.place = .missing → l'.disk.place = .missing

namespace Live

variable {l l' : Live}

theorem spares_of_eq (hdisk : l'.disk = l.disk) (hlen : l'.queue.journal.len = l.queue.journal.len) :
    l.Spares l' := by
  refine ⟨.inl ⟨by rw [hdisk], hlen⟩, ?_⟩
  rw [hdisk]
  exact id

theorem spares_commit {stop : Nat} (hj : l'.queue.journal = (l.queue.journal.commit stop l.disk).1)
    (hd : l'.disk = (l.queue.journal.commit stop l.disk).2.1) : l.Spares l' := by
  constructor
  · rw [hj, hd]
    rcases l.queue.journal.len_commit stop l.disk with ⟨hlen, hlog⟩ | ⟨-, hlog⟩
    · exact .inl ⟨hlog, hlen⟩
    · exact .inr hlog
  · rw [hd]
    exact Journal.commit_missing _ _

theorem spares_commitFailing {n k stop : Nat}
    (hj : l'.queue.journal = (l.queue.journal.commitFailing n k stop l.disk).1)
    (hd : l'.disk = (l.queue.journal.commitFailing n k stop l.disk).2) : l.Spares l' := by
  constructor
  · rw [hj, hd]
    exact .inl ⟨Journal.log_commitFailing n k _ stop _, Journal.len_commitFailing n k _ stop _⟩
  · rw [hd]
    exact Journal.commitFailing_missing n k _ stop

theorem removeFolder_spares (l : Live) : l.Spares l.removeFolder.1 := by
  rw [removeFolder]
  split
  next f hplace =>
    have hthere : l.disk.place ≠ .missing := by
      rw [hplace]
      exact fun h => (by cases h)
    split
    · exact ⟨.inl ⟨rfl, rfl⟩, fun _ => rfl⟩
    · exact ⟨.inl ⟨rfl, rfl⟩, fun h => absurd h hthere⟩
    · exact spares_of_eq rfl rfl
  · exact spares_of_eq rfl rfl
  · exact spares_of_eq rfl rfl
  · exact spares_of_eq rfl rfl

theorem endClose_spares (l : Live) (delete : Bool) (ready : Option Nat) : l.Spares (l.endClose delete ready).1 := by
  unfold endClose
  split
  · exact removeFolder_spares l
  · split
    · exact spares_of_eq rfl rfl
    · exact spares_commit rfl rfl

end Live

/-! ### What the pump and the consumers do -/

namespace Service.Works

variable {free : Prop} {v v' : Service}

/-- They are steps of a queue in service. -/
theorem step (h : v.Works free v') : ∃ a, Step v a v' := by
  cases h with
  | pumped _ hstep => exact ⟨_, .pumped hstep⟩
  | pumpedFailing n k _ hphase => exact ⟨_, .pumpedFailing n k hphase⟩
  | waited => exact ⟨_, .waited⟩
  | took ht => exact ⟨_, .took ht⟩
  | received hheld => exact ⟨_, .received hheld⟩
  | deafened => exact ⟨_, .deafened⟩

/-- They append nothing. -/
theorem same (h : v.Works free v') : v'.lines = v.lines ∧ v'.gone = v.gone ∧ v'.closers = v.closers ∧
    v'.live.queue.journal.nextSeq = v.live.queue.journal.nextSeq := by
  cases h with
  | @pumped l _ hstep =>
    obtain ⟨hlive, -, -, hgone, hlines⟩ := pumped_same v l
    refine ⟨hlines, hgone, pumped_closers v l, ?_⟩
    rw [hlive]
    cases Live.turn_of_step? hstep with
    | @commits stop j d fault _ hcommit =>
      have hnext := Journal.nextSeq_commit v.live.queue.journal stop v.live.disk
      rw [hcommit] at hnext
      exact hnext
    | still hs => exact hs.nextSeq
    | _ => rfl
  | pumpedFailing n k => exact ⟨rfl, rfl, rfl, Journal.nextSeq_commitFailing n k v.live.queue.journal _ v.live.disk⟩
  | waited =>
    obtain ⟨phase, heq⟩ := v.live.tick_eq
    rw [heq]
    exact ⟨rfl, rfl, rfl, rfl⟩
  | took ht =>
    obtain ⟨⟨keys, power, rfl⟩, -, -⟩ := Live.take?_eq ht
    exact ⟨rfl, rfl, rfl, rfl⟩
  | received | deafened => exact ⟨rfl, rfl, rfl, rfl⟩

theorem stays (h : v.Works free v') : v.live.Stays v'.live := by
  cases h with
  | @pumped l _ hstep =>
    obtain ⟨hcancelled, hclosed, -⟩ := Live.step?_flags hstep
    rw [(pumped_same v l).1]
    refine ⟨hclosed.trans, hcancelled.trans, fun hstopped => ?_⟩
    rw [Live.step?, hstopped] at hstep
    cases hstep
  | pumpedFailing n k _ hphase =>
    refine ⟨id, id, fun hstopped => ?_⟩
    rw [hstopped] at hphase
    cases hphase
  | waited =>
    unfold Live.tick
    split
    next hphase =>
      refine ⟨id, id, fun hstopped => ?_⟩
      rw [hstopped] at hphase
      cases hphase
    · exact ⟨id, id, id⟩
  | took ht =>
    obtain ⟨⟨keys, power, rfl⟩, -, -⟩ := Live.take?_eq ht
    exact ⟨id, id, id⟩
  | received | deafened => exact ⟨id, id, id⟩

theorem spares (h : v.Works free v') : v.live.Spares v'.live := by
  cases h with
  | @pumped l _ hstep =>
    rw [(pumped_same v l).1]
    cases Live.turn_of_step? hstep with
    | commits _ hcommit =>
      exact Live.spares_commit (congrArg Prod.fst hcommit).symm (congrArg (fun x => x.2.1) hcommit).symm
    | still hs => exact Live.spares_of_eq hs.disk hs.len
    | _ => exact Live.spares_of_eq rfl rfl
  | pumpedFailing n k => exact Live.spares_commitFailing rfl rfl
  | waited =>
    obtain ⟨phase, heq⟩ := v.live.tick_eq
    rw [heq]
    exact Live.spares_of_eq rfl rfl
  | took ht =>
    obtain ⟨⟨keys, power, rfl⟩, -, -⟩ := Live.take?_eq ht
    exact Live.spares_of_eq rfl rfl
  | received | deafened => exact Live.spares_of_eq rfl rfl

/-- Once the pump has stopped nothing is done to the disk. -/
theorem disk_of_stopped (h : v.Works free v') (hstopped : v.live.queue.phase = .stopped) :
    v'.live.disk = v.live.disk := by
  cases h with
  | pumped _ hstep =>
    rw [Live.step?, hstopped] at hstep
    cases hstep
  | pumpedFailing n k _ hphase =>
    rw [hstopped] at hphase
    cases hphase
  | waited => rw [Live.tick, hstopped]
  | took ht =>
    obtain ⟨⟨keys, power, rfl⟩, -, -⟩ := Live.take?_eq ht
    rfl
  | received | deafened => rfl

end Service.Works

/-! ### What a visitor does -/

/-- The number that comes so many after one; the greatest, when there are not so many. -/
def after (first : UInt64) (k : Nat) : UInt64 := UInt64.ofNat (min (first.toNat + k) (2 ^ 64 - 1))

theorem toNat_after (first : UInt64) (k : Nat) : (after first k).toNat = min (first.toNat + k) (2 ^ 64 - 1) := by
  rw [after, UInt64.toNat_ofNat']
  exact Nat.mod_eq_of_lt (by omega)

@[simp] theorem after_zero (first : UInt64) : after first 0 = first := by
  have hfirst := first.toNat_lt
  rw [← UInt64.toNat_inj, toNat_after]
  omega

theorem after_after (first : UInt64) (m n : Nat) : after (after first m) n = after first (m + n) := by
  rw [← UInt64.toNat_inj, toNat_after, toNat_after, toNat_after]
  omega

/-- The number after the greatest is not there. -/
theorem after_one (seq : UInt64) : after seq 1 = (Journal.succ? seq).getD Journal.greatest := by
  rw [← UInt64.toNat_inj, toNat_after]
  rcases Journal.succ?_cases seq with ⟨rfl, hnone⟩ | ⟨-, hlt, hsome⟩
  · rw [hnone]
    rfl
  · rw [hsome, Option.getD_some, Journal.toNat_of_succ? hsome]
    omega

/-- The numbers from one on, of which the last is the greatest again and again. -/
def numbers (first : UInt64) (n : Nat) : List UInt64 := (List.range n).map (after first)

theorem numbers_add (first : UInt64) (m n : Nat) :
    numbers first (m + n) = numbers first m ++ numbers (after first m) n := by
  have hafter : after (after first m) = fun k => after first (m + k) := funext (after_after first m)
  simp only [numbers, List.range_add, List.map_append, List.map_map, Function.comp_def, hafter]

/-- They increase as long as there are so many. -/
theorem pairwise_numbers_iff (first : UInt64) (n : Nat) :
    (numbers first n).Pairwise (· < ·) ↔ first.toNat + n ≤ 2 ^ 64 := by
  have hfirst := first.toNat_lt
  rw [numbers, List.pairwise_map]
  constructor
  · intro h
    by_contra hmore
    -- the last two are the greatest
    have hlt := List.pairwise_iff_getElem.1 h (n - 2) (n - 1) (by rw [List.length_range]; omega)
      (by rw [List.length_range]; omega) (by omega)
    rw [List.getElem_range, List.getElem_range, UInt64.lt_iff_toNat_lt, toNat_after, toNat_after] at hlt
    omega
  · intro hle
    refine List.pairwise_lt_range.imp_of_mem fun {k m} hk hm hlt => ?_
    rw [List.mem_range] at hk hm
    rw [UInt64.lt_iff_toNat_lt, toNat_after, toNat_after]
    omega

/-- Up to the greatest they increase. -/
theorem pairwise_numbers_filter (first : UInt64) (n : Nat) :
    ((numbers first n).filter (· ≠ Journal.greatest)).Pairwise (· < ·) := by
  rw [List.pairwise_filter, numbers, List.pairwise_map]
  refine List.pairwise_lt_range.imp fun {k m} hlt _ hm => ?_
  have hgreatest : Journal.greatest.toNat = 2 ^ 64 - 1 := rfl
  have hne : (after first m).toNat ≠ Journal.greatest.toNat := fun heq => of_decide_eq_true hm (UInt64.toNat_inj.1 heq)
  rw [toNat_after] at hne
  rw [UInt64.lt_iff_toNat_lt, toNat_after, toNat_after]
  omega

namespace Visitor

/-- What is so in the queue when a visitor has come that far. -/
def Fits (q : Queue) : Visitor → Prop
  | .closer _ .cancels => q.closed = true
  | .closer _ .waits => q.closed = true ∧ q.cancelled = true
  | .closer _ (.took _) | .closer _ (.answered _) =>
    q.closed = true ∧ q.cancelled = true ∧ q.phase = .stopped
  | _ => True

theorem Fits.stays {c : Visitor} {l l' : Live} (h : c.Fits l.queue) (hstays : l.Stays l') : c.Fits l'.queue := by
  cases c with
  | producer e stage => exact trivial
  | closer delete stage =>
    cases stage with
    | shuts => exact trivial
    | cancels => exact hstays.closed h
    | waits => exact ⟨hstays.closed h.1, hstays.cancelled h.2⟩
    | took ready => exact ⟨hstays.closed h.1, hstays.cancelled h.2.1, hstays.stopped h.2.2⟩
    | answered answer => exact ⟨hstays.closed h.1, hstays.cancelled h.2.1, hstays.stopped h.2.2⟩

namespace Step

variable {i : Nat} {free : Prop} {l l' : Live} {c c' : Visitor} {new : List Stored}

theorem stays (h : c.Step i free l l' c' new) : l.Stays l' := by
  cases h with
  | @ends delete ready =>
    obtain ⟨j, hqueue, -⟩ := Service.endClose_queue l delete ready
    constructor
    · rw [hqueue]
      exact id
    · rw [hqueue]
      exact id
    · rw [hqueue]
      exact id
  | shuts => exact ⟨fun _ => rfl, id, id⟩
  | cancels => exact ⟨id, fun _ => rfl, id⟩
  | _ => exact ⟨id, id, id⟩

theorem fits (h : c.Step i free l l' c' new) (hc : c.Fits l.queue) : c'.Fits l'.queue := by
  have hstays := h.stays
  cases h with
  | shuts => exact rfl
  | cancels => exact ⟨hc, rfl⟩
  | takes hstopped => exact ⟨hc.1, hc.2, hstopped⟩
  | ends => exact ⟨hstays.closed hc.1, hstays.cancelled hc.2.1, hstays.stopped hc.2.2⟩
  | endsFailing => exact hc
  | _ => exact trivial

/-- What is appended gets the next number. -/
theorem seqs (h : c.Step i free l l' c' new) :
    new.map Stored.seq = numbers l.queue.journal.nextSeq new.length ∧
      l'.queue.journal.nextSeq = after l.queue.journal.nextSeq new.length := by
  have hnone : l.queue.journal.nextSeq = after l.queue.journal.nextSeq 0 := (after_zero _).symm
  have hone : [l.queue.journal.nextSeq] = numbers l.queue.journal.nextSeq 1 := by
    show [l.queue.journal.nextSeq] = [after l.queue.journal.nextSeq 0]
    rw [← hnone]
  cases h with
  | appends _ happ =>
    obtain ⟨rfl, hnext⟩ := Journal.append_ok happ
    refine ⟨hone, ?_⟩
    show _ = after l.queue.journal.nextSeq 1
    rw [after_one, hnext]
    rfl
  | breaks _ happ =>
    obtain ⟨hbefore, hafter⟩ := Journal.append_broken happ
    refine ⟨hone, ?_⟩
    show _ = after l.queue.journal.nextSeq 1
    rw [after_one, Journal.succ?_eq_none_iff.2 hbefore]
    exact hafter
  | refused happ =>
    obtain rfl := Journal.append_error happ
    exact ⟨rfl, hnone⟩
  | @ends delete ready =>
    obtain ⟨j, hqueue, hnext⟩ := Service.endClose_queue l delete ready
    refine ⟨rfl, ?_⟩
    rw [hqueue, hnext]
    exact hnone
  | endsFailing n k => exact ⟨rfl, (Journal.nextSeq_commitFailing n k l.queue.journal _ l.disk).trans hnone⟩
  | _ => exact ⟨rfl, hnone⟩

/-- A visitor has a number from when its event is stored, unless that is the greatest. Whoever knows what has become
of its event goes on knowing it. -/
theorem number (h : c.Step i free l l' c' new) :
    new = [] ∧ c'.number? = c.number? ∧ (∀ x : Stored, x.Tells c → x.Tells c') ∨
    ∃ seq now e, new = [⟨i, seq, now, e⟩] ∧ c = .producer e .appends ∧ (⟨i, seq, now, e⟩ : Stored).Tells c' := by
  cases h with
  | looks =>
    refine .inl ⟨rfl, ?_, fun x hx => absurd hx (x.not_tells (.inl rfl))⟩
    split
    · rfl
    · rfl
  | enters =>
    refine .inl ⟨rfl, ?_, fun x hx => absurd hx (x.not_tells (.inr (.inl rfl)))⟩
    split
    · rfl
    · rfl
  | appends _ happ =>
    refine .inr ⟨_, _, _, rfl, rfl, ?_⟩
    obtain ⟨rfl, hnext⟩ := Journal.append_ok happ
    have hne : l.queue.journal.nextSeq ≠ Journal.greatest := fun heq => by
      rw [Journal.succ?_eq_none_iff.2 heq] at hnext
      cases hnext
    rw [Stored.Tells, if_neg hne]
    rfl
  | breaks _ happ =>
    refine .inr ⟨_, _, _, rfl, rfl, ?_⟩
    rw [Stored.Tells, if_pos (Journal.append_broken happ).1]
  | refused | refusedPartly => exact .inl ⟨rfl, rfl, fun x hx => absurd hx (x.not_tells (.inr (.inr rfl)))⟩
  | wakes =>
    refine .inl ⟨rfl, rfl, fun x hx => ?_⟩
    unfold Stored.Tells at hx ⊢
    split at hx
    · cases hx
    next hne =>
      rw [if_neg hne]
      exact hx
  | _ => exact .inl ⟨rfl, rfl, fun x hx => absurd hx (x.not_tells_closer _ _)⟩

/-- Something is done to the disk when an event is appended or refused, and at the end of closing. -/
theorem disk (h : c.Step i free l l' c' new) :
    l'.disk = l.disk ∧ l'.queue.journal.len = l.queue.journal.len ∧ new = [] ∨ (∃ e, c = .producer e .appends) ∨
    ∃ delete ready answer, c = .closer delete (.took ready) ∧ c' = .closer delete (.answered answer) ∧ new = [] ∧
      l.Spares l' := by
  cases h with
  | appends | breaks | refused | refusedPartly => exact .inr (.inl ⟨_, rfl⟩)
  | ends => exact .inr (.inr ⟨_, _, _, rfl, rfl, rfl, l.endClose_spares _ _⟩)
  | endsFailing n k => exact .inr (.inr ⟨_, _, _, rfl, rfl, rfl, Live.spares_commitFailing rfl rfl⟩)
  | _ => exact .inl ⟨rfl, rfl, rfl⟩

/-- Where there is nothing nothing is made. -/
theorem missing (h : c.Step i free l l' c' new) (hmissing : l.disk.place = .missing) :
    l'.disk.place = .missing := by
  cases h with
  | @appends e now j d seq _ happ =>
    have hd := l.queue.journal.append_missing now e hmissing
    rw [happ] at hd
    exact hd
  | @breaks e now j d _ happ | @refused e now j d _ happ =>
    have hd := l.queue.journal.append_missing now e hmissing
    rw [happ] at hd
    exact hd
  | refusedPartly => exact Effect.crash_missing _ _ _ hmissing
  | ends => exact (l.endClose_spares _ _).missing hmissing
  | endsFailing n k => exact Journal.commitFailing_missing n k l.queue.journal _ hmissing
  | _ => exact hmissing

/-- Nobody begins to append to a closed queue. -/
theorem open_of_appends (h : c.Step i free l l' c' new) {e : Event} (hc' : c' = .producer e .appends) :
    l.queue.closed = false ∧ free := by
  cases h with
  | enters hfree =>
    split at hc'
    · cases hc'
    next hopen => exact ⟨Bool.eq_false_iff.2 hopen, hfree⟩
  | looks =>
    split at hc'
    · cases hc'
    · cases hc'
  | _ => cases hc'

/-- Closing ends while nobody has the journal. -/
theorem free_of_answered (h : c.Step i free l l' c' new) {delete : Bool} {answer : Except RelayError Unit}
    (hc' : c' = .closer delete (.answered answer)) : free := by
  cases h with
  | ends hfree | endsFailing _ _ hfree => exact hfree
  | _ => cases hc'

/-- Who has an answer does nothing more. -/
theorem not_answered (h : c.Step i free l l' c' new) {delete : Bool} {answer : Except RelayError Unit} :
    c ≠ .closer delete (.answered answer) := by
  intro hc
  subst hc
  cases h

end Step
end Visitor

end CecRelay
