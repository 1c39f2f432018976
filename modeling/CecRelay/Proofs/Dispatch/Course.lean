import CecRelay.Dispatch.Run
import CecRelay.Proofs.Queue.Order

/-!
# The course of a relay

While a relay works others do too: producers store events, the pump of the queue takes its steps, somebody
asks to stop or closes the queue, and tasks end or are given up. A course is any number of steps of all of
them, in any order (`Relay.Course`). What a step of the relay itself can do is told once (`Relay.Turn`). Whoever closes
the queue, the relay too, takes what is ready for the cursor in one step and moves the cursor in another, so any number
of closings may overlap.

Whatever its course, the queue of a relay is a queue in service, in which the events that the relay has
received have been received (`Relay.Course.tracks`), unless the relay has come to its end and has had the
queue removed.
-/

namespace CecRelay

open Lines

/-! ### What others do to the queue -/

/-- The event that has been stored, if one has, whether its number has been told or not. -/
def Happening.event : Happening → List Event
  | .accepted _ e | .untold _ e => [e]
  | _ => []

/-- What others do to the queue of a relay, but for those who come to the end of closing it. -/
inductive Live.Beside (l : Live) : Happening → Live → Prop
  /-- An event is accepted, under a stamp that a clock can show. -/
  | accepted {l' : Live} {now : Time.Stamp} {e : Event} {seq : UInt64} : now.Valid →
    l.append now e = (l', .ok (some seq)) → Beside l (.accepted seq e) l'
  /-- An event is appended, and the program breaks off behind its line. -/
  | untold {l' : Live} {now : Time.Stamp} {e : Event} : now.Valid → l.append now e = (l', .error .broken) →
    Beside l (.untold l.queue.journal.nextSeq e) l'
  /-- An event is refused. -/
  | refused {l' : Live} {now : Time.Stamp} {e : Event} {cause : RelayError} :
    l.append now e = (l', .error (.error cause)) → Beside l .silent l'
  /-- An append breaks off, and what has been written stays: any part of the line, or all of it. -/
  | refusedPartly {now : Time.Stamp} {e : Event} (n k : Nat) : now.Valid → l.queue.closed = false →
    Beside l .silent
      { l with
        disk := Effect.crash n k (l.queue.journal.appendEffects l.disk.log
          (Envelope.line l.queue.journal.nextSeq now e)) l.disk }
  /-- The pump is woken. -/
  | notified : Beside l .silent { l with queue := l.queue.notify }
  /-- The pump takes a step. -/
  | pumped {l' : Live} : l.step? = some l' → Beside l .silent l'
  /-- The pump moves the cursor, which cannot be written. -/
  | pumpedFailing {stop : Nat} (n k : Nat) : l.queue.phase = .committing stop →
    Beside l .silent (l.commitFailing n k stop)
  /-- The pump has waited as long as it waits. -/
  | waited : Beside l .silent l.tick
  /-- Somebody begins to close the queue. -/
  | closing : Beside l .silent l.beginClose

/-- How others come to the end of closing the queue, once its pump has stopped, and what they have taken for the cursor
and not yet written. The folder they do not remove. -/
inductive Live.ClosedBeside (l : Live) (taken : List Nat) : Live → List Nat → Prop
  /-- Somebody takes what is ready for the cursor. -/
  | takes : l.queue.closed = true → l.queue.phase = .stopped →
    ClosedBeside l taken l.takeReady (l.queue.ledger.ready.toList ++ taken)
  /-- Somebody who has taken an offset moves the cursor to it. -/
  | ends {stop : Nat} : stop ∈ taken → ClosedBeside l taken (l.endClose false (some stop)).1 (taken.erase stop)
  /-- The cursor cannot be written. -/
  | endsFailing {stop : Nat} (n k : Nat) : stop ∈ taken →
    ClosedBeside l taken (l.endCloseFailing n k stop) (taken.erase stop)

namespace Service

variable {v v' : Service}

/-- The event of a line that has been appended comes last. -/
theorem events_append_body (s : Stream) (ls : List Bytes) (seq : UInt64) {now : Time.Stamp} (hvalid : now.Valid)
    (e : Event) :
    events s (ls ++ [Envelope.body seq now e]) = events s ls ++ [e].filter fun e => e.stream = s := by
  rw [events_append, events_cons_some (Envelope.decode?_body seq e hvalid), List.filter_cons, List.filter_nil]
  simp only [decide_eq_true_eq]
  rfl

/-- What others do to the queue is a run of it in service. -/
theorem exists_reaches_of_beside {a : Happening} {l : Live} (h : v.live.Beside a l) :
    ∃ v', Reaches v v' ∧ v'.live = l ∧ v'.gone = v.gone ∧ v'.held = v.held ∧ v'.got = v.got ∧
      v'.closers = v.closers ∧
      ∀ s, events s v'.lines = events s v.lines ++ a.event.filter fun e => e.stream = s := by
  have hsame : ∀ s, events s v.lines = events s v.lines ++ Happening.silent.event.filter fun e => e.stream = s :=
    fun s => (List.append_nil _).symm
  have hstart : Reaches v v := .refl
  cases h with
  | accepted hvalid happ =>
    exact ⟨_, hstart.step (.accepted hvalid happ), rfl, rfl, rfl, rfl, rfl,
      fun s => events_append_body s _ _ hvalid _⟩
  | untold hvalid happ =>
    exact ⟨_, hstart.step (.untold hvalid happ), rfl, rfl, rfl, rfl, rfl,
      fun s => events_append_body s _ _ hvalid _⟩
  | refused happ => exact ⟨_, hstart.step (.refused happ), rfl, rfl, rfl, rfl, rfl, hsame⟩
  | refusedPartly n k hvalid hopen =>
    exact ⟨_, hstart.step (.refusedPartly n k hvalid hopen), rfl, rfl, rfl, rfl, rfl, hsame⟩
  | notified => exact ⟨_, hstart.step .notified, rfl, rfl, rfl, rfl, rfl, hsame⟩
  | pumped hstep =>
    obtain ⟨hlive, hgot, hheld, hgone, hlines⟩ := pumped_same v l
    exact ⟨_, hstart.step (.pumped hstep), hlive, hgone, hheld, hgot, pumped_closers v l, by rw [hlines]; exact hsame⟩
  | pumpedFailing n k hphase =>
    exact ⟨_, hstart.step (.pumpedFailing n k hphase), rfl, rfl, rfl, rfl, rfl, hsame⟩
  | waited => exact ⟨_, hstart.step .waited, rfl, rfl, rfl, rfl, rfl, hsame⟩
  | closing => exact ⟨_, hstart.step .closing, rfl, rfl, rfl, rfl, rfl, hsame⟩

/-- A consumer who holds nothing receives an event. -/
theorem exists_reaches_receive {s : Stream} {e : Event} {l : Live} (ht : v.live.take? s = some (e, l))
    (hheld : v.held s = []) :
    ∃ v' i, Reaches v v' ∧ v'.live = l.acknowledge s ∧ v'.gone = v.gone ∧ v'.lines = v.lines ∧ v'.held = v.held ∧
      v'.got = Function.update v.got s (v.got s ++ [(i, e)]) ∧ v'.closers = v.closers := by
  have hone : Function.update v.held s (v.held s ++ [(v.position s, e)]) s = [(v.position s, e)] := by
    rw [Function.update_self, hheld, List.nil_append]
  refine ⟨_, v.position s, (Reaches.refl.step (.took ht)).step (.received hone), rfl, rfl, rfl, ?_, rfl, rfl⟩
  funext t
  by_cases hts : t = s
  · subst hts
    simp only [Function.update_self, hheld]
  · simp only [Function.update_of_ne hts]

/-- A queue that is closed stays so. -/
theorem Step.stays_closed {a : Happening} (h : Step v a v') (hc : v.live.queue.closed = true) :
    v'.live.queue.closed = true := by
  cases h with
  | @accepted _ now e _ _ happ | @untold _ now e _ happ | @refused _ now e _ happ =>
    obtain ⟨j, heq⟩ := append_queue v.live now e
    rw [happ] at heq
    exact (congrArg Queue.closed heq).trans hc
  | @pumped l hstep =>
    rw [(pumped_same v l).1]
    exact (Live.step?_flags hstep).2.1.trans hc
  | waited =>
    obtain ⟨phase, heq⟩ := v.live.tick_eq
    rw [heq]
    exact hc
  | took ht =>
    obtain ⟨⟨keys, power, rfl⟩, -, -⟩ := Live.take?_eq ht
    exact hc
  | @closed stop _ =>
    obtain ⟨j, heq, -⟩ := endClose_queue v.live false (some stop)
    exact (congrArg Queue.closed heq).trans hc
  | removed => exact (congrArg Queue.closed (removeFolder_queue _)).trans hc
  | closing => rfl
  | _ => exact hc

theorem Reaches.stays_closed (h : Reaches v v') (hc : v.live.queue.closed = true) : v'.live.queue.closed = true := by
  induction h with
  | refl => exact hc
  | step _ hstep ih => exact hstep.stays_closed ih

end Service

namespace Live

/-- Others do not open a queue that is closed, and do not set a pump going that has stopped. -/
theorem Beside.flags {l l' : Live} {a : Happening} (h : l.Beside a l') :
    (l.queue.closed = true → l'.queue.closed = true) ∧
      (l.queue.cancelled = true → l'.queue.cancelled = true ∧ (l.ended = true → l'.ended = true)) := by
  obtain ⟨v', hrun, hlive, -⟩ := Service.exists_reaches_of_beside (v := { live := l, lines := [] }) h
  refine ⟨fun hc => hlive ▸ hrun.stays_closed hc, fun hc => ?_⟩
  obtain ⟨hc', -, hstopped⟩ := hrun.cancelled hc
  simp only [ended, decide_eq_true_iff]
  exact ⟨hlive ▸ hc', fun hp => hlive ▸ hstopped hp⟩

/-- The end of closing does neither. -/
theorem ClosedBeside.flags {l l' : Live} {taken taken' : List Nat} (h : l.ClosedBeside taken l' taken') :
    l'.queue.closed = l.queue.closed ∧ l'.queue.cancelled = l.queue.cancelled ∧ l'.ended = l.ended := by
  cases h with
  | takes | ends | endsFailing => exact ⟨rfl, rfl, rfl⟩

/-- Nothing is accepted by a queue that is closed. -/
theorem Beside.none_accepted {l l' : Live} {a : Happening} (h : l.Beside a l') (hc : l.queue.closed = true) :
    a.event = [] := by
  cases h with
  | accepted _ happ | untold _ happ =>
    rw [append, if_pos hc] at happ
    cases happ
  | _ => rfl

/-- To receive is to take and to mark as received. -/
theorem take?_of_receivePower? {l l' : Live} {p : PowerEvent} (h : l.receivePower? = some (p, l')) :
    ∃ l₁, l.take? .power = some (.power p, l₁) ∧ l' = l₁.acknowledge .power := by
  obtain ⟨⟨p', l₁⟩, htake, heq⟩ := Option.map_eq_some_iff.1 h
  cases heq
  exact ⟨l₁, by rw [take?, htake]; rfl, rfl⟩

theorem take?_of_receiveKey? {l l' : Live} {k : KeyPress} (h : l.receiveKey? = some (k, l')) :
    ∃ l₁, l.take? .keys = some (.key k, l₁) ∧ l' = l₁.acknowledge .keys := by
  obtain ⟨⟨k', l₁⟩, htake, heq⟩ := Option.map_eq_some_iff.1 h
  cases heq
  exact ⟨l₁, by rw [take?, htake]; rfl, rfl⟩

/-- Receiving does not open a queue that is closed. -/
theorem acknowledge_closed {l l₁ : Live} {t : Stream} {e : Event} (h : l.take? t = some (e, l₁)) :
    (l₁.acknowledge t).queue.closed = l.queue.closed := by
  obtain ⟨⟨keys, power, rfl⟩, -, -⟩ := take?_eq h
  rfl

theorem enqueue_closed {l : Live} (hc : l.queue.closed = true) (now : Time.Stamp) (e : Event) :
    l.enqueue now e = (l, none) := by
  rw [enqueue, append, if_pos hc]

end Live

/-! ### Stages -/

namespace Stage

/-- What a relay that finishes closing the queue has taken for the cursor: whether it has the folder removed, and the
offset. -/
def closer : Stage → List (Bool × Nat)
  | .ending leaving _ ready => ready.toList.map (decide (leaving = .graceful), ·)
  | _ => []

/-- The relay is not about to finish closing the queue. -/
def Plain : Stage → Prop
  | .awaiting _ _ | .ending _ _ _ => False
  | _ => True

theorem Plain.closer {stage : Stage} (h : stage.Plain) : stage.closer = [] := by
  cases stage with
  | awaiting | ending => exact h.elim
  | _ => rfl

end Stage

namespace Relay

variable {σ : Type} (a : Adapter σ) (s : RelaySettings)

/-! ### What the relay does -/

/-- A command goes to the devices one after the other. -/
theorem poweringStage_cases (command : PowerCommand) (devices : List UInt8) :
    (devices = [] ∧ poweringStage command devices = .choosing) ∨
      ∃ address rest, devices = address :: rest ∧
        poweringStage command devices = .powering (.first command address) command rest := by
  cases devices with
  | nil => exact .inl ⟨rfl, rfl⟩
  | cons address rest => exact .inr ⟨address, rest, rfl, rfl⟩

/-- What a step of the relay does. -/
inductive Turn (r : Relay σ) : Relay σ → Prop
  /-- Both lanes have ended. -/
  | drains : r.stage = .choosing → r.keysOpen = false → r.powerOpen = false → Turn r (r.finish (.ok .drained))
  /-- It has been asked to stop. -/
  | leaves : r.stage = .choosing → r.cancelled = true → (r.keysOpen || r.powerOpen) = true →
    Turn r { r with stage := .stopping .graceful 0 }
  /-- It receives a power event. -/
  | power {p : PowerEvent} {l : Live} : r.stage = .choosing → r.cancelled = false →
    r.live.receivePower? = some (p, l) → r.powerOpen = true → Turn r (r.takePower s p l)
  /-- It receives a key. -/
  | key {k : KeyPress} {l : Live} : r.stage = .choosing → r.cancelled = false →
    r.live.receiveKey? = some (k, l) → Turn r (r.takeKey k l)
  /-- It finds that a lane has ended. -/
  | ends (keys power : Bool) : r.stage = .choosing → r.live.ended = true → r.cancelled = false →
    Turn r { r with keysOpen := keys, powerOpen := power }
  /-- A command takes a step. -/
  | commands {c : Caller} {command : PowerCommand} {rest : List UInt8} : r.stage = .powering c command rest →
    (∀ result, c ≠ .done result) →
    Turn r { r with
      hardware := (c.step a s.policy r.hardware).2
      stage := .powering (c.step a s.policy r.hardware).1 command rest }
  /-- A command has ended, and the next one follows. -/
  | commanded {command : PowerCommand} {rest : List UInt8} : r.stage = .powering (.done (.ok ())) command rest →
    Turn r { r with stage := poweringStage command rest }
  /-- A command has been given up. -/
  | escalates {cause : RelayError} {command : PowerCommand} {rest : List UInt8} :
    r.stage = .powering (.done (.error cause)) command rest →
    Turn r { r with cancelled := true, stage := .stopping (.escalated cause) 0 }
  /-- A task is over. -/
  | taskOver {leaving : Leaving} {k : Nat} {t : TaskStatus} : r.stage = .stopping leaving k →
    r.tasks[k]? = some t → t ≠ .running → Turn r { r with stage := .stopping leaving (k + 1) }
  /-- All tasks are over. -/
  | tasksOver {leaving : Leaving} {k : Nat} : r.stage = .stopping leaving k → r.tasks[k]? = none →
    Turn r { r with stage := .releasing leaving }
  /-- It closes the adapter. When there is no plan to replace the program, that is behind it. -/
  | releases {leaving : Leaving} : r.stage = .releasing leaving →
    Turn r { r with
      hardware := r.hardware.release a
      stage := .closing leaving (decide (leaving ≠ .graceful) && (s.program.plan? s.budget).isNone) }
  /-- It begins to close the queue. -/
  | closes {leaving : Leaving} {replaced : Bool} : r.stage = .closing leaving replaced →
    Turn r { r with live := r.live.beginClose, stage := .awaiting leaving replaced }
  /-- The pump has stopped, and the relay takes what is ready for the cursor. -/
  | takes {leaving : Leaving} {replaced : Bool} : r.stage = .awaiting leaving replaced → r.live.ended = true →
    Turn r { r with live := r.live.takeReady, stage := .ending leaving replaced r.live.queue.ledger.ready }
  /-- It has the queue removed, and ends as that has ended. -/
  | removes {replaced : Bool} {ready : Option Nat} : r.stage = .ending .graceful replaced ready →
    Turn r (finish { r with live := r.live.removeFolder.1 } (r.live.removeFolder.2.map fun _ => .shutdown))
  /-- It has closed the queue. -/
  | closed {cause : RelayError} {ready : Option Nat} : r.stage = .ending (.escalated cause) false ready →
    Turn r { r with live := (r.live.endClose false ready).1, stage := .replacing cause }
  /-- It has closed the queue, and the program has not been replaced. -/
  | fails {cause : RelayError} {ready : Option Nat} : r.stage = .ending (.escalated cause) true ready →
    Turn r (finish { r with live := (r.live.endClose false ready).1 } (.error (failure s cause)))
  /-- There is no plan to replace the program. -/
  | unplanned {cause : RelayError} : r.stage = .replacing cause → s.program.plan? s.budget = none →
    Turn r { r with stage := .closing (.escalated cause) true }
  /-- It has the program replaced. -/
  | replaces {cause : RelayError} {plan : RestartPlan} : r.stage = .replacing cause →
    s.program.plan? s.budget = some plan → s.replaceable = true →
    Turn r (finish { r with plans := r.plans ++ [plan] } (.ok .restarted))
  /-- It has the program replaced, which does not work. -/
  | replacesNot {cause : RelayError} {plan : RestartPlan} : r.stage = .replacing cause →
    s.program.plan? s.budget = some plan → s.replaceable = false →
    Turn r { r with plans := r.plans ++ [plan], stage := .closing (.escalated cause) true }

variable {a s} {r r' : Relay σ}

theorem turn_of_choose? (hstage : r.stage = .choosing) (h : r.choose? s = some r') : r.Turn a s r' := by
  rw [choose?] at h
  split at h
  next hopen =>
    cases h
    simp only [Bool.and_eq_true, Bool.not_eq_true'] at hopen
    exact .drains hstage hopen.1 hopen.2
  next hopen =>
    split at h
    next hc =>
      cases h
      refine .leaves hstage hc ?_
      cases hkeys : r.keysOpen with
      | true => rfl
      | false => simpa [hkeys] using hopen
    next hc =>
      rw [Bool.not_eq_true] at hc
      split at h
      next p l hp =>
        cases h
        split at hp
        next hon => exact .power hstage hc hp hon
        next => cases hp
      next =>
        split at h
        next hended =>
          cases h
          rw [Bool.and_eq_true] at hended
          exact .ends _ _ hstage hended.2 hc
        next =>
          split at h
          next k l hk =>
            cases h
            split at hk
            · exact .key hstage hc hk
            · cases hk
          next =>
            split at h
            next hended =>
              cases h
              rw [Bool.and_eq_true] at hended
              exact .ends _ _ hstage hended.2 hc
            next => cases h

theorem turn_of_step? (h : r.step? a s = some r') : r.Turn a s r' := by
  rw [step?] at h
  split at h
  next hstage => exact turn_of_choose? hstage h
  next caller command rest hstage =>
    split at h
    next =>
      cases h
      exact .commanded hstage
    next =>
      cases h
      exact .escalates hstage
    next hok herror =>
      cases h
      refine .commands hstage fun result hdone => ?_
      cases result with
      | ok _ => exact hok hdone
      | error cause => exact herror cause hdone
  next leaving task hstage =>
    split at h
    next hnone =>
      cases h
      exact .tasksOver hstage hnone
    next => cases h
    next t hnot ht =>
      cases h
      exact .taskOver hstage ht hnot
  next leaving hstage =>
    have hreleased := Turn.releases (a := a) (s := s) hstage
    cases leaving with
    | graceful =>
      cases h
      exact hreleased
    | escalated cause =>
      cases h
      exact hreleased
  next leaving replaced hstage =>
    cases h
    exact .closes hstage
  next leaving replaced hstage =>
    split at h
    next hended =>
      cases h
      exact .takes hstage hended
    next => cases h
  next leaving replaced ready hstage =>
    cases h
    cases leaving with
    | graceful =>
      have hremoved := Turn.removes (a := a) (s := s) hstage
      simp only [finishClose, Live.endClose, if_true]
      split
      next l heq => rwa [heq] at hremoved
      next l cause heq => rwa [heq] at hremoved
    | escalated cause =>
      cases replaced with
      | false => exact .closed hstage
      | true => exact .fails hstage
  next cause hstage =>
    cases h
    rw [replace]
    split
    next hplan => exact .unplanned hstage hplan
    next plan hplan =>
      split
      next hworks => exact .replaces hstage hplan hworks
      next hworks => exact .replacesNot hstage hplan (Bool.not_eq_true _ ▸ hworks)
  next => cases h

/-! ### Courses -/

variable (a s) in
/-- Any number of steps of a relay and of others, and the events that its queue has stored in them. -/
inductive Course (r₀ : Relay σ) : Relay σ → List Event → Prop
  /-- None. -/
  | start : Course r₀ r₀ []
  /-- The relay takes a step. -/
  | worked {r r' : Relay σ} {es : List Event} : Course r₀ r es → r.step? a s = some r' → Course r₀ r' es
  /-- Somebody else does something to the queue. -/
  | beside {r : Relay σ} {l : Live} {x : Happening} {es : List Event} : Course r₀ r es → r.live.Beside x l →
    Course r₀ { r with live := l } (es ++ x.event)
  /-- Somebody else comes to the end of closing the queue. -/
  | closedBeside {r : Relay σ} {l : Live} {taken : List Nat} {es : List Event} : Course r₀ r es →
    r.live.ClosedBeside r.taken l taken → Course r₀ { r with live := l, taken := taken } es
  /-- Somebody asks to stop. -/
  | asked {r : Relay σ} {es : List Event} : Course r₀ r es → Course r₀ r.asked es
  /-- A task comes to its end. -/
  | taskEnded {r : Relay σ} {es : List Event} {k : Nat} : Course r₀ r es → r.tasks[k]? = some .running →
    Course r₀ { r with tasks := r.tasks.set k .ended } es
  /-- The time for a task to end is over. -/
  | gaveUp {r : Relay σ} {es : List Event} : Course r₀ r es → Course r₀ r.giveUp es

theorem Course.trans {r₀ : Relay σ} {es es' : List Event} (h : Course a s r₀ r es) (h' : Course a s r r' es') :
    Course a s r₀ r' (es ++ es') := by
  induction h' with
  | start =>
    rw [List.append_nil]
    exact h
  | worked _ hstep ih => exact ih.worked hstep
  | beside _ hbeside ih =>
    rw [← List.append_assoc]
    exact ih.beside hbeside
  | closedBeside _ hclosed ih => exact ih.closedBeside hclosed
  | asked _ ih => exact ih.asked
  | taskEnded _ hk ih => exact ih.taskEnded hk
  | gaveUp _ ih => exact ih.gaveUp

/-- What is over in the time for a task to end is that task. -/
theorem giveUp_cases (r : Relay σ) :
    r.giveUp = r ∨ ∃ leaving k, r.stage = .stopping leaving k ∧ r.tasks[k]? = some .running ∧
      r.giveUp = { r with tasks := r.tasks.set k .aborted } := by
  unfold giveUp
  split
  next leaving k hstage =>
    split
    next hk => exact .inr ⟨leaving, k, hstage, hk, rfl⟩
    next => exact .inl rfl
  next => exact .inl rfl

/-! ### Results -/

/-- With these results a run ends in which the relay has had the queue removed, or has tried to. -/
def Removed : Except RelayError Exit → Prop
  | .ok .shutdown | .error (.io _) => True
  | _ => False

/-- The result of having the queue removed is such a result. -/
theorem removed_map (l : Live) : Removed (l.removeFolder.2.map fun _ => .shutdown) := by
  rw [Live.removeFolder]
  split
  · split
    · trivial
    · trivial
    · trivial
  · trivial
  · trivial
  · trivial

/-! ### The queue of a relay -/

/-- The lines in the log behind those of its queue: at most one, of an append that has broken off. -/
def left (r : Relay σ) : List Bytes := Lines.lines (r.live.disk.log.drop r.live.queue.journal.len)

theorem plain_poweringStage (command : PowerCommand) (devices : List UInt8) :
    (poweringStage command devices).Plain := by
  rcases poweringStage_cases command devices with ⟨-, hnext⟩ | ⟨_, _, -, hnext⟩
  · rw [hnext]
    trivial
  · rw [hnext]
    trivial

/-- The queue of a relay as a queue in service: what has happened to it since, and what the relay has
received. -/
structure Tracks (v₀ : Service) (r : Relay σ) (es : List Event) (v : Service) : Prop where
  /-- It is the queue. -/
  reaches : Service.Reaches v₀ v
  /-- It is the queue of the relay. -/
  live : v.live = r.live
  /-- The folder is there. -/
  there : v.gone = false
  /-- The relay receives what it takes. -/
  held : ∀ t, v.held t = []
  /-- What has been stored. -/
  accepted : ∀ t, events t v.lines = events t v₀.lines ++ es.filter fun e => e.stream = t
  /-- What has been received. -/
  received : ∀ t, (v.got t).map Prod.snd = r.received.filter fun e => e.stream = t
  /-- The relay waits for the pump when it has begun to close the queue. -/
  closing : ∀ leaving replaced, r.stage = .awaiting leaving replaced → r.live.queue.closed = true
  /-- What those who close the queue have taken for the cursor: others, and the relay. -/
  closers : v.closers.Perm (r.taken.map (false, ·) ++ r.stage.closer)

namespace Tracks

variable {v₀ v : Service} {es : List Event}

/-- A step that does nothing to the queue. -/
theorem same (h : Tracks v₀ r es v) (hlive : r'.live = r.live) (hreceived : r'.received = r.received)
    (htaken : r'.taken = r.taken) (hstage : r'.stage = r.stage ∨ r.stage.Plain ∧ r'.stage.Plain) :
    Tracks v₀ r' es v := by
  refine
    { h with
      live := h.live.trans hlive.symm
      received := by rw [hreceived]; exact h.received
      closing := fun leaving replaced heq => ?_
      closers := ?_ }
  · rw [hlive]
    rcases hstage with hsame | ⟨-, hplain⟩
    · exact h.closing leaving replaced (hsame.symm.trans heq)
    · rw [heq] at hplain
      exact hplain.elim
  · rw [htaken]
    rcases hstage with hsame | ⟨hplain, hplain'⟩
    · rw [hsame]
      exact h.closers
    · rw [hplain'.closer, ← hplain.closer]
      exact h.closers

/-- Somebody else does something to the queue. -/
theorem beside (h : Tracks v₀ r es v) {x : Happening} {l : Live} (hbeside : r.live.Beside x l) :
    ∃ v', Tracks v₀ { r with live := l } (es ++ x.event) v' := by
  rw [← h.live] at hbeside
  obtain ⟨v', hrun, hlive, hgone, hheld, hgot, hclosers, hevents⟩ := Service.exists_reaches_of_beside hbeside
  refine ⟨v',
    { reaches := h.reaches.trans hrun
      live := hlive
      there := hgone.trans h.there
      held := by rw [hheld]; exact h.held
      accepted := fun t => ?_
      received := by rw [hgot]; exact h.received
      closing := fun leaving replaced heq => hbeside.flags.1 ?_
      closers := by rw [hclosers]; exact h.closers }⟩
  · rw [hevents, h.accepted, List.filter_append, List.append_assoc]
  · rw [h.live]
    exact h.closing leaving replaced heq

/-- Somebody else comes to the end of closing the queue. -/
theorem closedBeside (h : Tracks v₀ r es v) {l : Live} {taken : List Nat}
    (hcloses : r.live.ClosedBeside r.taken l taken) :
    ∃ v', Tracks v₀ { r with live := l, taken := taken } es v' := by
  -- who has taken an offset has done with it
  have hdone : ∀ {stop}, stop ∈ r.taken → (false, stop) ∈ v.closers ∧
      (v.closers.erase (false, stop)).Perm ((r.taken.erase stop).map (false, ·) ++ r.stage.closer) := by
    intro stop hmem
    have hmem' : (false, stop) ∈ r.taken.map (false, ·) := List.mem_map_of_mem hmem
    refine ⟨h.closers.mem_iff.2 (List.mem_append_left _ hmem'), ?_⟩
    rw [List.map_erase (Prod.mk_right_injective false), ← List.erase_append_left _ hmem']
    exact h.closers.erase _
  cases hcloses with
  | takes hclosed hstopped =>
    have hquiet : v.Quiet := by
      rw [Service.Quiet, h.live]
      exact ⟨hclosed, hstopped⟩
    refine ⟨_,
      { h with
        reaches := h.reaches.step (.takes false hquiet)
        live := congrArg Live.takeReady h.live
        closing := fun leaving replaced heq => h.closing leaving replaced heq
        closers := ?_ }⟩
    rw [h.live, List.map_append, List.append_assoc]
    exact h.closers.append_left _
  | @ends stop hmem =>
    obtain ⟨hheld, hperm⟩ := hdone hmem
    obtain ⟨j, heq, -⟩ := Service.endClose_queue r.live false (some stop)
    exact ⟨_,
      { h with
        reaches := h.reaches.step (.closed hheld)
        live := congrArg (fun l => (Live.endClose l false (some stop)).1) h.live
        closing := fun leaving replaced hstage =>
          (congrArg Queue.closed heq).trans (h.closing leaving replaced hstage)
        closers := hperm }⟩
  | @endsFailing stop n k hmem =>
    obtain ⟨hheld, hperm⟩ := hdone hmem
    exact ⟨_,
      { h with
        reaches := h.reaches.step (.closedFailing n k hheld)
        live := congrArg (fun l => Live.endCloseFailing n k l stop) h.live
        closing := fun leaving replaced hstage => h.closing leaving replaced hstage
        closers := hperm }⟩

/-- The relay receives an event. -/
theorem receives (h : Tracks v₀ r es v) {t : Stream} {e : Event} {l : Live} (ht : r.live.take? t = some (e, l))
    (hlive : r'.live = l.acknowledge t) (het : e.stream = t) (hreceived : r'.received = r.received ++ [e])
    (htaken : r'.taken = r.taken) (hplain : r.stage.Plain) (hplain' : r'.stage.Plain) :
    ∃ v', Tracks v₀ r' es v' := by
  rw [← h.live] at ht
  obtain ⟨v', i, hrun, hlive', hgone, hlines, hheld, hgot, hclosers⟩ :=
    Service.exists_reaches_receive ht (h.held t)
  refine ⟨v',
    { reaches := h.reaches.trans hrun
      live := hlive'.trans hlive.symm
      there := hgone.trans h.there
      held := by rw [hheld]; exact h.held
      accepted := by rw [hlines]; exact h.accepted
      received := fun u => ?_
      closing := fun leaving replaced heq => ?_
      closers := ?_ }⟩
  · rw [hgot, hreceived, List.filter_append, List.filter_cons, List.filter_nil]
    by_cases hut : u = t
    · subst hut
      rw [Function.update_self, List.map_append, h.received, if_pos (decide_eq_true het)]
      rfl
    · rw [Function.update_of_ne hut, h.received, if_neg (by simpa [het] using Ne.symm hut), List.append_nil]
  · rw [heq] at hplain'
    exact hplain'.elim
  · rw [hclosers, htaken, hplain'.closer, ← hplain.closer]
    exact h.closers

/-- The pump has stopped, and the relay takes what is ready for the cursor. -/
theorem takes (h : Tracks v₀ r es v) {leaving : Leaving} {replaced : Bool}
    (hstage : r.stage = .awaiting leaving replaced) (hended : r.live.ended = true) :
    ∃ v', Tracks v₀
      { r with live := r.live.takeReady, stage := .ending leaving replaced r.live.queue.ledger.ready } es v' := by
  have hquiet : v.Quiet := by
    rw [Service.Quiet, h.live]
    exact ⟨h.closing _ _ hstage, by simpa only [Live.ended, decide_eq_true_iff] using hended⟩
  have hothers := h.closers
  rw [hstage, show (Stage.awaiting leaving replaced).closer = [] from rfl, List.append_nil] at hothers
  refine ⟨_,
    { h with
      reaches := h.reaches.step (.takes (decide (leaving = .graceful)) hquiet)
      live := congrArg Live.takeReady h.live
      closing := fun _ _ heq => (by cases heq)
      closers := ?_ }⟩
  rw [h.live]
  exact (hothers.append_left _).trans List.perm_append_comm

/-- The relay has closed the queue, and the log is kept. -/
theorem closed (h : Tracks v₀ r es v) {cause : RelayError} {replaced : Bool} {ready : Option Nat}
    (hstage : r.stage = .ending (.escalated cause) replaced ready) {stage : Stage} (hplain : stage.Plain) :
    ∃ v', Tracks v₀ { r with live := (r.live.endClose false ready).1, stage := stage } es v' := by
  have hclosers := h.closers
  rw [hstage, Stage.closer] at hclosers
  have hawaits : ∀ leaving replaced, stage = .awaiting leaving replaced →
      (r.live.endClose false ready).1.queue.closed = true := by
    rintro leaving replaced rfl
    exact hplain.elim
  cases ready with
  | none =>
    refine ⟨v, { h with closing := hawaits, closers := ?_ }⟩
    rw [hplain.closer]
    exact hclosers
  | some stop =>
    have hfirst := hclosers.trans List.perm_append_comm
    refine ⟨_,
      { h with
        reaches := h.reaches.step (.closed (hfirst.mem_iff.2 List.mem_cons_self))
        live := congrArg (fun l => (Live.endClose l false (some stop)).1) h.live
        closing := hawaits
        closers := ?_ }⟩
    rw [hplain.closer, List.append_nil]
    have hrest := hfirst.erase (false, stop)
    rwa [show ∀ l : List (Bool × Nat), (Option.toList (some stop)).map (decide (Leaving.escalated cause = .graceful), ·)
      ++ l = (false, stop) :: l from fun _ => rfl, List.erase_cons_head] at hrest

/-- The relay comes to its end, and gives up the receiving ends of the lanes. -/
theorem finishes (h : Tracks v₀ r es v) (hplain : r.stage.Plain) (result : Except RelayError Exit) :
    ∃ v', Tracks v₀ (r.finish result) es v' := by
  have hclosers := h.closers
  rw [hplain.closer] at hclosers
  exact ⟨{ v with live := v.live.deafen },
    { h with
      reaches := h.reaches.step .deafened
      live := congrArg Live.deafen h.live
      closing := fun _ _ heq => (by cases heq)
      closers := hclosers }⟩

/-- A step of the relay in which the queue is not removed. -/
theorem worked (h : Tracks v₀ r es v) (hturn : r.Turn a s r')
    (hkept : ∀ result, r'.stage = .done result → ¬ Removed result) : ∃ v', Tracks v₀ r' es v' := by
  -- a step from one stage into another that both have nothing to do with the queue
  have hplainly : ∀ {stage}, r.stage = stage → stage.Plain → r'.live = r.live → r'.received = r.received →
      r'.taken = r.taken → r'.stage.Plain → ∃ v', Tracks v₀ r' es v' :=
    fun hstage hplain hlive hreceived htaken hplain' =>
      ⟨v, h.same hlive hreceived htaken (.inr ⟨hstage ▸ hplain, hplain'⟩)⟩
  cases hturn with
  | drains hstage => exact h.finishes (by rw [hstage]; trivial) _
  | leaves hstage => exact hplainly hstage trivial rfl rfl rfl trivial
  | power hstage _ hreceive =>
    obtain ⟨l₁, htake, rfl⟩ := Live.take?_of_receivePower? hreceive
    exact h.receives htake rfl rfl rfl rfl (by rw [hstage]; trivial) (plain_poweringStage _ _)
  | key hstage _ hreceive =>
    obtain ⟨l₁, htake, rfl⟩ := Live.take?_of_receiveKey? hreceive
    have hplain : r.stage.Plain := by
      rw [hstage]
      trivial
    exact h.receives htake rfl rfl rfl rfl hplain hplain
  | ends => exact ⟨v, h.same rfl rfl rfl (.inl rfl)⟩
  | commands hstage => exact hplainly hstage trivial rfl rfl rfl trivial
  | commanded hstage => exact hplainly hstage trivial rfl rfl rfl (plain_poweringStage _ _)
  | escalates hstage => exact hplainly hstage trivial rfl rfl rfl trivial
  | taskOver hstage => exact hplainly hstage trivial rfl rfl rfl trivial
  | tasksOver hstage => exact hplainly hstage trivial rfl rfl rfl trivial
  | releases hstage => exact hplainly hstage trivial rfl rfl rfl trivial
  | closes hstage =>
    have hclosers := h.closers
    rw [hstage] at hclosers
    exact ⟨{ v with live := v.live.beginClose },
      { h with
        reaches := h.reaches.step .closing
        live := congrArg Live.beginClose h.live
        closing := fun _ _ _ => rfl
        closers := hclosers }⟩
  | takes hstage hended => exact h.takes hstage hended
  | removes => exact absurd (removed_map _) (hkept _ rfl)
  | closed hstage => exact h.closed hstage trivial
  | @fails cause ready hstage =>
    have hplain : Stage.Plain (.replacing cause) := trivial
    obtain ⟨v', hv'⟩ := h.closed hstage hplain
    exact hv'.finishes hplain _
  | unplanned hstage => exact hplainly hstage trivial rfl rfl rfl trivial
  | replaces hstage =>
    have hplain : r.stage.Plain := by
      rw [hstage]
      trivial
    obtain ⟨v', hv'⟩ := h.finishes hplain (.ok .restarted)
    exact ⟨v', hv'.same rfl rfl rfl (.inl rfl)⟩
  | replacesNot hstage => exact hplainly hstage trivial rfl rfl rfl trivial

/-- What has been received and what is left is what has been stored. -/
theorem left (h : Tracks v₀ r es v) {o : Service.Origin} (hs : Service.Sound o v) (t : Stream) :
    (r.received.filter fun e => e.stream = t) ++ (events t v.lines).drop (v.got t).length =
        events t v₀.lines ++ (es.filter fun e => e.stream = t) ∧
      (events t v.lines).drop (v.got t).length ++ events t r.left =
        (events t (v.lines ++ v.left)).drop (v.got t).length := by
  obtain ⟨rest, hrest⟩ := hs.got_prefix t
  have hleft : v.left = r.left := by rw [Service.left, h.live, Relay.left]
  rw [events_append, hleft, ← h.received, ← hrest, ← List.length_map Prod.snd, List.append_assoc, List.drop_left,
    List.drop_left, hrest, h.accepted]
  exact ⟨rfl, rfl⟩

end Tracks

/-- A relay that has come to its end does nothing more. -/
theorem step?_done {result : Except RelayError Exit} (h : r.stage = .done result) : r.step? a s = none := by
  rw [step?, h]

/-- Nothing but a task is over by then. -/
theorem giveUp_eq (r : Relay σ) : ∃ tasks, r.giveUp = { r with tasks := tasks } := by
  rcases r.giveUp_cases with heq | ⟨_, k, -, -, heq⟩
  · exact ⟨r.tasks, heq⟩
  · exact ⟨r.tasks.set k .aborted, heq⟩

/-- The queue of a relay is a queue in service, unless it has been removed. -/
theorem Course.tracks {r₀ : Relay σ} {es : List Event} (h : Course a s r₀ r es) (hreceived : r₀.received = [])
    (hstage : r₀.stage = .choosing) (htaken : r₀.taken = [])
    (hkept : ∀ result, r.stage = .done result → ¬ Removed result) : ∃ v, Tracks (.start r₀.live) r es v := by
  induction h with
  | start =>
    refine ⟨.start r₀.live,
      { reaches := .refl
        live := rfl
        there := rfl
        held := fun _ => rfl
        accepted := fun t => (List.append_nil _).symm
        received := fun t => ?_
        closing := fun leaving replaced heq => ?_
        closers := ?_ }⟩
    · rw [hreceived]
      rfl
    · rw [hstage] at heq
      cases heq
    · rw [htaken, hstage]
      exact .refl _
  | worked _ hstep ih =>
    obtain ⟨v, hv⟩ := ih fun result hdone => by
      rw [step?_done hdone] at hstep
      cases hstep
    exact hv.worked (turn_of_step? hstep) hkept
  | beside _ hbeside ih =>
    obtain ⟨v, hv⟩ := ih hkept
    exact hv.beside hbeside
  | closedBeside _ hclosed ih =>
    obtain ⟨v, hv⟩ := ih hkept
    exact hv.closedBeside hclosed
  | asked _ ih =>
    obtain ⟨v, hv⟩ := ih hkept
    exact ⟨v, hv.same rfl rfl rfl (.inl rfl)⟩
  | taskEnded _ _ ih =>
    obtain ⟨v, hv⟩ := ih hkept
    exact ⟨v, hv.same rfl rfl rfl (.inl rfl)⟩
  | @gaveUp r es _ ih =>
    obtain ⟨tasks, heq⟩ := r.giveUp_eq
    rw [heq] at hkept ⊢
    obtain ⟨v, hv⟩ := ih hkept
    exact ⟨v, hv.same rfl rfl rfl (.inl rfl)⟩

end Relay

end CecRelay
