import CecRelay.Proofs.Dispatch.Replacing
import CecRelay.Proofs.Keymap.Presses
import CecRelay.Proofs.Queue.NextQueue

/-!
# Keys on their way

A key goes a long way. A handle of the adapter pushes it into a sink of limited room, a task takes it from there and
has the queue store it, and from then on it is the queue's: it is read from the log, put into a lane and received by
the relay, which passes the code of a press on to the key handler. All of them take their steps in any order, beside
whoever stores power events (`Intake.Step`).

A step of the task does not change the order of keys (`Intake.Keeps`), and neither does the queue
(`Relay.Course.received_prefix`). So what has been passed on are, at every moment, the codes of presses that have been
pushed, in their order, and as long as the log can be written they are the first ones (`Intake.Run.relays`). A key that
cannot be written is left out, and those behind it go on (`Intake.not_first_after_failure`). What is made of the codes
is looked up in a table (`KeyTable.strokes_eq`).
-/

namespace CecRelay

open Lines

/-- The codes of presses, in order. A key that has been held is let go by then, and is no press. -/
def KeyPress.presses (ks : List KeyPress) : List UInt8 := (ks.filter fun k => k.holdMillis = 0).map code

theorem KeyPress.presses_append (ks more : List KeyPress) : presses (ks ++ more) = presses ks ++ presses more := by
  rw [presses, List.filter_append, List.map_append]
  rfl

namespace Relay

variable {σ : Type} {a : Adapter σ} {s : RelaySettings} {r₀ r : Relay σ} {es : List Event}

/-- What a key gives to the key handler is its code, if it is a press. -/
theorem presses_singleton (k : KeyPress) : KeyPress.presses [k] = codesOf k := by
  rw [KeyPress.presses, List.filter_cons, List.filter_nil, codesOf, KeyPress.isRelease]
  by_cases hk : k.holdMillis = 0
  · rw [if_pos (decide_eq_true hk), hk]
    rfl
  · rw [if_neg (by simpa using hk), if_pos (bne_iff_ne.2 hk)]
    rfl

/-- The keys among events are those of their stream. -/
theorem filterMap_key? (es : List Event) :
    (es.filter fun e => e.stream = .keys).filterMap Event.key? = es.filterMap Event.key? := by
  rw [List.filterMap_filter]
  refine List.filterMap_congr fun e _ => ?_
  cases e with
  | key | power => rfl

/-- What has been passed on are the presses among the keys received. -/
theorem Course.pressed (h : Course a s r₀ r es)
    (h₀ : r₀.pressed = KeyPress.presses (r₀.received.filterMap Event.key?)) :
    r.pressed = KeyPress.presses (r.received.filterMap Event.key?) := by
  induction h with
  | start => exact h₀
  | @worked r _ _ _ hstep ih =>
    cases turn_of_step? hstep with
    | power =>
      rw [takePower, List.filterMap_append, ih]
      exact congrArg KeyPress.presses (List.append_nil _).symm
    | key =>
      rw [takeKey, List.filterMap_append, KeyPress.presses_append, ih, ← presses_singleton]
      rfl
    | _ => exact ih
  | beside _ _ ih | closedBeside _ _ ih | asked _ ih | taskEnded _ _ ih => exact ih
  | @gaveUp r es _ ih =>
    obtain ⟨tasks, heq⟩ := r.giveUp_eq
    rw [heq]
    exact ih

section Opened

variable {place place' : Place} {capacity : Nat} {q : Queue}
  (hopen : Queue.open? s.program.queueDir capacity place = (place', .ok q)) {link : Link} {port : Port σ}
  {tasks : Nat}

include hopen in
/-- What the relay has received of a stream, at any time, are the first events of it that have been in the log or have
been stored. -/
theorem Course.received_prefix (h : Course a s (opened q place' link port tasks) r es) (t : Stream) :
    (r.received.filter fun e => e.stream = t) <+:
      events t (Service.start ⟨q, ⟨place', none⟩⟩).lines ++ es.filter fun e => e.stream = t := by
  -- while the relay has not come to its end the queue tells what it has received
  have hgoes : ∀ {r es}, Course a s (opened q place' link port tasks) r es → (∀ result, r.stage ≠ .done result) →
      (r.received.filter fun e => e.stream = t) <+:
        events t (Service.start ⟨q, ⟨place', none⟩⟩).lines ++ es.filter fun e => e.stream = t := by
    intro r es hr hgoes
    obtain ⟨v, -, -, -, hevents⟩ := hr.left hopen fun result hdone => absurd hdone (hgoes result)
    exact ⟨_, (hevents t).1⟩
  induction h with
  | start => exact List.nil_prefix
  | @worked r r' es hr hstep ih =>
    have hnext := hr.worked hstep
    cases turn_of_step? hstep with
    | @power p l =>
      refine hgoes hnext fun result hdone => ?_
      rcases poweringStage_cases p.command s.devices with ⟨-, heq⟩ | ⟨_, _, -, heq⟩
      · exact absurd (heq.symm.trans hdone) fun hne => by cases hne
      · exact absurd (heq.symm.trans hdone) fun hne => by cases hne
    | key hstage => exact hgoes hnext fun result hdone => absurd (hstage.symm.trans hdone) fun hne => by cases hne
    | _ => exact ih
  | beside _ _ ih =>
    rw [List.filter_append, ← List.append_assoc]
    exact ih.trans (List.prefix_append _ _)
  | closedBeside _ _ ih | asked _ ih | taskEnded _ _ ih => exact ih
  | @gaveUp r es _ ih =>
    obtain ⟨tasks, heq⟩ := r.giveUp_eq
    rw [heq]
    exact ih

end Opened

end Relay

/-! ### From the adapter to the queue -/

/-- The log of a queue that is open could not be written for an event. -/
inductive Live.Fails (l : Live) (e : Event) : Live → Prop
  /-- What has been written has been taken back. -/
  | whole {l' : Live} {now : Time.Stamp} {cause : RelayError} : l.append now e = (l', .error (.error cause)) →
    Fails l e l'
  /-- It stays. -/
  | partly {now : Time.Stamp} (n i : Nat) : now.Valid → l.queue.closed = false →
    Fails l e
      { l with
        disk := Effect.crash n i (l.queue.journal.appendEffects l.disk.log
          (Envelope.line l.queue.journal.nextSeq now e)) l.disk }

/-- A queue that is closed stores nothing. -/
theorem Live.append_ok_none {l l' : Live} {now : Time.Stamp} {e : Event} (h : l.append now e = (l', .ok none)) :
    l.queue.closed = true ∧ l' = l := by
  rw [append] at h
  split at h
  next hclosed =>
    cases h
    exact ⟨hclosed, rfl⟩
  next =>
    rcases happ : l.queue.journal.append now e l.disk with ⟨j, d, cause | seq⟩
    · rw [happ] at h
      cases h
    · rw [happ] at h
      cases h

theorem Live.Fails.beside {l l' : Live} {e : Event} (h : l.Fails e l') : l.Beside .silent l' := by
  cases h with
  | whole happ => exact .refused happ
  | partly n i hvalid hopen => exact .refusedPartly n i hvalid hopen

/-- A relay, the keys that are pushed for it, and the task that has them stored. -/
structure Intake (σ : Type) where
  /-- The relay. -/
  relay : Relay σ
  /-- The keys that have been pushed, in order. -/
  pushed : List KeyPress := []
  /-- Those in the sink, the oldest first. -/
  sink : List KeyPress := []
  /-- The key that the task has taken and not stored yet. -/
  holding : Option KeyPress := none
  /-- Those that could not be written to the log. -/
  lost : List KeyPress := []

namespace Intake

variable {σ : Type} (a : Adapter σ) (s : RelaySettings) (task room : Nat)

/-- A step on the way of keys into the queue. The task is the one with this number among those of the relay, and the
sink has room for so many keys. -/
inductive Step (t : Intake σ) : Intake σ → Prop
  /-- The relay and others go on. Others store power events, but no keys. -/
  | others {r : Relay σ} {es : List Event} : Relay.Course a s t.relay r es → (∀ e ∈ es, e.stream = .power) →
    Step t { t with relay := r }
  /-- A handle that has been directed to the sink, the first one or a later one, pushes a key. -/
  | pushes (k : KeyPress) (handle : Nat) : .attached handle ∈ t.relay.hardware.port.calls → t.sink.length < room →
    Step t { t with pushed := t.pushed ++ [k], sink := t.sink ++ [k] }
  /-- The task takes the oldest key. -/
  | takes {k : KeyPress} {ks : List KeyPress} : t.relay.tasks[task]? = some .running → t.holding = none →
    t.sink = k :: ks → Step t { t with sink := ks, holding := some k }
  /-- The queue has stored the key, even if the task has been broken off in the meantime, and even if the program has
  broken off behind the line. -/
  | stores {k : KeyPress} {x : Happening} {l : Live} : t.holding = some k → t.relay.live.Beside x l →
    x.event = [.key k] → Step t { t with relay := { t.relay with live := l }, holding := none }
  /-- The queue is closed and refuses the key. -/
  | refused {k : KeyPress} : t.holding = some k → t.relay.live.queue.closed = true →
    Step t { t with holding := none }
  /-- The key could not be written. -/
  | fails {k : KeyPress} {l : Live} : t.holding = some k → t.relay.live.Fails (.key k) l →
    Step t { t with relay := { t.relay with live := l }, holding := none, lost := t.lost ++ [k] }

/-- Any number of such steps. -/
inductive Run (t₀ : Intake σ) : Intake σ → Prop
  /-- None. -/
  | start : Run t₀ t₀
  /-- One more. -/
  | step {t t' : Intake σ} : Run t₀ t → Step a s task room t t' → Run t₀ t'

/-- The keys that the task has done with are those that have been taken and are not being stored; of these `stored`
have been stored, in order, and all of them unless some could not be written or the queue has been closed. -/
structure Keeps (r₀ : Relay σ) (t : Intake σ) (es : List Event) (done stored : List KeyPress) : Prop where
  /-- The events that have been stored. -/
  course : Relay.Course a s r₀ t.relay es
  /-- The keys among them. -/
  keys : es.filterMap Event.key? = stored
  /-- No key is anywhere else. -/
  pushed : t.pushed = done ++ t.holding.toList ++ t.sink
  /-- The order is kept. -/
  sublist : stored.Sublist done
  /-- Keys are left out at the end. -/
  whole : t.lost = [] → stored <+: done ∧ (t.relay.live.queue.closed = false → stored = done)

variable {a s task room} {r₀ : Relay σ} {t t' : Intake σ} {es : List Event} {done stored : List KeyPress}

theorem filterMap_key?_of_power (h : ∀ e ∈ es, e.stream = .power) : es.filterMap Event.key? = [] := by
  refine List.filterMap_eq_nil_iff.2 fun e he => ?_
  cases e with
  | key => cases h _ he
  | power => rfl

/-- A step keeps the order of keys. -/
theorem Keeps.step (h : Keeps a s r₀ t es done stored) (hstep : Step a s task room t t') :
    ∃ es done stored, Keeps a s r₀ t' es done stored := by
  have hpushed := h.pushed
  have hdone : ∀ {k}, t.holding = some k → t.pushed = done ++ [k] ++ [] ++ t.sink := by
    intro k hsome
    rw [hpushed, hsome, List.append_nil]
    rfl
  cases hstep with
  | @others r es' hc hpower =>
    refine ⟨es ++ es', done, stored, { h with course := h.course.trans hc, keys := ?_, whole := fun hlost => ?_ }⟩
    · rw [List.filterMap_append, h.keys, filterMap_key?_of_power hpower, List.append_nil]
    · refine ⟨(h.whole hlost).1, fun hopen => (h.whole hlost).2 ?_⟩
      -- a queue that is closed stays so
      rw [← Bool.not_eq_true] at hopen ⊢
      exact fun hclosed => hopen (hc.closed hclosed).1
  | pushes k _ =>
    refine ⟨es, done, stored, { h with pushed := ?_ }⟩
    rw [hpushed, List.append_assoc]
  | @takes k ks _ hnone hsink =>
    refine ⟨es, done, stored, { h with pushed := ?_ }⟩
    rw [hpushed, hnone, hsink, List.append_assoc, List.append_assoc]
    rfl
  | @stores k x l hsome hbeside hkey =>
    have hopen : t.relay.live.queue.closed = false := by
      rw [← Bool.not_eq_true]
      intro hclosed
      cases hkey.symm.trans (hbeside.none_accepted hclosed)
    refine ⟨es ++ x.event, done ++ [k], stored ++ [k],
      { course := h.course.beside hbeside
        keys := ?_
        pushed := hdone hsome
        sublist := h.sublist.append_right [k]
        whole := fun hlost => ?_ }⟩
    · rw [List.filterMap_append, h.keys, hkey]
      rfl
    · rw [(h.whole hlost).2 hopen]
      exact ⟨List.prefix_rfl, fun _ => rfl⟩
  | @refused k hsome hclosed =>
    refine ⟨es, done ++ [k], stored,
      { h with
        pushed := hdone hsome
        sublist := h.sublist.trans (List.sublist_append_left ..)
        whole := fun hlost => ⟨(h.whole hlost).1.trans (List.prefix_append ..), fun hopen => ?_⟩ }⟩
    rw [show t.relay.live.queue.closed = false from hopen] at hclosed
    cases hclosed
  | @fails k l hsome hfails =>
    exact ⟨es, done ++ [k], stored,
      { course := List.append_nil es ▸ h.course.beside hfails.beside
        keys := h.keys
        pushed := hdone hsome
        sublist := h.sublist.trans (List.sublist_append_left ..)
        whole := fun hlost => absurd hlost (List.append_ne_nil_of_right_ne_nil _ (List.cons_ne_nil _ _)) }⟩

theorem Run.kept {t₀ : Intake σ} (h : Run a s task room t₀ t) (h₀ : Keeps a s r₀ t₀ [] [] []) :
    ∃ es done stored, Keeps a s r₀ t es done stored := by
  induction h with
  | start => exact ⟨[], [], [], h₀⟩
  | step _ hstep ih =>
    obtain ⟨es, done, stored, hk⟩ := ih
    exact hk.step hstep

/-- To have the oldest key stored is to take it and to be done with it. -/
theorem exists_run_enqueue {t₀ : Intake σ} (h : Run a s task room t₀ t)
    (hrunning : t.relay.tasks[task]? = some .running) (hnone : t.holding = none) {k : KeyPress} {ks : List KeyPress}
    (hsink : t.sink = k :: ks) {now : Time.Stamp} (hvalid : now.Valid) :
    ∃ lost, Run a s task room t₀
      { t with
        relay := { t.relay with live := (t.relay.live.enqueue now (.key k)).1 }, sink := ks, lost := lost } := by
  have htaken := h.step (.takes hrunning hnone hsink)
  rcases happ : t.relay.live.append now (.key k) with ⟨l, (cause | _) | _ | seq⟩
  · rw [Live.enqueue, happ]
    exact ⟨_, hnone ▸ htaken.step (.fails rfl (.whole happ))⟩
  · rw [Live.enqueue, happ]
    exact ⟨t.lost, hnone ▸ htaken.step (.stores rfl (.untold hvalid happ) rfl)⟩
  · rw [Live.enqueue, happ]
    obtain ⟨hclosed, rfl⟩ := Live.append_ok_none happ
    exact ⟨t.lost, hnone ▸ htaken.step (.refused rfl hclosed)⟩
  · rw [Live.enqueue, happ]
    have hstored := htaken.step (.stores rfl (.accepted hvalid happ) rfl)
    have hwoken := hstored.step (.others (.beside .start .notified) fun _ hmem => (by cases hmem))
    exact ⟨t.lost, hnone ▸ hwoken⟩

/-- To store all keys in the sink one after the other, as the program does with those that its client has reported,
is such a run. -/
theorem exists_run_stored {t₀ : Intake σ} (h : Run a s task room t₀ t)
    (hrunning : t.relay.tasks[task]? = some .running) (hnone : t.holding = none) {now : Time.Stamp}
    (hvalid : now.Valid) :
    ∃ lost, Run a s task room t₀
      { t with relay := t.relay.stored now (t.sink.map .key), sink := [], lost := lost } := by
  obtain ⟨ks, hsink⟩ : ∃ ks, t.sink = ks := ⟨_, rfl⟩
  rw [hsink]
  induction ks generalizing t with
  | nil =>
    obtain ⟨relay, pushed, sink, holding, lost⟩ := t
    cases hsink
    exact ⟨lost, h⟩
  | cons k ks ih =>
    obtain ⟨lost, hone⟩ := exists_run_enqueue h hrunning hnone hsink hvalid
    exact ih hone hrunning hnone rfl

/-- What has been stored are keys that have been pushed, in their order, and the first of them unless some could not
be written. -/
theorem Keeps.stored_pushed (h : Keeps a s r₀ t es done stored) :
    stored.Sublist t.pushed ∧ (t.lost = [] → stored <+: t.pushed) := by
  have hdone : done <+: t.pushed := by
    rw [h.pushed, List.append_assoc]
    exact List.prefix_append ..
  exact ⟨h.sublist.trans hdone.sublist, fun hlost => (h.whole hlost).1.trans hdone⟩

section Opened

variable {place place' : Place} {capacity : Nat} {q : Queue} (hbare : place.Bare)
  (hopen : Queue.open? s.program.queueDir capacity place = (place', .ok q)) {link : Link} {port : Port σ}
  {tasks : Nat}

include hbare hopen in
/-- On an empty folder what the relay has received are the first keys that have been stored. -/
theorem received_keys (h : Relay.Course a s (Relay.opened q place' link port tasks) r₀ es) :
    r₀.received.filterMap Event.key? <+: es.filterMap Event.key? := by
  obtain ⟨f, hf⟩ := hbare.finds
  have hnone : (Service.start ⟨q, ⟨place', none⟩⟩).lines = [] := by
    rw [Service.lines_start hf hopen, List.drop_nil]
    rfl
  have hfirst := h.received_prefix hopen .keys
  rw [hnone, show events .keys [] = [] from rfl, List.nil_append] at hfirst
  have hkeys := hfirst.filterMap Event.key?
  rw [Relay.filterMap_key?, Relay.filterMap_key?] at hkeys
  exact hkeys

include hbare hopen in
/-- A relay is opened on an empty folder, on lanes of any length, and keys are pushed for it into a sink of any room,
beside whatever else there is to do. At any time it has received keys that have been pushed, in their order, and has
passed on the codes of the presses among them. Unless some keys could not be written to the log these are the first
keys that have been pushed, and what has been passed on are the codes of the first presses. With any table the strokes
made of them are those that their codes have in the table, in order, without those that are empty. -/
theorem Run.relays {t : Intake σ} (h : Run a s task room { relay := Relay.opened q place' link port tasks } t) :
    ∃ received : List KeyPress, t.relay.received.filterMap Event.key? = received ∧
      t.relay.pressed = KeyPress.presses received ∧ received.Sublist t.pushed ∧
      (t.lost = [] → received <+: t.pushed ∧ t.relay.pressed <+: KeyPress.presses t.pushed) ∧
      ∀ table : KeyTable, table.strokes t.relay.pressed =
        (t.relay.pressed.filterMap table.stroke?).filter fun stroke => stroke ≠ [] := by
  have h₀ : Keeps a s (Relay.opened q place' link port tasks) { relay := Relay.opened q place' link port tasks }
      [] [] [] :=
    ⟨.start, rfl, rfl, List.nil_sublist _, fun _ => ⟨List.nil_prefix, fun _ => rfl⟩⟩
  obtain ⟨es, done, stored, hk⟩ := h.kept h₀
  have hreceived := received_keys hbare hopen hk.course
  rw [hk.keys] at hreceived
  have hpressed := hk.course.pressed rfl
  obtain ⟨hsublist, hwhole⟩ := hk.stored_pushed
  refine ⟨_, rfl, hpressed, hreceived.sublist.trans hsublist, fun hlost => ?_, fun table => table.strokes_eq _⟩
  have hfirst := hreceived.trans (hwhole hlost)
  refine ⟨hfirst, ?_⟩
  rw [hpressed]
  exact (hfirst.filter _).map KeyPress.code

end Opened

/-- A key in the log comes into its lane, is received, and is passed on. -/
theorem exists_course_oneKey : ∃ r : Relay Script,
    Relay.Course Script.adapter Relay.oneDevice
      { Relay.besideOneTask with live := .oneKey {} [] 0 .top false } r [] ∧ r.pressed = [1] := by
  have hc : Relay.Course Script.adapter Relay.oneDevice
      { Relay.besideOneTask with live := .oneKey {} [] 0 .top false } _ _ := .start
  have hc₁ := hc.beside (.pumped (show _ = some (Live.oneKey {} [] 0 .reading false) from rfl))
  have hc₂ := hc₁.beside (.pumped Live.step?_oneKey)
  have hc₃ := hc₂.beside (.pumped (show _ = some
    (Live.oneKey ⟨[⟨112, some .keys, false⟩], none⟩ [⟨1, 0⟩] 0 (.moving 112) false) from rfl))
  exact ⟨_, hc₃.worked rfl, rfl⟩

/-- A key is pushed, and its release after it. The first is stored, received and passed on while the second is still
in the sink. -/
theorem relays_one_key : ∃ t : Intake Script,
    Place.Bare .missing ∧
    Queue.open? Relay.oneDevice.program.queueDir 1 .missing =
      (.folder { log := some (.file []) }, .ok (.ofJournal ⟨{}, 0, 0, 0⟩ 1)) ∧
    Run Script.adapter Relay.oneDevice 0 2 { relay := Relay.besideOneTask } t ∧
    t.pushed = [⟨1, 0⟩, ⟨1, 80⟩] ∧ t.sink = [⟨1, 80⟩] ∧ t.lost = [] ∧ t.relay.pressed = [1] ∧
    t.relay.pressed <+: KeyPress.presses t.pushed ∧
    KeyTable.baseTable.strokes t.relay.pressed =
      (t.relay.pressed.filterMap KeyTable.baseTable.stroke?).filter fun stroke => stroke ≠ [] := by
  have hbare : Place.Bare .missing := trivial
  have hopen : Queue.open? Relay.oneDevice.program.queueDir 1 .missing =
      (.folder { log := some (.file []) }, .ok (.ofJournal ⟨{}, 0, 0, 0⟩ 1)) := rfl
  have hattached : Call.attached 1 ∈ Relay.besideOneTask.hardware.port.calls := by decide
  have h₀ : Run Script.adapter Relay.oneDevice 0 2 { relay := Relay.besideOneTask } _ := .start
  -- both are pushed, and the first is taken and stored
  have h₁ := (h₀.step (.pushes ⟨1, 0⟩ 1 hattached (by decide))).step (.pushes ⟨1, 80⟩ 1 hattached (by decide))
  have h₂ := (h₁.step (.takes rfl rfl rfl)).step (.stores rfl (.accepted (by decide) Live.append_oneKey) rfl)
  obtain ⟨r, hcourse, hpressed⟩ := exists_course_oneKey
  have h₃ := h₂.step (.others hcourse fun _ hmem => (by cases hmem))
  obtain ⟨received, -, -, -, hfirst, hstrokes⟩ := h₃.relays hbare hopen
  exact ⟨_, hbare, hopen, h₃, rfl, rfl, rfl, hpressed, (hfirst rfl).2, hstrokes _⟩

/-- Two keys are pushed. The first cannot be written to the log and is left out; the second is stored, received and
passed on. -/
theorem not_first_after_failure : ∃ t : Intake Script,
    Place.Bare .missing ∧
    Queue.open? Relay.oneDevice.program.queueDir 1 .missing =
      (.folder { log := some (.file []) }, .ok (.ofJournal ⟨{}, 0, 0, 0⟩ 1)) ∧
    Run Script.adapter Relay.oneDevice 0 2 { relay := Relay.besideOneTask } t ∧
    t.pushed = [⟨2, 0⟩, ⟨1, 0⟩] ∧ t.sink = [] ∧ t.holding = none ∧ t.relay.pressed = [1] ∧
    ¬ t.relay.pressed <+: KeyPress.presses t.pushed := by
  have hattached : Call.attached 1 ∈ Relay.besideOneTask.hardware.port.calls := by decide
  have h₀ : Run Script.adapter Relay.oneDevice 0 2 { relay := Relay.besideOneTask } _ := .start
  have h₁ := (h₀.step (.pushes ⟨2, 0⟩ 1 hattached (by decide))).step (.pushes ⟨1, 0⟩ 1 hattached (by decide))
  -- nothing is written of the first
  have hvalid : Time.Stamp.Valid ⟨⟨2024, 1, 1⟩, 0, 0, 0, 123456789⟩ := by decide
  have h₂ := (h₁.step (.takes rfl rfl rfl)).step (.fails rfl (.partly 0 0 hvalid rfl))
  have h₃ := (h₂.step (.takes rfl rfl rfl)).step (.stores rfl (.accepted hvalid Live.append_oneKey) rfl)
  obtain ⟨r, hcourse, hpressed⟩ := exists_course_oneKey
  have h₄ := h₃.step (.others hcourse fun _ hmem => (by cases hmem))
  refine ⟨_, trivial, rfl, h₄, rfl, rfl, rfl, hpressed, fun hfirst => ?_⟩
  change _ <+: KeyPress.presses [⟨2, 0⟩, ⟨1, 0⟩] at hfirst
  rw [hpressed, show KeyPress.presses [⟨2, 0⟩, ⟨1, 0⟩] = [2, 1] by decide] at hfirst
  exact absurd hfirst (by decide)

end Intake
end CecRelay
