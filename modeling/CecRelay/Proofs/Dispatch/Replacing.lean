import CecRelay.Adapter.Scripted
import CecRelay.Proofs.Adapter.Calls
import CecRelay.Proofs.Dispatch.Course

/-!
# Replacing the program

When the relay has the program replaced all that has to be over is over (`Relay.Handover`): it has been
cancelled, its tasks have ended or been broken off, every handle of the adapter is closed, the queue is closed
for good, and what has been stored and not received is in its log. This happens once in a course at most,
and only after a power command has been given up (`Relay.Course.handover`).

What is over by then is told stage by stage (`Relay.InStage`).
-/

namespace CecRelay

open Lines

variable {σ : Type} (a : Adapter σ) (s : RelaySettings)

/-! ### Commands that are given up -/

/-- With these errors a power command is given up. -/
def RelaySettings.Hard : RelayError → Prop
  | .reconnectExhausted attempts => attempts = s.policy.attempts
  | .commandFailed _ address => address ∈ s.devices
  | _ => False

/-- A command goes to one of the devices, and if it has not gone through it has been given up. -/
def RelaySettings.Allows : Caller → Prop
  | .first _ address | .replacing _ address _ | .second _ address => address ∈ s.devices
  | .done (.ok ()) => True
  | .done (.error cause) => s.Hard cause

theorem Hardware.replaceFrom_error {policy : LinkPolicy} {h h' : Hardware σ} {g : Nat} {cause : RelayError}
    (heq : h.replaceFrom a policy g = (.error cause, h')) : cause = .reconnectExhausted policy.attempts := by
  rw [replaceFrom] at heq
  split at heq
  · cases heq
    rfl
  · split at heq
    · cases heq
    · rw [replace] at heq
      split at heq
      next => cases heq
      next =>
        cases heq
        rfl

theorem RelaySettings.Allows.step {c : Caller} (hc : s.Allows c) (h : Hardware σ) :
    s.Allows (c.step a s.policy h).1 := by
  cases c with
  | first command address =>
    rw [Caller.step]
    split
    · trivial
    · exact hc
  | replacing command address g =>
    rw [Caller.step]
    split
    · exact hc
    next cause h' heq =>
      obtain rfl := Hardware.replaceFrom_error a heq
      rfl
  | second command address =>
    rw [Caller.step]
    split
    · trivial
    · exact hc
  | done result => exact hc

/-- A plan hands over the folder of the queue and one restart less. -/
theorem Program.plan?_some {p : Program} {budget : UInt32} {plan : RestartPlan} (h : p.plan? budget = some plan) :
    (budget - 1).toNat + 1 = budget.toNat ∧ ∃ path, p.path = some path ∧
      plan = ⟨path, p.args, [(queueDirVariable, p.queueDir), (budgetVariable, toString (budget - 1))]⟩ := by
  rw [plan?] at h
  split at h
  next => cases h
  next hleft =>
    obtain ⟨path, hpath, rfl⟩ := Option.map_eq_some_iff.1 h
    refine ⟨?_, path, hpath, rfl⟩
    have hpos : 0 < budget.toNat := Nat.pos_of_ne_zero fun hzero => hleft (UInt32.toNat_inj.1 hzero)
    have hone : (1 : UInt32).toNat = 1 := rfl
    rw [UInt32.toNat_sub_of_le budget 1 hpos, hone]
    omega

namespace Relay

/-! ### What is over in a stage -/

/-- The course has passed a relay of which `P` holds. -/
def Passed (P : Relay σ → Prop) (r₀ r : Relay σ) : Prop :=
  ∃ u es es', Course a s r₀ u es ∧ P u ∧ Course a s u r es'

/-- A command has been given up with an error. -/
def GaveUp (cause : RelayError) (u : Relay σ) : Prop :=
  ∃ command rest, u.stage = .powering (.done (.error cause)) command rest

/-- A task has been broken off after the relay has been cancelled, as it did not end in time. -/
def BrokeOff (k : Nat) (u : Relay σ) : Prop :=
  ∃ w leaving, u = giveUp w ∧ w.cancelled = true ∧ w.stage = .stopping leaving k ∧ w.tasks[k]? = some .running

/-- The relay is about to end, and why. -/
structure Ending (r₀ r : Relay σ) (leaving : Leaving) : Prop where
  /-- It has been cancelled. -/
  cancelled : r.cancelled = true
  /-- If it has not been asked to, a command has been given up. -/
  cause : ∀ cause, leaving = .escalated cause → s.Hard cause ∧ Passed a s (GaveUp cause) r₀ r

/-- Its tasks are over and its adapter is closed. -/
structure Released (r₀ r : Relay σ) (leaving : Leaving) (replaced : Bool) : Prop where
  /-- It is about to end. -/
  ending : Ending a s r₀ r leaving
  /-- The tasks. -/
  tasks : ∀ k : Nat, r.tasks[k]? ≠ some .running
  /-- The adapter. -/
  handle : r.hardware.link.handle = none
  /-- The program has been replaced once at most. -/
  plans : r.plans.length ≤ 1
  /-- It has not been replaced if that is not behind the relay. -/
  before : replaced = false → r.plans = []

/-- What is over in a stage. -/
def InStage (r₀ r : Relay σ) : Stage → Prop
  | .choosing => r.plans = []
  | .powering c _ rest => r.plans = [] ∧ s.Allows c ∧ ∀ address ∈ rest, address ∈ s.devices
  | .stopping leaving k => r.plans = [] ∧ Ending a s r₀ r leaving ∧ ∀ j < k, r.tasks[j]? ≠ some .running
  | .releasing leaving => r.plans = [] ∧ Ending a s r₀ r leaving ∧ ∀ k : Nat, r.tasks[k]? ≠ some .running
  | .closing leaving replaced => Released a s r₀ r leaving replaced
  | .awaiting leaving replaced =>
    Released a s r₀ r leaving replaced ∧ r.live.queue.closed = true ∧ r.live.queue.cancelled = true
  | .ending leaving replaced _ =>
    Released a s r₀ r leaving replaced ∧ r.live.queue.closed = true ∧ r.live.queue.cancelled = true ∧
      r.live.ended = true
  | .replacing cause =>
    Released a s r₀ r (.escalated cause) false ∧ r.live.queue.closed = true ∧ r.live.queue.cancelled = true ∧
      r.live.ended = true
  | .done _ => r.plans.length ≤ 1

/-- What holds in a course. -/
structure Holds (r₀ r : Relay σ) : Prop where
  /-- The adapter's calls are in order. -/
  hardware : r.hardware.Keeps
  /-- Tasks are broken off when they do not end in time. -/
  aborted : ∀ k : Nat, r.tasks[k]? = some .aborted → Passed a s (BrokeOff k) r₀ r
  /-- What is over. -/
  stage : InStage a s r₀ r r.stage

variable {a s} {r₀ r r' : Relay σ} {es : List Event}

theorem Passed.on {P : Relay σ → Prop} (h : Passed a s P r₀ r) (hc : Course a s r r' es) : Passed a s P r₀ r' := by
  obtain ⟨u, es₁, es₂, hu, hp, hr⟩ := h
  exact ⟨u, es₁, es₂ ++ es, hu, hp, hr.trans hc⟩

theorem Ending.on {leaving : Leaving} (h : Ending a s r₀ r leaving) (hc : Course a s r r' es)
    (hcancelled : r.cancelled = true → r'.cancelled = true) : Ending a s r₀ r' leaving :=
  ⟨hcancelled h.cancelled, fun cause heq => (h.cause cause heq).imp_right fun hp => hp.on hc⟩

/-- What others do undoes nothing of what is over. -/
theorem InStage.on {stage : Stage} (h : InStage a s r₀ r stage) (hc : Course a s r r' es)
    (hhandle : r'.hardware = r.hardware) (hplans : r'.plans = r.plans)
    (hcancelled : r.cancelled = true → r'.cancelled = true)
    (htasks : ∀ k : Nat, r'.tasks[k]? = some .running → r.tasks[k]? = some .running)
    (hclosed : r.live.queue.closed = true → r'.live.queue.closed = true)
    (hstopped : r.live.queue.cancelled = true →
      r'.live.queue.cancelled = true ∧ (r.live.ended = true → r'.live.ended = true)) :
    InStage a s r₀ r' stage := by
  have hreleased : ∀ {leaving replaced}, Released a s r₀ r leaving replaced → Released a s r₀ r' leaving replaced :=
    fun h => ⟨h.ending.on hc hcancelled, fun k hk => h.tasks k (htasks k hk), by rw [hhandle]; exact h.handle,
      by rw [hplans]; exact h.plans, by rw [hplans]; exact h.before⟩
  cases stage with
  | choosing => exact hplans.trans h
  | powering c command rest => exact ⟨hplans.trans h.1, h.2⟩
  | stopping leaving k =>
    exact ⟨hplans.trans h.1, h.2.1.on hc hcancelled, fun j hj hr => h.2.2 j hj (htasks j hr)⟩
  | releasing leaving =>
    exact ⟨hplans.trans h.1, h.2.1.on hc hcancelled, fun j hr => h.2.2 j (htasks j hr)⟩
  | closing leaving replaced => exact hreleased h
  | awaiting leaving replaced => exact ⟨hreleased h.1, hclosed h.2.1, (hstopped h.2.2).1⟩
  | ending | replacing =>
    exact ⟨hreleased h.1, hclosed h.2.1, (hstopped h.2.2.1).1, (hstopped h.2.2.1).2 h.2.2.2⟩
  | done result =>
    rw [InStage, hplans]
    exact h

/-! ### Steps of the relay -/

theorem InStage.powers {command : PowerCommand} {devices : List UInt8} (hplans : r.plans = [])
    (hall : ∀ address ∈ devices, address ∈ s.devices) : InStage a s r₀ r (poweringStage command devices) := by
  rcases poweringStage_cases command devices with ⟨-, hnext⟩ | ⟨address, rest, rfl, hnext⟩
  · rw [hnext]
    exact hplans
  · rw [hnext]
    exact ⟨hplans, hall address List.mem_cons_self, fun x hx => hall x (List.mem_cons_of_mem _ hx)⟩

theorem plans_le (h : r.plans = []) : r.plans.length ≤ 1 := by
  rw [h]
  exact Nat.zero_le 1

/-- The program is replaced at most once, as a plan is carried out only when none has been. -/
theorem Released.planned {cause : RelayError} (h : Released a s r₀ r (.escalated cause) false) (plan : RestartPlan) :
    (r.plans ++ [plan]).length ≤ 1 := by
  rw [h.before rfl]
  exact Nat.le_refl 1

/-- A step of the relay. -/
theorem InStage.worked (h : InStage a s r₀ r r.stage) (hr : Course a s r₀ r es) (hk : r.hardware.Keeps)
    (hstep : r.step? a s = some r') : InStage a s r₀ r' r'.stage := by
  have hc : Course a s r r' [] := Course.start.worked hstep
  -- what is over in one stage of the ending is over in the next
  have hreleased : ∀ {leaving replaced}, Released a s r₀ r leaving replaced → r'.hardware = r.hardware →
      r'.plans = r.plans → r'.tasks = r.tasks → r'.cancelled = r.cancelled →
      Released a s r₀ r' leaving replaced := by
    intro leaving replaced h hhandle hplans htasks hcancelled
    exact ⟨h.ending.on hc (by rw [hcancelled]; exact id), by rw [htasks]; exact h.tasks,
      by rw [hhandle]; exact h.handle, by rw [hplans]; exact h.plans, by rw [hplans]; exact h.before⟩
  cases turn_of_step? hstep with
  | drains hstage =>
    rw [hstage] at h
    exact plans_le h
  | leaves hstage hcancelled =>
    rw [hstage] at h
    exact ⟨h, ⟨hcancelled, fun _ heq => (by cases heq)⟩, fun j hj => absurd hj (Nat.not_lt_zero j)⟩
  | power hstage =>
    rw [hstage] at h
    exact InStage.powers h fun address hmem => hmem
  | key hstage =>
    rw [takeKey, hstage]
    rw [hstage] at h
    exact h
  | ends keys power hstage =>
    rw [hstage] at h ⊢
    exact h
  | commands hstage =>
    rw [hstage] at h
    exact ⟨h.1, h.2.1.step a s _, h.2.2⟩
  | commanded hstage =>
    rw [hstage] at h
    exact InStage.powers h.1 h.2.2
  | escalates hstage =>
    rw [hstage] at h
    refine ⟨h.1, ⟨rfl, fun _ heq => ?_⟩, fun j hj => absurd hj (Nat.not_lt_zero j)⟩
    cases heq
    exact ⟨h.2.1, r, es, [], hr, ⟨_, _, hstage⟩, hc⟩
  | taskOver hstage ht hnot =>
    rw [hstage] at h
    refine ⟨h.1, h.2.1.on hc id, fun j hj hrunning => ?_⟩
    rcases Nat.lt_succ_iff_lt_or_eq.1 hj with hlt | rfl
    · exact h.2.2 j hlt hrunning
    · rw [ht] at hrunning
      exact hnot (Option.some.inj hrunning)
  | tasksOver hstage hnone =>
    rw [hstage] at h
    refine ⟨h.1, h.2.1.on hc id, fun j hrunning => ?_⟩
    -- there are no more tasks than those that are over
    have hlt := (List.getElem?_eq_some_iff.1 hrunning).1
    exact h.2.2 j (Nat.lt_of_lt_of_le hlt (List.getElem?_eq_none_iff.1 hnone)) hrunning
  | releases hstage =>
    rw [hstage] at h
    exact ⟨h.2.1.on hc id, h.2.2, (hk.release a).2, plans_le h.1, fun _ => h.1⟩
  | closes hstage =>
    rw [hstage] at h
    exact ⟨hreleased h rfl rfl rfl rfl, rfl, rfl⟩
  | takes hstage hended =>
    rw [hstage] at h
    exact ⟨hreleased h.1 rfl rfl rfl rfl, h.2.1, h.2.2, hended⟩
  | removes hstage =>
    rw [hstage] at h
    exact h.1.plans
  | @closed cause ready hstage =>
    rw [hstage] at h
    obtain ⟨hover, hclosed, hcancelled, hended⟩ := h
    obtain ⟨j, heq, -⟩ := Service.endClose_queue r.live false ready
    refine ⟨hreleased hover rfl rfl rfl rfl, (congrArg Queue.closed heq).trans hclosed,
      (congrArg Queue.cancelled heq).trans hcancelled, ?_⟩
    simp only [Live.ended, decide_eq_true_iff] at hended ⊢
    exact (congrArg Queue.phase heq).trans hended
  | fails hstage =>
    rw [hstage] at h
    exact h.1.plans
  | unplanned hstage =>
    rw [hstage] at h
    exact hreleased { h.1 with before := fun hfalse => (by cases hfalse) } rfl rfl rfl rfl
  | @replaces cause plan hstage =>
    rw [hstage] at h
    exact h.1.planned plan
  | @replacesNot cause plan hstage =>
    rw [hstage] at h
    exact ⟨h.1.ending.on hc id, h.1.tasks, h.1.handle, h.1.planned plan, fun hfalse => (by cases hfalse)⟩

/-- The adapter's calls stay in order. -/
theorem keeps_worked (hk : r.hardware.Keeps) (hstep : r.step? a s = some r') : r'.hardware.Keeps := by
  cases turn_of_step? hstep with
  | commands => exact Caller.step_keeps a s.policy hk _
  | releases => exact (hk.release a).1
  | _ => exact hk

/-- No step of the relay touches its tasks. -/
theorem tasks_worked (hstep : r.step? a s = some r') : r'.tasks = r.tasks := by
  cases turn_of_step? hstep with
  | _ => rfl

/-! ### Courses -/

/-- What a task is after a task has been set. -/
theorem getElem?_set_task {tasks : List TaskStatus} {j k : Nat} {t u : TaskStatus}
    (h : (tasks.set k t)[j]? = some u) : tasks[j]? = some u ∨ j = k ∧ u = t := by
  rw [List.getElem?_set] at h
  split at h
  next hkj =>
    split at h
    · exact .inr ⟨hkj.symm, (Option.some.inj h).symm⟩
    · cases h
  next => exact .inl h

/-- What others do. -/
theorem Holds.on (h : Holds a s r₀ r) (hr : Course a s r₀ r es) {es' : List Event} (hc : Course a s r r' es')
    (hhandle : r'.hardware = r.hardware) (hstage : r'.stage = r.stage) (hplans : r'.plans = r.plans)
    (hcancelled : r.cancelled = true → r'.cancelled = true)
    (htasks : ∀ (k : Nat) t, r'.tasks[k]? = some t →
      r.tasks[k]? = some t ∨ t = .ended ∨ t = .aborted ∧ BrokeOff k r')
    (hclosed : r.live.queue.closed = true → r'.live.queue.closed = true)
    (hstopped : r.live.queue.cancelled = true →
      r'.live.queue.cancelled = true ∧ (r.live.ended = true → r'.live.ended = true)) : Holds a s r₀ r' := by
  refine ⟨by rw [hhandle]; exact h.hardware, fun k hk => ?_, ?_⟩
  · rcases htasks k _ hk with hsame | heq | ⟨-, hbroke⟩
    · exact (h.aborted k hsame).on hc
    · cases heq
    · exact ⟨r', es ++ es', [], hr.trans hc, hbroke, .start⟩
  · rw [hstage]
    refine h.stage.on hc hhandle hplans hcancelled (fun k hk => ?_) hclosed hstopped
    rcases htasks k _ hk with hsame | heq | ⟨heq, -⟩
    · exact hsame
    · cases heq
    · cases heq

/-- Tasks are broken off only after the relay has been cancelled. -/
theorem Holds.gaveUp (h : Holds a s r₀ r) (hr : Course a s r₀ r es) : Holds a s r₀ r.giveUp := by
  have hc : Course a s r r.giveUp [] := .gaveUp .start
  rcases r.giveUp_cases with heq | ⟨leaving, j, hwaits, hj, heq⟩
  · rw [heq]
    exact h
  · have hover := h.stage
    rw [hwaits] at hover
    rw [heq] at hc ⊢
    refine h.on hr hc rfl rfl rfl id (fun k t hk => ?_) id fun hq => ⟨hq, id⟩
    rcases getElem?_set_task hk with hsame | ⟨rfl, rfl⟩
    · exact .inl hsame
    · exact .inr (.inr ⟨rfl, r, leaving, heq.symm, hover.2.1.cancelled, hwaits, hj⟩)

/-- What holds in a course holds in all of it. -/
theorem Course.holds (h : Course a s r₀ r es) (h₀ : Holds a s r₀ r₀) : Holds a s r₀ r := by
  induction h with
  | start => exact h₀
  | worked hr hstep ih =>
    refine ⟨keeps_worked ih.hardware hstep, fun k hk => ?_, ih.stage.worked hr ih.hardware hstep⟩
    rw [tasks_worked hstep] at hk
    exact (ih.aborted k hk).on (Course.start.worked hstep)
  | beside hr hbeside ih =>
    exact ih.on hr (.beside .start hbeside) rfl rfl rfl id (fun _ _ => .inl) hbeside.flags.1 hbeside.flags.2
  | closedBeside hr hclosed ih =>
    obtain ⟨hsame, hcancelled, hended⟩ := hclosed.flags
    exact ih.on hr (.closedBeside .start hclosed) rfl rfl rfl id (fun _ _ => .inl) hsame.trans
      fun hq => ⟨hcancelled.trans hq, hended.trans⟩
  | asked hr ih =>
    exact ih.on hr (.asked .start) rfl rfl rfl (fun _ => rfl) (fun _ _ => .inl) id fun hq => ⟨hq, id⟩
  | taskEnded hr hk ih =>
    refine ih.on hr (.taskEnded .start hk) rfl rfl rfl id (fun j t hj => ?_) id fun hq => ⟨hq, id⟩
    rcases getElem?_set_task hj with hsame | ⟨rfl, rfl⟩
    · exact .inl hsame
    · exact .inr (.inl rfl)
  | gaveUp hr ih => exact ih.gaveUp hr

/-- When the queue of a relay has been closed it accepts nothing more. -/
theorem Course.closed (h : Course a s r₀ r es) (hc : r₀.live.queue.closed = true) :
    r.live.queue.closed = true ∧ es = [] := by
  induction h with
  | start => exact ⟨hc, rfl⟩
  | @worked r r' es _ hstep ih =>
    refine ⟨?_, ih.2⟩
    have hclosed := ih.1
    cases turn_of_step? hstep with
    | power _ _ hreceive =>
      obtain ⟨l₁, htake, rfl⟩ := Live.take?_of_receivePower? hreceive
      exact (Live.acknowledge_closed htake).trans hclosed
    | key _ _ hreceive =>
      obtain ⟨l₁, htake, rfl⟩ := Live.take?_of_receiveKey? hreceive
      exact (Live.acknowledge_closed htake).trans hclosed
    | closes => rfl
    | @closed _ ready | @fails _ ready =>
      obtain ⟨j, heq, -⟩ := Service.endClose_queue r.live false ready
      exact (congrArg Queue.closed heq).trans hclosed
    | removes => exact (congrArg Queue.closed (Service.removeFolder_queue r.live)).trans hclosed
    | _ => exact hclosed
  | beside _ hbeside ih => exact ⟨hbeside.flags.1 ih.1, by rw [ih.2, hbeside.none_accepted ih.1, List.append_nil]⟩
  | closedBeside _ hclosed ih => exact ⟨hclosed.flags.1.trans ih.1, ih.2⟩
  | asked _ ih => exact ih
  | taskEnded _ _ ih => exact ih
  | @gaveUp r es _ ih =>
    obtain ⟨tasks, heq⟩ := r.giveUp_eq
    rw [heq]
    exact ih

/-! ### The moment of replacing -/

/-- A relay on a queue and a link that have just been opened, beside a number of tasks. -/
def opened (q : Queue) (place : Place) (link : Link) (port : Port σ) (tasks : Nat) : Relay σ :=
  { live := ⟨q, ⟨place, none⟩⟩, hardware := ⟨link, port⟩, tasks := List.replicate tasks .running }

variable (a s) in
/-- What is over when the relay has the program replaced. -/
structure Handover (r₀ r : Relay σ) (es : List Event) (plan : RestartPlan) : Prop where
  /-- It has not been replaced before. -/
  first : r.plans = []
  /-- The relay has been cancelled. -/
  cancelled : r.cancelled = true
  /-- Every task has ended or been broken off. -/
  tasks : ∀ (k : Nat) t, r.tasks[k]? = some t → t = .ended ∨ t = .aborted ∧ Passed a s (BrokeOff k) r₀ r
  /-- Every handle that has been opened is closed. -/
  handles : ∀ k, Call.opened k ∈ r.hardware.port.calls → Call.closed k ∈ r.hardware.port.calls
  /-- The pump of the queue has stopped. -/
  stopped : r.live.ended = true
  /-- The queue accepts nothing any more. -/
  closed : ∀ r' es', Course a s r r' es' → es' = [] ∧ ∀ now e, (r'.live.enqueue now e).2 = none
  /-- What has been stored and not been received is in the log. Behind it there is only what an append has left that
  broke off. -/
  kept : ∀ t, ∃ left, (r.received.filter fun e => e.stream = t) ++ left =
    events t (Service.start r₀.live).lines ++ (es.filter fun e => e.stream = t) ∧
      left ++ events t r.left <:+ events t (lines r.live.disk.log)
  /-- Restarts are left, and one less afterwards. -/
  budget : (s.budget - 1).toNat + 1 = s.budget.toNat
  /-- The plan. -/
  plan : ∃ path, s.program.path = some path ∧ plan = ⟨path, s.program.args,
    [(queueDirVariable, s.program.queueDir), (budgetVariable, toString (s.budget - 1))]⟩
  /-- A command has been given up. -/
  cause : ∃ cause, s.Hard cause ∧ Passed a s (GaveUp cause) r₀ r

/-- The program has been replaced once at most in every stage. -/
theorem InStage.plans {stage : Stage} (h : InStage a s r₀ r stage) : r.plans.length ≤ 1 := by
  cases stage with
  | choosing => exact plans_le h
  | powering => exact plans_le h.1
  | stopping => exact plans_le h.1
  | releasing => exact plans_le h.1
  | closing => exact Released.plans h
  | awaiting => exact h.1.plans
  | ending => exact h.1.plans
  | replacing => exact h.1.plans
  | done => exact h

/-- A plan is carried out where the program is to be replaced. -/
theorem replacing_of_planned {plan : RestartPlan} (hstep : r.step? a s = some r')
    (hplan : r'.plans = r.plans ++ [plan]) :
    ∃ cause, r.stage = .replacing cause ∧ s.program.plan? s.budget = some plan := by
  have hnot : r.plans ≠ r.plans ++ [plan] := fun heq => by simpa using congrArg List.length heq
  cases turn_of_step? hstep with
  | replaces hstage hplanned =>
    obtain rfl := List.singleton_inj.1 (List.append_cancel_left hplan)
    exact ⟨_, hstage, hplanned⟩
  | replacesNot hstage hplanned =>
    obtain rfl := List.singleton_inj.1 (List.append_cancel_left hplan)
    exact ⟨_, hstage, hplanned⟩
  | _ => exact absurd hplan hnot

theorem Released.not_running (h : Holds a s r₀ r) {leaving : Leaving} {replaced : Bool}
    (hreleased : Released a s r₀ r leaving replaced) {k : Nat} {t : TaskStatus} (hk : r.tasks[k]? = some t) :
    t = .ended ∨ t = .aborted ∧ Passed a s (BrokeOff k) r₀ r := by
  cases t with
  | running => exact absurd hk (hreleased.tasks k)
  | ended => exact .inl rfl
  | aborted => exact .inr ⟨rfl, h.aborted k hk⟩

section Opened

variable {place place' : Place} {capacity : Nat} {q : Queue}
  (hopen : Queue.open? s.program.queueDir capacity place = (place', .ok q)) {inner : σ} {link : Link} {port : Port σ}
  (hconnect : Hardware.connect a ⟨inner, 0, []⟩ = (.ok link, port)) {tasks : Nat}

include hconnect in
/-- A relay that has not begun, on any queue. -/
theorem holds_fresh (l : Live) :
    Holds a s { live := l, hardware := ⟨link, port⟩, tasks := List.replicate tasks .running }
      { live := l, hardware := ⟨link, port⟩, tasks := List.replicate tasks .running } := by
  refine ⟨(Hardware.Keeps.connected a hconnect).2.2.2, fun k hk => ?_, rfl⟩
  simp only [List.getElem?_replicate] at hk
  split at hk
  · cases hk
  · cases hk

include hconnect in
theorem holds_opened : Holds a s (opened q place' link port tasks) (opened q place' link port tasks) :=
  holds_fresh hconnect _

include hopen in
/-- What has been stored and not received. -/
theorem Course.left (h : Course a s (opened q place' link port tasks) r es)
    (hkept : ∀ result, r.stage = .done result → ¬ Removed result) :
    ∃ v, Service.Reaches (.start ⟨q, ⟨place', none⟩⟩) v ∧ v.live = r.live ∧ v.gone = false ∧ ∀ t,
      (r.received.filter fun e => e.stream = t) ++ (events t v.lines).drop (v.got t).length =
        events t (Service.start ⟨q, ⟨place', none⟩⟩).lines ++ (es.filter fun e => e.stream = t) ∧
      (events t v.lines).drop (v.got t).length ++ events t r.left =
        (events t (v.lines ++ v.left)).drop (v.got t).length := by
  obtain ⟨j, hopened, -⟩ := Service.exists_journal hopen
  obtain ⟨f, log, c, hf⟩ := Journal.exists_finds hopened
  obtain ⟨v, hv⟩ := h.tracks rfl rfl rfl hkept
  refine ⟨v, hv.reaches, hv.live, hv.there, fun t => ?_⟩
  exact hv.left (hv.reaches.sound (Service.sound_start hf hopen)) t

include hopen hconnect in
/-- A relay is opened on any place and any adapter, beside any number of tasks, and takes any course. It has the
program replaced once at most, and when it does all that has to be over is over. What has been stored and not received
the next queue finds, unless the cursor that was there before has been refused, and it hands that out unless the last
number is the greatest of all. -/
theorem Course.handover (h : Course a s (opened q place' link port tasks) r es) :
    r.plans.length ≤ 1 ∧
    ∀ r' plan, r.step? a s = some r' → r'.plans = r.plans ++ [plan] →
      Handover a s (opened q place' link port tasks) r es plan ∧
      ∀ f log c, place.Finds f log c → Journal.startOffset log c = c.offset → ∃ out,
        r.live.disk.place.Offers out ∧
        (r.live.disk.place.HandsOut out ↔ Journal.lastSeq? out ≠ some Journal.greatest) ∧ ∀ t, ∃ left,
          (r.received.filter fun e => e.stream = t) ++ left =
            events t (Service.start ⟨q, ⟨place', none⟩⟩).lines ++ (es.filter fun e => e.stream = t) ∧
          left ++ events t r.left <:+ events t out := by
  have hholds := h.holds (holds_opened hconnect)
  refine ⟨hholds.stage.plans, fun r' plan hstep hplan => ?_⟩
  obtain ⟨cause, hstage, hplanned⟩ := replacing_of_planned hstep hplan
  have hover := hholds.stage
  rw [hstage] at hover
  obtain ⟨hreleased, hclosed, hcancelled, hended⟩ := hover
  obtain ⟨hbudget, hplan'⟩ := Program.plan?_some hplanned
  obtain ⟨v, hv, hlive, hthere, hevents⟩ := h.left hopen fun result hdone => by
    rw [hstage] at hdone
    cases hdone
  obtain ⟨j, hopened, -⟩ := Service.exists_journal hopen
  obtain ⟨f₀, log₀, c₀, hf₀⟩ := Journal.exists_finds hopened
  have hs := hv.sound (Service.sound_start hf₀ hopen)
  refine ⟨
    { first := hreleased.before rfl
      cancelled := hreleased.ending.cancelled
      tasks := fun k t hk => hreleased.not_running hholds hk
      handles := fun k hk => ?_
      stopped := hended
      closed := fun u es' hu => ?_
      kept := fun t => ⟨_, (hevents t).1, ?_⟩
      budget := hbudget
      plan := hplan'
      cause := ⟨cause, hreleased.ending.cause cause rfl⟩ }, fun f log c hf hcounts => ?_⟩
  · by_contra hopenk
    have hhandle := (hholds.hardware.port.live k).1 ⟨hk, hopenk⟩
    rw [hreleased.handle] at hhandle
    cases hhandle
  · obtain ⟨hc, hes⟩ := hu.closed hclosed
    exact ⟨hes, fun now e => by rw [Live.enqueue_closed hc]⟩
  · rw [(hevents t).2, ← hlive]
    exact hs.left_suffix hthere t
  · obtain ⟨f', log', c', hf', hiff⟩ := (hv.sound (Service.sound_start hf hopen)).next_iff hf.cursor hthere
    rw [hlive] at hf'
    refine ⟨_, hf'.offers, hf'.offers.handsOut_iff, fun t => ⟨_, (hevents t).1, ?_⟩⟩
    rw [(hevents t).2]
    exact hiff.2 (fun hrefused => hrefused.1 hcounts) t

end Opened

/-! ### One power event -/

/-- One device and two restarts left. -/
def oneDevice : RelaySettings := ⟨[0], 2, ⟨some "relay", ["relay", "-q"], "q"⟩, true, ⟨1, ⟨0⟩⟩⟩

/-- An adapter that opens once and breaks off whatever else is done. -/
def breaking : Script := { opens := [.opened], laterOpen := .broken, laterAnswer := .broken }

/-- The line of a power event. -/
def powerLine : Bytes := Envelope.line 0 ⟨⟨2024, 1, 1⟩, 0, 0, 0, 123456789⟩ (.power ⟨.on, true⟩)

/-- A queue with the line in its log, which is in the ledger when it has been read. -/
def onePower (read : Bool) (lane : List PowerEvent) (phase : Phase) : Live :=
  ⟨{ journal := ⟨{}, 0, powerLine.length, 1⟩
     ledger := ⟨if read then [⟨powerLine.length, some .power, false⟩] else [], none⟩
     power := lane
     capacity := 1
     phase := phase },
    ⟨.folder { log := some (.file powerLine) }, none⟩⟩

/-- The line is appended. -/
theorem append_powerLine {q : Queue} (hopen : q.closed = false) (hj : q.journal = ⟨{}, 0, 0, 0⟩) :
    Live.append ⟨q, ⟨.folder { log := some (.file []) }, none⟩⟩ ⟨⟨2024, 1, 1⟩, 0, 0, 0, 123456789⟩
        (.power ⟨.on, true⟩) =
      (⟨{ q with journal := ⟨{}, 0, powerLine.length, 1⟩ }, ⟨.folder { log := some (.file powerLine) }, none⟩⟩,
        .ok (some 0)) := by
  have happ := @Store.append_line ⟨⟨2024, 1, 1⟩, 0, 0, 0, 123456789⟩ (.power ⟨.on, true⟩)
    { log := some (.file []) } rfl (by decide +kernel)
  have hnot : ¬ q.closed = true := by
    rw [hopen]
    exact Bool.false_ne_true
  rw [Live.append, if_neg hnot, hj]
  simp only [happ]
  rfl

/-- The pump reads it. -/
theorem step?_onePower : (onePower false [] .reading).step? =
    some (onePower true [] (.handing (.power ⟨.on, true⟩) powerLine.length)) := by
  have hpeek := @Store.peek_line ⟨⟨2024, 1, 1⟩, 0, 0, 0, 123456789⟩ (.power ⟨.on, true⟩)
    { log := some (.file powerLine) } rfl
  have hdecode := Envelope.decode?_body 0 (.power ⟨.on, true⟩)
    (show Time.Stamp.Valid ⟨⟨2024, 1, 1⟩, 0, 0, 0, 123456789⟩ by decide)
  rw [← powerLine] at hpeek
  simp only [Live.step?, onePower, hpeek, hdecode]
  rfl

/-- A relay on an empty queue and on this adapter, beside one task. -/
def besideOneTask : Relay Script :=
  opened (.ofJournal ⟨{}, 0, 0, 0⟩ 1) (.folder { log := some (.file []) }) ⟨some 1, 1, .connected⟩
    ⟨{ breaking with opens := [] }, 1, [.opened 1, .attached 1]⟩ 1

/-- A relay on this adapter and on an empty queue that is opened or at rest, beside tasks. -/
def onEmpty (phase : Phase) (tasks : List TaskStatus) : Relay Script :=
  { besideOneTask with
    live := ⟨{ Queue.ofJournal ⟨{}, 0, 0, 0⟩ 1 with phase := phase },
      ⟨.folder { log := some (.file []) }, none⟩⟩
    tasks := tasks }

/-- The first of them when a power event has been received, and the command has been rejected. -/
def rejected : Relay Script :=
  { besideOneTask with
    live := (onePower true [] (.moving powerLine.length)).acknowledge .power
    hardware := ⟨⟨some 1, 1, .connected⟩,
      ⟨{ breaking with opens := [] }, 1, [.opened 1, .attached 1, .sent .powerOn 0 1 false]⟩⟩
    stage := .powering (.replacing .powerOn 0 1) .powerOn []
    received := [.power ⟨.on, true⟩] }

/-- A power event is accepted and received, and the command breaks off. -/
theorem course_rejected {phase : Phase} (hphase : phase = .top ∨ phase = .idle) (tasks : List TaskStatus) :
    Course Script.adapter oneDevice (onEmpty phase tasks) { rejected with tasks := tasks }
      [.power ⟨.on, true⟩] := by
  have hvalid : Time.Stamp.Valid ⟨⟨2024, 1, 1⟩, 0, 0, 0, 123456789⟩ := by decide
  have h₀ : Course Script.adapter oneDevice (onEmpty phase tasks) _ _ := .start
  -- the event comes into its lane, once a pump at rest has waited
  have h₁ := h₀.beside (.accepted hvalid (append_powerLine rfl rfl))
  have h₂ : Course Script.adapter oneDevice (onEmpty phase tasks)
      { onEmpty phase tasks with live := onePower false [] .top } [.power ⟨.on, true⟩] := by
    rcases hphase with rfl | rfl
    · exact h₁
    · exact h₁.beside .waited
  have h₃ := h₂.beside (.pumped (show _ = some (onePower false [] .reading) from rfl))
  have h₄ := h₃.beside (.pumped step?_onePower)
  have h₅ := h₄.beside (.pumped (show _ = some (onePower true [⟨.on, true⟩] (.moving _)) from rfl))
  -- it is received, and the command is sent
  have h₆ := h₅.worked rfl
  exact h₆.worked rfl

/-- Opening the adapter again breaks off too. The task does not end in time, and the program is replaced, whether
somebody has asked to stop in the meantime or not. -/
theorem exists_course_rejected (cancelled : Bool) :
    ∃ r r', Course Script.adapter oneDevice { rejected with cancelled := cancelled } r [] ∧
      r.step? Script.adapter oneDevice = some r' ∧ r.tasks = [.aborted] ∧ r.plans = [] ∧
      r'.plans = [⟨"relay", ["relay", "-q"], [("CEC_QUEUE_DIR", "q"), ("CEC_RESTART_RETRIES", "1")]⟩] ∧
      r'.stage = .done (.ok .restarted) := by
  have h₀ : Course Script.adapter oneDevice { rejected with cancelled := cancelled } _ _ := .start
  -- the command is given up
  have h₁ := h₀.worked rfl
  have h₂ := h₁.worked rfl
  -- the task is broken off and the adapter closed
  have h₃ := h₂.gaveUp.worked rfl
  have h₄ := h₃.worked rfl
  have h₅ := h₄.worked rfl
  -- the queue is closed
  have h₆ := h₅.worked rfl
  have h₇ := h₆.beside (.pumped rfl)
  have h₈ := h₇.beside (.pumped rfl)
  have h₉ := h₈.worked rfl
  exact ⟨_, _, h₉.worked rfl, rfl, rfl, rfl, rfl, rfl⟩

/-- A power event is received, its command is given up, and the program is to be replaced. -/
theorem exists_course_onePower :
    ∃ r es r', Course Script.adapter oneDevice besideOneTask r es ∧ r.step? Script.adapter oneDevice = some r' ∧
      r.tasks = [.aborted] ∧ r'.plans = r.plans ++
        [⟨"relay", ["relay", "-q"], [("CEC_QUEUE_DIR", "q"), ("CEC_RESTART_RETRIES", "1")]⟩] := by
  obtain ⟨r, r', hcourse, hstep, htasks, hnone, hplans, -⟩ := exists_course_rejected false
  have hrejected : Course Script.adapter oneDevice besideOneTask rejected [.power ⟨.on, true⟩] :=
    course_rejected (.inl rfl) [.running]
  refine ⟨r, _, r', hrejected.trans hcourse, hstep, htasks, ?_⟩
  rw [hnone, hplans]
  rfl

/-- So it is replaced, and all that has to be over is over. -/
theorem handover_one_power :
    Queue.open? oneDevice.program.queueDir 1 .missing =
        (.folder { log := some (.file []) }, .ok (.ofJournal ⟨{}, 0, 0, 0⟩ 1)) ∧
      Hardware.connect Script.adapter ⟨breaking, 0, []⟩ =
        (.ok ⟨some 1, 1, .connected⟩, ⟨{ breaking with opens := [] }, 1, [.opened 1, .attached 1]⟩) ∧
      ∃ r es r', Course Script.adapter oneDevice besideOneTask r es ∧
        r.step? Script.adapter oneDevice = some r' ∧ r.tasks = [.aborted] ∧
        Handover Script.adapter oneDevice besideOneTask r es
          ⟨"relay", ["relay", "-q"], [("CEC_QUEUE_DIR", "q"), ("CEC_RESTART_RETRIES", "1")]⟩ := by
  have hopen : Queue.open? oneDevice.program.queueDir 1 .missing =
      (.folder { log := some (.file []) }, .ok (.ofJournal ⟨{}, 0, 0, 0⟩ 1)) := rfl
  have hconnect : Hardware.connect Script.adapter ⟨breaking, 0, []⟩ =
      (.ok ⟨some 1, 1, .connected⟩, ⟨{ breaking with opens := [] }, 1, [.opened 1, .attached 1]⟩) := rfl
  obtain ⟨r, es, r', hcourse, hstep, htasks, hplans⟩ := exists_course_onePower
  obtain ⟨-, hover⟩ := Course.handover hopen hconnect hcourse
  exact ⟨hopen, hconnect, r, es, r', hcourse, hstep, htasks, (hover r' _ hstep hplans).1⟩

end Relay
end CecRelay
