import CecRelay.Proofs.Adapter.Generations
import CecRelay.Proofs.Dispatch.Replacing

/-!
# How a run ends

A run ends in one of three ways (`Relay.Ended`): the relay has been asked to stop, and the queue is removed;
or both lanes have ended; or a command has been given up, and then the budget and the program say what the
result is (`Relay.GivenUp`). As long as the queue has not been removed its folder is there, and it is known
what the next queue hands out (`Relay.Course.ends`).

Once a command has been given up, or the relay has been asked to stop, it can always come to its end
(`Relay.Holds.canEnd`): it needs nothing but the pump, and the time that tasks are given.
-/

namespace CecRelay

open Lines

variable {σ : Type} (a : Adapter σ) (s : RelaySettings)

/-- There is no plan when no restarts are left, or when there is no file to run. -/
theorem Program.plan?_eq_none {p : Program} {budget : UInt32} :
    p.plan? budget = none ↔ budget = 0 ∨ p.path = none := by
  rw [plan?]
  split
  next hzero => exact iff_of_true rfl (.inl hzero)
  next hleft =>
    rw [Option.map_eq_none_iff]
    exact ⟨.inr, fun h => h.resolve_left hleft⟩

theorem Program.plan?_ne_none {p : Program} {budget : UInt32} :
    p.plan? budget ≠ none ↔ budget ≠ 0 ∧ p.path ≠ none := by
  rw [ne_eq, plan?_eq_none, not_or]

namespace Relay

/-! ### After a command has been given up -/

/-- The result of a run in which a command has been given up with an error, and the plans carried out in it. -/
structure GivenUp (cause : RelayError) (plans : List RestartPlan) (result : Except RelayError Exit) : Prop where
  /-- Without restarts left there is no plan, nor without a file to run. -/
  planned : plans = [] ↔ s.budget = 0 ∨ s.program.path = none
  /-- Without restarts left that is the error. -/
  exhausted : result = .error .restartBudgetExhausted ↔ s.budget = 0
  /-- The program is replaced. -/
  restarted : result = .ok .restarted ↔ s.budget ≠ 0 ∧ s.program.path ≠ none ∧ s.replaceable = true
  /-- There is no file to run, or replacing the program does not work, and the error says why it was to be
  replaced. -/
  failed : result = .error (.restartFailed cause.message) ↔
    s.budget ≠ 0 ∧ (s.program.path = none ∨ s.replaceable = false)

/-- What holds in a stage of a relay that has given a command up with an error. -/
def Escalating (cause : RelayError) (plans : List RestartPlan) : Stage → Prop
  | .choosing => False
  | .powering c _ _ => c = .done (.error cause) ∧ plans = []
  | .stopping leaving _ | .releasing leaving => leaving = .escalated cause ∧ plans = []
  | .closing leaving replaced | .awaiting leaving replaced | .ending leaving replaced _ =>
    leaving = .escalated cause ∧ (replaced = false → s.program.plan? s.budget ≠ none ∧ plans = []) ∧
      (replaced = true → GivenUp s cause plans (.error (failure s cause)))
  | .replacing c => c = cause ∧ s.program.plan? s.budget ≠ none ∧ plans = []
  | .done result => GivenUp s cause plans result

variable {a s} {r₀ r r' : Relay σ} {es : List Event} {cause : RelayError}

theorem givenUp_unplanned (hnone : s.program.plan? s.budget = none) :
    GivenUp s cause [] (.error (failure s cause)) := by
  have hwhy := Program.plan?_eq_none.1 hnone
  by_cases hzero : s.budget = 0
  · rw [failure, if_pos hzero]
    constructor
    · exact iff_of_true rfl hwhy
    · exact iff_of_true rfl hzero
    · exact iff_of_false (fun h => (by cases h)) fun h => h.1 hzero
    · exact iff_of_false (fun h => (by cases h)) fun h => h.1 hzero
  · have hpath := hwhy.resolve_left hzero
    rw [failure, if_neg hzero]
    constructor
    · exact iff_of_true rfl hwhy
    · exact iff_of_false (fun h => (by cases h)) hzero
    · exact iff_of_false (fun h => (by cases h)) fun h => h.2.1 hpath
    · exact iff_of_true rfl ⟨hzero, .inl hpath⟩

theorem givenUp_restarted (hplan : s.program.plan? s.budget ≠ none) (hworks : s.replaceable = true)
    (plan : RestartPlan) : GivenUp s cause [plan] (.ok .restarted) := by
  obtain ⟨hleft, hpath⟩ := Program.plan?_ne_none.1 hplan
  constructor
  · exact iff_of_false (fun h => (by cases h)) fun h => h.elim hleft hpath
  · exact iff_of_false (fun h => (by cases h)) hleft
  · exact iff_of_true rfl ⟨hleft, hpath, hworks⟩
  · refine iff_of_false (fun h => (by cases h)) fun ⟨_, hwhy⟩ => ?_
    rw [hworks] at hwhy
    exact hwhy.elim hpath fun h => (by cases h)

theorem givenUp_failed (hplan : s.program.plan? s.budget ≠ none) (hworks : s.replaceable = false)
    (plan : RestartPlan) : GivenUp s cause [plan] (.error (failure s cause)) := by
  obtain ⟨hleft, hpath⟩ := Program.plan?_ne_none.1 hplan
  rw [failure, if_neg hleft]
  constructor
  · exact iff_of_false (fun h => (by cases h)) fun h => h.elim hleft hpath
  · exact iff_of_false (fun h => (by cases h)) hleft
  · refine iff_of_false (fun h => (by cases h)) fun ⟨_, _, h⟩ => ?_
    rw [hworks] at h
    cases h
  · exact iff_of_true rfl ⟨hleft, .inr hworks⟩

/-- A step of the relay. -/
theorem Escalating.worked (h : Escalating s cause r.plans r.stage) (hstep : r.step? a s = some r') :
    Escalating s cause r'.plans r'.stage := by
  cases turn_of_step? hstep with
  | drains hstage | leaves hstage | power hstage | key hstage | ends _ _ hstage =>
    rw [hstage] at h
    exact h.elim
  | commands hstage hon =>
    rw [hstage] at h
    exact absurd h.1 (hon _)
  | commanded hstage =>
    rw [hstage] at h
    cases h.1
  | escalates hstage =>
    rw [hstage] at h
    obtain ⟨heq, hplans⟩ := h
    cases heq
    exact ⟨rfl, hplans⟩
  | taskOver hstage | tasksOver hstage | closes hstage | takes hstage =>
    rw [hstage] at h
    exact h
  | releases hstage =>
    rw [hstage] at h
    obtain ⟨rfl, hplans⟩ := h
    show Escalating s cause r.plans (.closing (.escalated cause) (s.program.plan? s.budget).isNone)
    refine ⟨rfl, fun hreplaced => ⟨fun hnone => ?_, hplans⟩, fun hreplaced => ?_⟩
    · rw [hnone] at hreplaced
      cases hreplaced
    · rw [hplans]
      exact givenUp_unplanned (Option.isNone_iff_eq_none.1 hreplaced)
  | removes hstage =>
    rw [hstage] at h
    cases h.1
  | closed hstage =>
    rw [hstage] at h
    obtain ⟨heq, hleft, -⟩ := h
    cases heq
    exact ⟨rfl, hleft rfl⟩
  | fails hstage =>
    rw [hstage] at h
    obtain ⟨heq, -, hresult⟩ := h
    cases heq
    exact hresult rfl
  | unplanned hstage hnone =>
    rw [hstage] at h
    exact absurd hnone h.2.1
  | replaces hstage _ hworks =>
    rw [hstage] at h
    obtain ⟨-, hleft, hplans⟩ := h
    show GivenUp s cause (r.plans ++ _) _
    rw [hplans]
    exact givenUp_restarted hleft hworks _
  | replacesNot hstage _ hworks =>
    rw [hstage] at h
    obtain ⟨rfl, hleft, hplans⟩ := h
    refine ⟨rfl, fun hfalse => (by cases hfalse), fun _ => ?_⟩
    show GivenUp s _ (r.plans ++ _) _
    rw [hplans]
    exact givenUp_failed hleft hworks _

theorem Course.escalating (h : Course a s r₀ r es) (h₀ : Escalating s cause r₀.plans r₀.stage) :
    Escalating s cause r.plans r.stage := by
  induction h with
  | start => exact h₀
  | worked _ hstep ih => exact ih.worked hstep
  | beside _ _ ih | closedBeside _ _ ih | asked _ ih | taskEnded _ _ ih => exact ih
  | @gaveUp r es _ ih =>
    obtain ⟨tasks, heq⟩ := r.giveUp_eq
    rw [heq]
    exact ih

/-- A relay that has given a command up has carried out no plan. -/
theorem Holds.escalating (h : Holds a s r₀ r) (hgave : GaveUp cause r) : Escalating s cause r.plans r.stage := by
  obtain ⟨command, rest, hstage⟩ := hgave
  have hover := h.stage
  rw [hstage] at hover ⊢
  exact ⟨rfl, hover.1⟩

theorem Passed.escalating (h : Passed a s (GaveUp cause) r₀ r) (h₀ : Holds a s r₀ r₀) :
    Escalating s cause r.plans r.stage := by
  obtain ⟨u, _, _, hu, hgave, hr⟩ := h
  exact hr.escalating ((hu.holds h₀).escalating hgave)

/-! ### Ways to end -/

/-- The relay looks what to do next, has been asked to stop, and a lane has not ended. -/
def Leaves (u : Relay σ) : Prop :=
  u.stage = .choosing ∧ u.cancelled = true ∧ (u.keysOpen || u.powerOpen) = true

/-- The relay looks what to do next, and both lanes have ended. -/
def Drains (u : Relay σ) : Prop := u.stage = .choosing ∧ u.keysOpen = false ∧ u.powerOpen = false

/-- All is over but the removal of the queue, which has a result. -/
structure Removes (result : Except RelayError Exit) (u : Relay σ) : Prop where
  /-- The relay is about to have the queue removed. -/
  stage : ∃ replaced ready, u.stage = .ending .graceful replaced ready
  /-- Its tasks are over. -/
  tasks : ∀ k : Nat, u.tasks[k]? ≠ some .running
  /-- Its adapter is closed. -/
  handle : u.hardware.link.handle = none
  /-- The queue is closed. -/
  closed : u.live.queue.closed = true
  /-- The pump has stopped. -/
  stopped : u.live.ended = true
  /-- The removal. -/
  result : result = u.live.removeFolder.2.map fun _ => .shutdown

variable (a s) in
/-- The relay has been asked to stop, has found so while it looked what to do next, and has had the queue
removed. -/
structure Graceful (r₀ r : Relay σ) (result : Except RelayError Exit) : Prop where
  /-- It has been asked. -/
  asked : Passed a s Leaves r₀ r
  /-- The queue has been removed. -/
  removed : Passed a s (Removes result) r₀ r
  /-- The program has not been replaced. -/
  plans : r.plans = []

variable (a s) in
/-- How a run has come to its result. -/
inductive Ended (r₀ r : Relay σ) (result : Except RelayError Exit) : Prop
  /-- It has been asked to stop. -/
  | graceful : Graceful a s r₀ r result → Ended r₀ r result
  /-- Both lanes have ended. -/
  | drained : result = .ok .drained → Passed a s Drains r₀ r → r.plans = [] → Ended r₀ r result
  /-- A command has been given up. -/
  | givenUp {cause : RelayError} : s.Hard cause → Passed a s (GaveUp cause) r₀ r →
    GivenUp s cause r.plans result → Ended r₀ r result

variable (a s) in
/-- A relay that is about to end gracefully has found that it has been asked to. -/
def OnRequest (r₀ r : Relay σ) (leaving : Leaving) : Prop :=
  leaving = .graceful → r.plans = [] ∧ Passed a s Leaves r₀ r

variable (a s) in
/-- Where a relay that is about to end, or has ended, has come from. -/
def Whence (r₀ r : Relay σ) : Stage → Prop
  | .stopping leaving _ | .releasing leaving | .closing leaving _ | .awaiting leaving _ | .ending leaving _ _ =>
    OnRequest a s r₀ r leaving
  | .done result => Ended a s r₀ r result
  | _ => True

theorem Graceful.removing {result : Except RelayError Exit} (h : Graceful a s r₀ r result) : Removed result := by
  obtain ⟨u, _, _, _, hu, _⟩ := h.removed
  rw [hu.result]
  exact removed_map _

/-- There are no other results. -/
theorem GivenUp.result_cases {plans : List RestartPlan} {result : Except RelayError Exit}
    (h : GivenUp s cause plans result) : result = .error .restartBudgetExhausted ∨
      result = .error (.restartFailed cause.message) ∨ result = .ok .restarted := by
  by_cases hzero : s.budget = 0
  · exact .inl (h.exhausted.2 hzero)
  · by_cases hwhy : s.program.path = none ∨ s.replaceable = false
    · exact .inr (.inl (h.failed.2 ⟨hzero, hwhy⟩))
    · rw [not_or, Bool.not_eq_false] at hwhy
      exact .inr (.inr (h.restarted.2 ⟨hzero, hwhy⟩))

/-- With these results no queue has been removed. -/
theorem GivenUp.not_removed {plans : List RestartPlan} {result : Except RelayError Exit}
    (h : GivenUp s cause plans result) : ¬ Removed result := by
  rcases h.result_cases with rfl | rfl | rfl
  · exact id
  · exact id
  · exact id

theorem Ended.on {result : Except RelayError Exit} (h : Ended a s r₀ r result) (hc : Course a s r r' es)
    (hplans : r'.plans = r.plans) : Ended a s r₀ r' result := by
  cases h with
  | graceful h => exact .graceful ⟨h.asked.on hc, h.removed.on hc, hplans.trans h.plans⟩
  | drained heq hpassed hnone => exact .drained heq (hpassed.on hc) (hplans.trans hnone)
  | givenUp hhard hgave hresult => exact .givenUp hhard (hgave.on hc) (hplans ▸ hresult)

theorem OnRequest.on {leaving : Leaving} (h : OnRequest a s r₀ r leaving) (hc : Course a s r r' es)
    (hplans : r'.plans = r.plans) : OnRequest a s r₀ r' leaving :=
  fun heq => ⟨hplans.trans (h heq).1, (h heq).2.on hc⟩

theorem onRequest_escalated : OnRequest a s r₀ r (.escalated cause) := fun heq => (by cases heq)

theorem Whence.on {stage : Stage} (h : Whence a s r₀ r stage) (hc : Course a s r r' es)
    (hplans : r'.plans = r.plans) : Whence a s r₀ r' stage := by
  cases stage with
  | stopping | releasing | closing | awaiting | ending => exact OnRequest.on h hc hplans
  | done => exact Ended.on h hc hplans
  | _ => trivial

/-- A relay that is not about to end. -/
theorem whence_poweringStage (command : PowerCommand) (devices : List UInt8) :
    Whence a s r₀ r (poweringStage command devices) := by
  rcases poweringStage_cases command devices with ⟨-, hnext⟩ | ⟨_, _, -, hnext⟩
  · rw [hnext]
    trivial
  · rw [hnext]
    trivial

/-- A relay that is about to end because a command has been given up has the result that belongs to it. -/
theorem Ending.ended (h : Ending a s r₀ r (.escalated cause)) (h₀ : Holds a s r₀ r₀) (hc : Course a s r r' es)
    {result : Except RelayError Exit} (hdone : r'.stage = .done result) : Ended a s r₀ r' result := by
  obtain ⟨hhard, hgave⟩ := h.cause cause rfl
  have hresult := (hgave.on hc).escalating h₀
  rw [hdone] at hresult
  exact .givenUp hhard (hgave.on hc) hresult

/-- A step of the relay. -/
theorem Whence.worked (h : Whence a s r₀ r r.stage) (h₀ : Holds a s r₀ r₀) (hr : Course a s r₀ r es)
    (hstep : r.step? a s = some r') : Whence a s r₀ r' r'.stage := by
  have hc : Course a s r r' [] := Course.start.worked hstep
  have hover := (hr.holds h₀).stage
  cases turn_of_step? hstep with
  | drains hstage hkeys hpower =>
    rw [hstage] at hover
    exact .drained rfl ⟨r, es, [], hr, ⟨hstage, hkeys, hpower⟩, hc⟩ hover
  | leaves hstage hcancelled hopen =>
    rw [hstage] at hover
    exact fun _ => ⟨hover, r, es, [], hr, ⟨hstage, hcancelled, hopen⟩, hc⟩
  | power | commanded => exact whence_poweringStage _ _
  | key hstage =>
    rw [takeKey, hstage]
    trivial
  | ends _ _ hstage =>
    rw [hstage]
    trivial
  | commands | closed => trivial
  | escalates | unplanned | replacesNot => exact onRequest_escalated
  | taskOver hstage | tasksOver hstage | releases hstage | closes hstage | takes hstage =>
    rw [hstage] at h
    exact OnRequest.on h hc rfl
  | removes hstage =>
    rw [hstage] at h hover
    obtain ⟨hplans, hasked⟩ := h rfl
    obtain ⟨hreleased, hclosed, -, hended⟩ := hover
    refine .graceful ⟨hasked.on hc, ⟨r, es, [], hr, ?_, hc⟩, hplans⟩
    exact ⟨⟨_, _, hstage⟩, hreleased.tasks, hreleased.handle, hclosed, hended, rfl⟩
  | fails hstage | replaces hstage =>
    rw [hstage] at hover
    exact hover.1.ending.ended h₀ hc rfl

/-- The relay has not begun to end. -/
def Busy (r : Relay σ) : Prop := r.stage = .choosing ∨ ∃ c command rest, r.stage = .powering c command rest

theorem Course.whence (h : Course a s r₀ r es) (h₀ : Holds a s r₀ r₀) (hbusy : r₀.Busy) :
    Whence a s r₀ r r.stage := by
  induction h with
  | start =>
    rcases hbusy with hstage | ⟨_, _, _, hstage⟩
    · rw [hstage]
      trivial
    · rw [hstage]
      trivial
  | worked hr hstep ih => exact ih.worked h₀ hr hstep
  | beside _ hbeside ih => exact ih.on (.beside .start hbeside) rfl
  | closedBeside _ hclosed ih => exact ih.on (.closedBeside .start hclosed) rfl
  | asked _ ih => exact ih.on (.asked .start) rfl
  | taskEnded _ hk ih => exact ih.on (.taskEnded .start hk) rfl
  | @gaveUp r es _ ih =>
    have hc : Course a s r r.giveUp [] := .gaveUp .start
    obtain ⟨tasks, heq⟩ := r.giveUp_eq
    rw [heq] at hc ⊢
    exact ih.on hc rfl

/-- A run ends in one of the three ways. -/
theorem Course.ended (h : Course a s r₀ r es) (h₀ : Holds a s r₀ r₀) (hbusy : r₀.Busy)
    {result : Except RelayError Exit} (hdone : r.stage = .done result) : Ended a s r₀ r result := by
  have hwhence := h.whence h₀ hbusy
  rwa [hdone] at hwhence

/-! ### Coming to the end -/

variable (a s) in
/-- The relay can come to its end, and nothing needs to be accepted for it. -/
def CanEnd (r : Relay σ) : Prop := ∃ r' result, Course a s r r' [] ∧ r'.stage = .done result

theorem CanEnd.before (h : CanEnd a s r') (hc : Course a s r r' []) : CanEnd a s r := by
  obtain ⟨u, result, hu, hdone⟩ := h
  exact ⟨u, result, hc.trans hu, hdone⟩

theorem CanEnd.step (h : CanEnd a s r') (hstep : r.step? a s = some r') : CanEnd a s r :=
  h.before (Course.start.worked hstep)

/-- A pump that is to stop comes to its end. -/
theorem exists_course_ended {n : Nat} (hc : r.live.queue.cancelled = true)
    (hn : r.live.queue.phase.remaining ≤ n) :
    ∃ l : Live, Course a s r { r with live := l } [] ∧ l.ended = true := by
  induction n generalizing r with
  | zero =>
    refine ⟨r.live, .start, ?_⟩
    exact Live.ended_steps hc hn
  | succ n ih =>
    by_cases hp : r.live.queue.phase = .stopped
    · refine ⟨r.live, .start, ?_⟩
      rw [Live.ended, decide_eq_true_iff]
      exact hp
    · obtain ⟨l, hstep, hless⟩ := Live.exists_step hc hp
      have hpumped : Course a s r { r with live := l } [] := Course.start.beside (.pumped hstep)
      obtain ⟨l', hl', hended⟩ := @ih { r with live := l } ((Live.step?_flags hstep).1.trans hc)
        (Nat.le_of_lt_succ (Nat.lt_of_lt_of_le hless hn))
      exact ⟨l', hpumped.trans hl', hended⟩

section Stages

variable {leaving : Leaving} {replaced : Bool}

/-- The relay takes what is ready for the cursor when the pump has come to its end. -/
theorem canEnd_pumped (hstage : r.stage = .awaiting leaving replaced) (hc : r.live.queue.cancelled = true)
    (h : ∀ (l : Live) ready, CanEnd a s { r with live := l, stage := .ending leaving replaced ready }) :
    CanEnd a s r := by
  obtain ⟨l, hl, hended⟩ := exists_course_ended (a := a) (s := s) hc (Nat.le_refl _)
  have hstep : step? a s { r with live := l } =
      some { r with live := l.takeReady, stage := .ending leaving replaced l.queue.ledger.ready } := by
    rw [step?, hstage]
    exact if_pos hended
  exact CanEnd.before (CanEnd.step (h _ _) hstep) hl

/-- From the last closing of the queue. -/
theorem canEnd_ending_last {ready : Option Nat} (hstage : r.stage = .ending leaving replaced ready)
    (hlast : leaving = .graceful ∨ replaced = true) : CanEnd a s r := by
  have hstep : r.step? a s = some (r.finishClose s leaving replaced ready) := by rw [step?, hstage]
  refine CanEnd.step ?_ hstep
  cases leaving with
  | graceful =>
    simp only [finishClose]
    split
    · exact ⟨_, _, .start, rfl⟩
    · exact ⟨_, _, .start, rfl⟩
  | escalated cause =>
    obtain hgraceful | rfl := hlast
    · cases hgraceful
    · exact ⟨_, _, .start, rfl⟩

theorem canEnd_closing_last (hstage : r.stage = .closing leaving replaced)
    (hlast : leaving = .graceful ∨ replaced = true) : CanEnd a s r := by
  have hstep : r.step? a s = some { r with live := r.live.beginClose, stage := .awaiting leaving replaced } := by
    rw [step?, hstage]
  exact CanEnd.step (canEnd_pumped rfl rfl fun _ _ => canEnd_ending_last rfl hlast) hstep

theorem canEnd_replacing (hstage : r.stage = .replacing cause) : CanEnd a s r := by
  have hstep : r.step? a s = some (r.replace s cause) := by rw [step?, hstage]
  refine CanEnd.step ?_ hstep
  rw [replace]
  split
  · exact canEnd_closing_last rfl (.inr rfl)
  · split
    · exact ⟨_, _, .start, rfl⟩
    · exact canEnd_closing_last rfl (.inr rfl)

/-- From any closing of the queue. -/
theorem canEnd_ending {ready : Option Nat} (hstage : r.stage = .ending leaving replaced ready) : CanEnd a s r := by
  cases leaving with
  | graceful => exact canEnd_ending_last hstage (.inl rfl)
  | escalated cause =>
    cases replaced with
    | true => exact canEnd_ending_last hstage (.inr rfl)
    | false =>
      have hstep : r.step? a s = some (r.finishClose s (.escalated cause) false ready) := by rw [step?, hstage]
      exact CanEnd.step (canEnd_replacing rfl) hstep

theorem canEnd_awaiting (hstage : r.stage = .awaiting leaving replaced) (hc : r.live.queue.cancelled = true) :
    CanEnd a s r :=
  canEnd_pumped hstage hc fun _ _ => canEnd_ending rfl

theorem canEnd_closing (hstage : r.stage = .closing leaving replaced) : CanEnd a s r := by
  have hstep : r.step? a s = some { r with live := r.live.beginClose, stage := .awaiting leaving replaced } := by
    rw [step?, hstage]
  exact CanEnd.step (canEnd_awaiting rfl rfl) hstep

theorem canEnd_releasing (hstage : r.stage = .releasing leaving) : CanEnd a s r := by
  obtain ⟨replaced, hstep⟩ : ∃ replaced, r.step? a s =
      some { r with hardware := r.hardware.release a, stage := .closing leaving replaced } := by
    rw [step?, hstage]
    cases leaving with
    | graceful => exact ⟨_, rfl⟩
    | escalated cause => exact ⟨_, rfl⟩
  exact CanEnd.step (canEnd_closing rfl) hstep

/-- A task that does not end is broken off. -/
theorem canEnd_stopping {n k : Nat} (hstage : r.stage = .stopping leaving k) (hn : r.tasks.length ≤ k + n) :
    CanEnd a s r := by
  induction n generalizing r k with
  | zero =>
    have hnone : r.tasks[k]? = none := List.getElem?_eq_none hn
    have hstep : r.step? a s = some { r with stage := .releasing leaving } := by
      rw [step?, hstage]
      simp only [hnone]
    exact CanEnd.step (canEnd_releasing rfl) hstep
  | succ n ih =>
    have hover : ∀ {u : Relay σ} {t : TaskStatus}, u.stage = .stopping leaving k → u.tasks[k]? = some t →
        t ≠ .running → u.tasks.length ≤ k + (n + 1) → CanEnd a s u := by
      intro u t hstage ht hnot hlen
      have hstep : u.step? a s = some { u with stage := .stopping leaving (k + 1) } := by
        rw [step?, hstage]
        cases t with
        | running => exact absurd rfl hnot
        | ended | aborted => simp only [ht]
      refine CanEnd.step (ih rfl ?_) hstep
      show u.tasks.length ≤ _
      omega
    cases ht : r.tasks[k]? with
    | none =>
      have hstep : r.step? a s = some { r with stage := .releasing leaving } := by
        rw [step?, hstage]
        simp only [ht]
      exact CanEnd.step (canEnd_releasing rfl) hstep
    | some t =>
      by_cases hrunning : t = .running
      · subst hrunning
        have hgave : r.giveUp = { r with tasks := r.tasks.set k .aborted } := by
          rw [giveUp, hstage]
          simp only [ht]
        have hlt := (List.getElem?_eq_some_iff.1 ht).1
        have hbroken : CanEnd a s r.giveUp := by
          rw [hgave]
          refine hover hstage (List.getElem?_set_self hlt) (fun h => (by cases h)) ?_
          show (r.tasks.set k .aborted).length ≤ _
          rw [List.length_set]
          exact hn
        exact hbroken.before (.gaveUp .start)
      · exact hover hstage ht hrunning hn

theorem canEnd_choosing (hstage : r.stage = .choosing) (hc : r.cancelled = true) : CanEnd a s r := by
  by_cases hopen : (!r.keysOpen && !r.powerOpen) = true
  · have hstep : r.step? a s = some (r.finish (.ok .drained)) := by
      rw [step?, hstage]
      exact if_pos hopen
    exact CanEnd.step ⟨_, _, .start, rfl⟩ hstep
  · have hstep : r.step? a s = some { r with stage := .stopping .graceful 0 } := by
      rw [step?, hstage]
      simp only [choose?, if_neg hopen, hc, if_true]
    exact CanEnd.step (canEnd_stopping rfl (Nat.le_add_left _ _)) hstep

theorem canEnd_gaveUp (hgave : GaveUp cause r) : CanEnd a s r := by
  obtain ⟨command, rest, hstage⟩ := hgave
  have hstep : r.step? a s = some { r with cancelled := true, stage := .stopping (.escalated cause) 0 } := by
    rw [step?, hstage]
  exact CanEnd.step (canEnd_stopping rfl (Nat.le_add_left _ _)) hstep

/-- A command takes three steps at most, and then the next device is up. -/
theorem canEnd_powering {n : Nat} {c : Caller} {command : PowerCommand} {rest : List UInt8}
    (hstage : r.stage = .powering c command rest) (hc : r.cancelled = true)
    (hn : c.left + 4 * rest.length = n) : CanEnd a s r := by
  induction n using Nat.strong_induction_on generalizing r c rest with
  | _ n ih =>
    have hcommands : (∀ result, c ≠ .done result) → 0 < c.left → CanEnd a s r := by
      intro hon hleft
      have hstep : r.step? a s = some { r with
          hardware := (c.step a s.policy r.hardware).2
          stage := .powering (c.step a s.policy r.hardware).1 command rest } := by
        rw [step?, hstage]
        cases c with
        | done result => exact absurd rfl (hon result)
        | _ => rfl
      have hless := Caller.left_step a s.policy c r.hardware
      refine CanEnd.step ?_ hstep
      refine ih _ ?_ rfl hc rfl
      omega
    cases c with
    | done result =>
      cases result with
      | error cause => exact canEnd_gaveUp ⟨command, rest, hstage⟩
      | ok _ =>
        have hstep : r.step? a s = some { r with stage := poweringStage command rest } := by
          rw [step?, hstage]
        refine CanEnd.step ?_ hstep
        cases rest with
        | nil => exact canEnd_choosing rfl hc
        | cons address rest =>
          refine ih _ ?_ rfl hc rfl
          rw [← hn]
          show 3 + 4 * rest.length < 0 + 4 * (rest.length + 1)
          omega
    | first => exact hcommands (fun _ heq => (by cases heq)) (Nat.succ_pos 2)
    | replacing => exact hcommands (fun _ heq => (by cases heq)) (Nat.succ_pos 1)
    | second => exact hcommands (fun _ heq => (by cases heq)) (Nat.succ_pos 0)

end Stages

/-- A relay that has been asked to stop, or has given a command up, can come to its end. -/
theorem Holds.canEnd (h : Holds a s r₀ r) (hends : r.Busy → r.cancelled = true ∨ ∃ cause, GaveUp cause r) :
    CanEnd a s r := by
  have hover := h.stage
  cases hstage : r.stage with
  | choosing =>
    obtain hc | ⟨cause, hgave⟩ := hends (.inl hstage)
    · exact canEnd_choosing hstage hc
    · exact canEnd_gaveUp hgave
  | powering c command rest =>
    obtain hc | ⟨cause, hgave⟩ := hends (.inr ⟨c, command, rest, hstage⟩)
    · exact canEnd_powering hstage hc rfl
    · exact canEnd_gaveUp hgave
  | stopping => exact canEnd_stopping hstage (Nat.le_add_left _ _)
  | releasing => exact canEnd_releasing hstage
  | closing => exact canEnd_closing hstage
  | awaiting =>
    rw [hstage] at hover
    exact canEnd_awaiting hstage hover.2.2
  | ending => exact canEnd_ending hstage
  | replacing => exact canEnd_replacing hstage
  | done result => exact ⟨r, result, .start, hstage⟩

/-- After a command has been given up the relay can come to its end, whatever has been done since, and then
the result is the one that belongs to it. -/
theorem GaveUp.results (hgave : GaveUp cause r) (h : Holds a s r₀ r) (hr : Course a s r₀ r es) (h₀ : Holds a s r₀ r₀)
    {es' : List Event} (hc : Course a s r r' es') :
    CanEnd a s r' ∧ ∀ result, r'.stage = .done result → GivenUp s cause r'.plans result := by
  have hon := hc.escalating (h.escalating hgave)
  refine ⟨((hr.trans hc).holds h₀).canEnd fun hbusy => .inr ⟨cause, ?_⟩, fun result hdone => ?_⟩
  · rcases hbusy with hstage | ⟨c, command, rest, hstage⟩
    · rw [hstage] at hon
      exact hon.elim
    · rw [hstage] at hon
      exact ⟨command, rest, hon.1 ▸ hstage⟩
  · rwa [hdone] at hon

/-! ### The end of a run -/

section Opened

variable {place place' : Place} {capacity : Nat} {q : Queue}
  (hopen : Queue.open? s.program.queueDir capacity place = (place', .ok q)) {inner : σ} {link : Link} {port : Port σ}
  (hconnect : Hardware.connect a ⟨inner, 0, []⟩ = (.ok link, port)) {tasks : Nat}
  {f : Folder} {log : Bytes} {c : Cursor}

include hopen in
/-- As long as the queue has not been removed its folder is there. The next queue finds what has been stored and not
received, and behind it what an append has left that broke off, unless the cursor that was there before has been
refused, is still there, counts by now and is behind an event that has not been received. It hands out what it finds
unless the last number is the greatest of all. -/
theorem Course.next (hf : place.Finds f log c) (h : Course a s (opened q place' link port tasks) r es)
    (hkept : ∀ result, r.stage = .done result → ¬ Removed result) :
    ∃ f' log' c', r.live.disk.place.Finds f' log' c' ∧
      (r.live.disk.place.HandsOut (lines (log'.drop (Journal.startOffset log' c'))) ↔
        Journal.lastSeq? (lines (log'.drop (Journal.startOffset log' c'))) ≠ some Journal.greatest) ∧
      ((∀ t, ∃ left, (r.received.filter fun e => e.stream = t) ++ left =
          events t (Service.start ⟨q, ⟨place', none⟩⟩).lines ++ (es.filter fun e => e.stream = t) ∧
          left ++ events t r.left <:+ events t (lines (log'.drop (Journal.startOffset log' c')))) ↔
        ¬ (Journal.startOffset log c ≠ c.offset ∧ f'.head = f.head ∧ Journal.startOffset log' c = c.offset ∧
          ∃ t, (r.received.filter fun e => e.stream = t).length <
            (events t (lines (log'.take c.offset))).length)) := by
  obtain ⟨v, hv⟩ := h.tracks rfl rfl rfl hkept
  have hs := hv.reaches.sound (Service.sound_start hf hopen)
  obtain ⟨f', log', c', hf', hiff⟩ := hs.next_iff hf.cursor hv.there
  rw [hv.live] at hf'
  refine ⟨f', log', c', hf', hf'.offers.handsOut_iff, ?_⟩
  have hlength : ∀ t, (v.got t).length = (r.received.filter fun e => e.stream = t).length := by
    intro t
    rw [← hv.received t, List.length_map]
  have hleft : ∀ t out, (∃ left, (r.received.filter fun e => e.stream = t) ++ left =
      events t (Service.start ⟨q, ⟨place', none⟩⟩).lines ++ (es.filter fun e => e.stream = t) ∧
        left ++ events t r.left <:+ out) ↔ (events t (v.lines ++ v.left)).drop (v.got t).length <:+ out := by
    intro t out
    obtain ⟨hall, hbehind⟩ := hv.left hs t
    rw [← hbehind]
    constructor
    · rintro ⟨left, heq, hsuffix⟩
      rwa [List.append_cancel_left (hall.trans heq.symm)]
    · exact fun hsuffix => ⟨_, hall, hsuffix⟩
  simp only [hlength] at hiff hleft
  rw [forall_congr' fun t => hleft t _]
  exact hiff

include hopen hconnect in
/-- A relay is opened on any place and any adapter, beside any number of tasks, and takes any course. When it
has come to its end that is because it has been asked to stop, or both lanes have ended, or a command has been
given up; the queue has been removed in the first case only. As long as it has not been removed, the next queue
finds what has been stored and not received, unless the cursor that was there before has been refused and counts by
now, and it hands that out unless the last number is the greatest of all. After a command has been given up the relay
can come to its end, and the budget and the program say what its result is. -/
theorem Course.ends (hf : place.Finds f log c) (h : Course a s (opened q place' link port tasks) r es) :
    (∀ result, r.stage = .done result → Ended a s (opened q place' link port tasks) r result ∧
      (Removed result → Graceful a s (opened q place' link port tasks) r result)) ∧
    ((∀ result, r.stage = .done result → ¬ Removed result) →
      ∃ f' log' c', r.live.disk.place.Finds f' log' c' ∧
        (r.live.disk.place.HandsOut (lines (log'.drop (Journal.startOffset log' c'))) ↔
          Journal.lastSeq? (lines (log'.drop (Journal.startOffset log' c'))) ≠ some Journal.greatest) ∧
        ((∀ t, ∃ left, (r.received.filter fun e => e.stream = t) ++ left =
            events t (Service.start ⟨q, ⟨place', none⟩⟩).lines ++ (es.filter fun e => e.stream = t) ∧
            left ++ events t r.left <:+ events t (lines (log'.drop (Journal.startOffset log' c')))) ↔
          ¬ (Journal.startOffset log c ≠ c.offset ∧ f'.head = f.head ∧ Journal.startOffset log' c = c.offset ∧
            ∃ t, (r.received.filter fun e => e.stream = t).length <
              (events t (lines (log'.take c.offset))).length))) ∧
    ∀ cause, GaveUp cause r → ∀ r' es', Course a s r r' es' → CanEnd a s r' ∧
      ∀ result, r'.stage = .done result → GivenUp s cause r'.plans result := by
  have h₀ : Holds a s (opened q place' link port tasks) (opened q place' link port tasks) := holds_opened hconnect
  refine ⟨fun result hdone => ?_, h.next hopen hf, fun cause hgave r' es' hc => hgave.results (h.holds h₀) h h₀ hc⟩
  have hended := h.ended h₀ (.inl rfl) hdone
  refine ⟨hended, fun hremoved => ?_⟩
  cases hended with
  | graceful hgraceful => exact hgraceful
  | drained heq =>
    rw [heq] at hremoved
    exact hremoved.elim
  | givenUp _ _ hresult => exact absurd hremoved hresult.not_removed

end Opened

/-! ### A run that leaves a key behind -/

/-- A relay on an empty queue whose cursor has been refused. -/
def onStale : Relay Script :=
  opened (.ofJournal ⟨{}, 0, 0, 0⟩ 1) (.folder (Service.staleFolder (some (.file []))))
    ⟨some 1, 1, .connected⟩ ⟨{ breaking with opens := [] }, 1, [.opened 1, .attached 1]⟩ 0

/-- A key is accepted, somebody closes the queue, and the relay finds that both lanes have ended. -/
theorem exists_course_onStale :
    ∃ r, Course Script.adapter oneDevice onStale r [.key ⟨1, 0⟩] ∧
      r.stage = .done (.ok .drained) ∧ r.received = [] ∧
      r.live.disk.place = .folder (Service.staleFolder (some (.file Store.keyLine))) := by
  have hvalid : Time.Stamp.Valid ⟨⟨2024, 1, 1⟩, 0, 0, 0, 123456789⟩ := by decide
  have h₀ : Course Script.adapter oneDevice onStale _ _ := .start
  have h₁ := h₀.beside (.accepted hvalid Service.append_stale)
  have h₂ := h₁.beside .closing
  have h₃ := h₂.beside (.pumped rfl)
  have h₄ := h₃.worked rfl
  have h₅ := h₄.worked rfl
  have h₆ := h₅.worked rfl
  exact ⟨_, h₆, rfl, rfl, rfl⟩

/-- The key is left out by the next queue, as the cursor that has been refused counts by then. -/
theorem ends_stale_cursor :
    Queue.open? oneDevice.program.queueDir 1 (.folder (Service.staleFolder none)) =
        (.folder (Service.staleFolder (some (.file []))), .ok (.ofJournal ⟨{}, 0, 0, 0⟩ 1)) ∧
      Hardware.connect Script.adapter ⟨breaking, 0, []⟩ =
        (.ok ⟨some 1, 1, .connected⟩, ⟨{ breaking with opens := [] }, 1, [.opened 1, .attached 1]⟩) ∧
      Place.Finds (.folder (Service.staleFolder none)) (Service.staleFolder (some (.file []))) [] ⟨112, 0⟩ ∧
      ∃ r, Course Script.adapter oneDevice onStale r [.key ⟨1, 0⟩] ∧
        r.stage = .done (.ok .drained) ∧ r.received = [] ∧
        Ended Script.adapter oneDevice onStale r (.ok .drained) ∧
        ∃ out, r.live.disk.place.HandsOut out ∧
          ¬ ∀ t, ∃ left, (r.received.filter fun e => e.stream = t) ++ left =
              events t (Service.start onStale.live).lines ++ ([.key ⟨1, 0⟩].filter fun e => e.stream = t) ∧
            left ++ events t r.left <:+ events t out := by
  have hopen : Queue.open? oneDevice.program.queueDir 1 (.folder (Service.staleFolder none)) =
      (.folder (Service.staleFolder (some (.file []))), .ok (.ofJournal ⟨{}, 0, 0, 0⟩ 1)) := Service.open_stale
  have hconnect : Hardware.connect Script.adapter ⟨breaking, 0, []⟩ =
      (.ok ⟨some 1, 1, .connected⟩, ⟨{ breaking with opens := [] }, 1, [.opened 1, .attached 1]⟩) := rfl
  obtain ⟨r, hcourse, hdone, hreceived, hplace⟩ := exists_course_onStale
  obtain ⟨hended, hnext, -⟩ := Course.ends hopen hconnect Service.finds_stale hcourse
  have hkept : ∀ result, r.stage = .done result → ¬ Removed result := by
    intro result heq
    rw [hdone] at heq
    cases heq
    exact id
  obtain ⟨f', log', c', hf', hout, hiff⟩ := hnext hkept
  obtain ⟨f₀, hfolder, hlog⟩ := hf'.folder
  rw [hplace] at hfolder
  cases hfolder
  cases hlog
  have hc := hf'.cursor.symm.trans Service.finds_stale.cursor
  cases hc
  have hnone : lines (Store.keyLine.drop (Journal.startOffset Store.keyLine ⟨112, 0⟩)) = [] := by
    rw [Store.startOffset_keyLine, ← Store.mark_keyLine, lines_drop_mark, Store.lines_keyLine]
    rfl
  refine ⟨hopen, hconnect, Service.finds_stale, r, hcourse, hdone, hreceived, (hended _ hdone).1, _,
    hout.2 (by rw [hnone]; exact (Option.some_ne_none _).symm),
    fun hall => hiff.1 hall ⟨by decide, rfl, Store.startOffset_keyLine, .keys, ?_⟩⟩
  rw [hreceived, Service.events_keyLine]
  exact Nat.zero_lt_one

end Relay
end CecRelay
