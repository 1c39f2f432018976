import CecRelay.Proofs.Dispatch.Ends

/-!
# A request to stop

A relay that has been asked to stop before it has begun to end receives nothing more. It looks for the request
between two events only, and a power event is over when its command has gone through to every device: when the
command is given up instead, the program is replaced all the same, as long as there are restarts left and a file to
run. When no command is given up the relay ends gracefully, unless both lanes have ended by then
(`Relay.Course.requested`).

## Scope

Replacing the handle, with the pauses between its attempts, is one step. Nobody looks for a request in it, so a
request that comes meanwhile is one that has come before.
-/

namespace CecRelay

open Lines

variable {σ : Type} {a : Adapter σ} {s : RelaySettings}

namespace Relay

variable {r₀ r r' : Relay σ} {es es' : List Event}

/-! ### What a request keeps -/

/-- A relay that has begun to end goes on with it. -/
theorem Turn.busy (h : r.Turn a s r') (hbusy : r'.Busy) : r.Busy := by
  cases h with
  | drains hstage | leaves hstage | power hstage | key hstage | ends _ _ hstage => exact .inl hstage
  | commands hstage | commanded hstage | escalates hstage => exact .inr ⟨_, _, _, hstage⟩
  | _ =>
    obtain hstage | ⟨_, _, _, hstage⟩ := hbusy
    · cases hstage
    · cases hstage

theorem Course.busy (h : Course a s r r' es) (hbusy : r'.Busy) : r.Busy := by
  induction h with
  | start => exact hbusy
  | worked _ hstep ih => exact ih ((turn_of_step? hstep).busy hbusy)
  | beside _ _ ih | closedBeside _ _ ih | asked _ ih | taskEnded _ _ ih => exact ih hbusy
  | @gaveUp u _ _ ih =>
    refine ih ?_
    obtain ⟨tasks, heq⟩ := u.giveUp_eq
    rw [heq] at hbusy
    exact hbusy

/-- No task has been broken off before the relay has begun to end. What holds by then is what a course may
start from. -/
theorem Holds.anew (h : Holds a s r₀ r) (hbusy : r.Busy) : Holds a s r r := by
  refine ⟨h.hardware, fun k hk => ?_, ?_⟩
  · obtain ⟨_, _, _, _, ⟨w, leaving, rfl, -, hstage, -⟩, hr⟩ := h.aborted k hk
    have hbusy' := hr.busy hbusy
    obtain ⟨tasks, heq⟩ := w.giveUp_eq
    rw [heq, Busy, hstage] at hbusy'
    obtain hchoosing | ⟨_, _, _, hpowering⟩ := hbusy'
    · cases hchoosing
    · cases hpowering
  · have hover := h.stage
    obtain hstage | ⟨c, command, rest, hstage⟩ := hbusy
    · rw [hstage] at hover ⊢
      exact hover
    · rw [hstage] at hover ⊢
      exact hover

/-- A relay that has been asked to stop receives nothing more, and finds no lane at its end. -/
theorem Course.stays_asked (h : Course a s r r' es) (hc : r.cancelled = true) :
    r'.cancelled = true ∧ r'.keysOpen = r.keysOpen ∧ r'.powerOpen = r.powerOpen ∧ r'.received = r.received := by
  induction h with
  | start => exact ⟨hc, rfl, rfl, rfl⟩
  | @worked u u' _ _ hstep ih =>
    obtain ⟨hc', hkeys, hpower, hreceived⟩ := ih
    have hnot : u.cancelled ≠ false := fun hfalse => by
      rw [hc'] at hfalse
      cases hfalse
    cases turn_of_step? hstep with
    | power _ hfalse => exact absurd hfalse hnot
    | key _ hfalse => exact absurd hfalse hnot
    | ends _ _ _ _ hfalse => exact absurd hfalse hnot
    | escalates => exact ⟨rfl, hkeys, hpower, hreceived⟩
    | _ => exact ⟨hc', hkeys, hpower, hreceived⟩
  | beside _ _ ih | closedBeside _ _ ih | taskEnded _ _ ih => exact ih
  | asked _ ih => exact ⟨rfl, ih.2⟩
  | @gaveUp u _ _ ih =>
    obtain ⟨tasks, heq⟩ := u.giveUp_eq
    rw [heq]
    exact ih

/-- While a command is carried out the lane of power events has not ended. -/
theorem Course.powerOpen (h : Course a s r r' es) (hstage : r.stage = .choosing) {c : Caller} {command : PowerCommand}
    {rest : List UInt8} (hpowering : r'.stage = .powering c command rest) : r'.powerOpen = true := by
  induction h generalizing c command rest with
  | start =>
    rw [hstage] at hpowering
    cases hpowering
  | worked _ hstep ih =>
    cases turn_of_step? hstep with
    | power _ _ _ hopen => exact hopen
    | commands hbefore => exact ih hbefore
    | commanded hbefore => exact ih hbefore
    | key hbefore =>
      rw [takeKey, hbefore] at hpowering
      cases hpowering
    | ends _ _ hbefore =>
      rw [hbefore] at hpowering
      cases hpowering
    | _ => cases hpowering
  | beside _ _ ih | closedBeside _ _ ih | asked _ ih | taskEnded _ _ ih => exact ih hpowering
  | @gaveUp u _ _ ih =>
    obtain ⟨tasks, heq⟩ := u.giveUp_eq
    rw [heq] at hpowering ⊢
    exact ih hpowering

/-- A relay that looks what to do next when it is asked to stop carries out no command. -/
theorem Course.stays_idle (h : Course a s r r' es) (hstage : r.stage = .choosing) (hc : r.cancelled = true)
    (c : Caller) (command : PowerCommand) (rest : List UInt8) : r'.stage ≠ .powering c command rest := by
  induction h generalizing c command rest with
  | start =>
    rw [hstage]
    exact fun heq => (by cases heq)
  | @worked u u' _ hu hstep ih =>
    intro hpowering
    cases turn_of_step? hstep with
    | power _ hfalse =>
      rw [(hu.stays_asked hc).1] at hfalse
      cases hfalse
    | commands hbefore | commanded hbefore => exact ih _ _ _ hbefore
    | key hbefore =>
      rw [takeKey, hbefore] at hpowering
      cases hpowering
    | ends _ _ hbefore =>
      rw [hbefore] at hpowering
      cases hpowering
    | _ => cases hpowering
  | beside _ _ ih | closedBeside _ _ ih | asked _ ih | taskEnded _ _ ih => exact ih c command rest
  | @gaveUp u _ _ ih =>
    obtain ⟨tasks, heq⟩ := u.giveUp_eq
    rw [heq]
    exact ih c command rest

theorem GivenUp.planned_iff {cause : RelayError} {plans : List RestartPlan} {result : Except RelayError Exit}
    (h : GivenUp s cause plans result) : plans ≠ [] ↔ s.budget ≠ 0 ∧ s.program.path ≠ none := by
  rw [ne_eq, h.planned, not_or]

/-- The program is replaced only with restarts left, and with a file to run. -/
theorem Escalating.planned {cause : RelayError} {plans : List RestartPlan} {stage : Stage}
    (h : Escalating s cause plans stage) (hplans : plans ≠ []) : s.budget ≠ 0 ∧ s.program.path ≠ none := by
  cases stage with
  | choosing => exact h.elim
  | powering | stopping | releasing => exact absurd h.2 hplans
  | closing _ replaced | awaiting _ replaced | ending _ replaced _ =>
    cases replaced with
    | false => exact Program.plan?_ne_none.1 (h.2.1 rfl).1
    | true => exact (h.2.2 rfl).planned_iff.1 hplans
  | replacing => exact Program.plan?_ne_none.1 h.2.1
  | done => exact (GivenUp.planned_iff h).1 hplans

/-- The program is replaced only when a command has been given up. -/
theorem Course.gaveUp_of_plans (h : Course a s r₀ r es) (h₀ : Holds a s r₀ r₀) (hbusy : r₀.Busy)
    (hplans : r.plans ≠ []) : ∃ cause, s.Hard cause ∧ Passed a s (GaveUp cause) r₀ r := by
  have hover := (h.holds h₀).stage
  have hwhence := h.whence h₀ hbusy
  have hreleased : ∀ {leaving replaced}, Released a s r₀ r leaving replaced → OnRequest a s r₀ r leaving →
      ∃ cause, s.Hard cause ∧ Passed a s (GaveUp cause) r₀ r := by
    intro leaving replaced hreleased hasked
    cases leaving with
    | graceful => exact absurd (hasked rfl).1 hplans
    | escalated cause => exact ⟨cause, hreleased.ending.cause cause rfl⟩
  cases hstage : r.stage with
  | choosing =>
    rw [hstage] at hover
    exact absurd hover hplans
  | powering | stopping | releasing =>
    rw [hstage] at hover
    exact absurd hover.1 hplans
  | closing =>
    rw [hstage] at hover hwhence
    exact hreleased hover hwhence
  | awaiting | ending =>
    rw [hstage] at hover hwhence
    exact hreleased hover.1 hwhence
  | replacing cause =>
    rw [hstage] at hover
    exact ⟨cause, hover.1.ending.cause cause rfl⟩
  | done result =>
    rw [hstage] at hwhence
    cases hwhence with
    | graceful hgraceful => exact absurd hgraceful.plans hplans
    | drained _ _ hnone => exact absurd hnone hplans
    | givenUp hhard hgave => exact ⟨_, hhard, hgave⟩

/-- With this result no command has been given up. -/
theorem GivenUp.not_drained {cause : RelayError} {plans : List RestartPlan} {result : Except RelayError Exit}
    (h : GivenUp s cause plans result) : result ≠ .ok .drained := by
  rcases h.result_cases with rfl | rfl | rfl
  · exact fun heq => (by cases heq)
  · exact fun heq => (by cases heq)
  · exact fun heq => (by cases heq)

/-! ### What becomes of a request -/

/-- A relay that has given a command up does not end gracefully. -/
theorem Graceful.not_gaveUp {result : Except RelayError Exit} (h : Graceful a s r r' result) (hholds : Holds a s r r)
    (hdone : r'.stage = .done result) : ¬ ∃ cause, Passed a s (GaveUp cause) r r' := by
  rintro ⟨cause, hgave⟩
  have hresult := hgave.escalating hholds
  rw [hdone] at hresult
  exact GivenUp.not_removed hresult h.removing

section Asked

variable (hasked : r.cancelled = true)

include hasked in
/-- What ends gracefully had a lane that had not ended when it was asked to stop. -/
theorem Passed.lanes_of_leaves (h : Passed a s Leaves r r') : (r.keysOpen || r.powerOpen) = true := by
  obtain ⟨u, _, _, hu, ⟨-, -, hopen⟩, -⟩ := h
  obtain ⟨-, hkeys, hpower, -⟩ := hu.stays_asked hasked
  rwa [hkeys, hpower] at hopen

include hasked in
theorem Passed.lanes_of_drains (h : Passed a s Drains r r') : r.keysOpen = false ∧ r.powerOpen = false := by
  obtain ⟨u, _, _, hu, ⟨-, hkeys, hpower⟩, -⟩ := h
  obtain ⟨-, hkeys', hpower', -⟩ := hu.stays_asked hasked
  exact ⟨hkeys'.symm.trans hkeys, hpower'.symm.trans hpower⟩

end Asked

/-- A relay is opened on any queue and any adapter, takes any course, and is asked to stop before it has begun to
end, be it between two events or at any point of a command. Whatever else is done, it receives nothing more and
can come to its end. The program is replaced only when a command has been given up since, and with restarts left and a
file to run it is then. When no command has been given up the end is graceful, unless both lanes had ended. -/
theorem Course.requested {q : Queue} {place : Place} {inner : σ} {link : Link} {port : Port σ}
    (hconnect : Hardware.connect a ⟨inner, 0, []⟩ = (.ok link, port)) {tasks : Nat}
    (h : Course a s (opened q place link port tasks) r es) (hbusy : r.Busy) (hasked : r.cancelled = true)
    (h' : Course a s r r' es') :
    r'.received = r.received ∧ CanEnd a s r' ∧
    (r'.plans ≠ [] → (s.budget ≠ 0 ∧ s.program.path ≠ none) ∧
      ∃ cause, s.Hard cause ∧ Passed a s (GaveUp cause) r r') ∧
    (r.stage = .choosing → ∀ cause, ¬ Passed a s (GaveUp cause) r r') ∧
    ∀ result, r'.stage = .done result →
      (Graceful a s r r' result ↔
        (r.keysOpen || r.powerOpen) = true ∧ ¬ ∃ cause, Passed a s (GaveUp cause) r r') ∧
      (result = .ok .drained ↔ r.keysOpen = false ∧ r.powerOpen = false) ∧
      (r'.plans ≠ [] ↔ (s.budget ≠ 0 ∧ s.program.path ≠ none) ∧ ∃ cause, Passed a s (GaveUp cause) r r') := by
  have hopened : Holds a s (opened q place link port tasks) (opened q place link port tasks) := holds_opened hconnect
  have hholds : Holds a s r r := (h.holds hopened).anew hbusy
  obtain ⟨hasked', -, -, hreceived⟩ := h'.stays_asked hasked
  have hplanned : r'.plans ≠ [] → (s.budget ≠ 0 ∧ s.program.path ≠ none) ∧
      ∃ cause, s.Hard cause ∧ Passed a s (GaveUp cause) r r' := by
    intro hplans
    obtain ⟨cause, hhard, hgave⟩ := h'.gaveUp_of_plans hholds hbusy hplans
    exact ⟨(hgave.escalating hholds).planned hplans, cause, hhard, hgave⟩
  -- a lane has not ended while a command is carried out
  have hlane : (∃ cause, Passed a s (GaveUp cause) r r') → r.powerOpen = true := by
    rintro ⟨cause, u, _, _, hu, ⟨command, rest, hstage⟩, -⟩
    rw [← (hu.stays_asked hasked).2.2.1]
    exact (h.trans hu).powerOpen rfl hstage
  refine ⟨hreceived, (h'.holds hholds).canEnd fun _ => .inl hasked', hplanned, ?_, fun result hdone => ⟨?_, ?_, ?_⟩⟩
  · rintro hstage cause ⟨u, _, _, hu, ⟨command, rest, hpowering⟩, -⟩
    exact hu.stays_idle hstage hasked _ _ _ hpowering
  · constructor
    · intro hgraceful
      exact ⟨hgraceful.asked.lanes_of_leaves hasked, hgraceful.not_gaveUp hholds hdone⟩
    · rintro ⟨hopen, hnone⟩
      cases h'.ended hholds hbusy hdone with
      | graceful hgraceful => exact hgraceful
      | drained _ hdrains =>
        obtain ⟨hkeys, hpower⟩ := hdrains.lanes_of_drains hasked
        rw [hkeys, hpower] at hopen
        cases hopen
      | givenUp _ hgave => exact absurd ⟨_, hgave⟩ hnone
  · constructor
    · intro heq
      cases h'.ended hholds hbusy hdone with
      | graceful hgraceful =>
        have hremoved := hgraceful.removing
        rw [heq] at hremoved
        exact hremoved.elim
      | drained _ hdrains => exact hdrains.lanes_of_drains hasked
      | givenUp _ _ hresult => exact absurd heq hresult.not_drained
    · rintro ⟨hkeys, hpower⟩
      cases h'.ended hholds hbusy hdone with
      | graceful hgraceful =>
        have hopen := hgraceful.asked.lanes_of_leaves hasked
        rw [hkeys, hpower] at hopen
        cases hopen
      | drained heq => exact heq
      | givenUp _ hgave =>
        have hopen := hlane ⟨_, hgave⟩
        rw [hpower] at hopen
        cases hopen
  · constructor
    · intro hplans
      obtain ⟨hleft, cause, -, hgave⟩ := hplanned hplans
      exact ⟨hleft, cause, hgave⟩
    · rintro ⟨hleft, cause, hgave⟩
      have hresult := hgave.escalating hholds
      rw [hdone] at hresult
      exact (GivenUp.planned_iff hresult).2 hleft

/-- A power event is received, its command is rejected, and somebody asks to stop. Opening the adapter again
does not work, and so the program is replaced. -/
theorem requested_while_reopening :
    Hardware.connect Script.adapter ⟨breaking, 0, []⟩ =
        (.ok ⟨some 1, 1, .connected⟩, ⟨{ breaking with opens := [] }, 1, [.opened 1, .attached 1]⟩) ∧
      Course Script.adapter oneDevice besideOneTask rejected.asked [.power ⟨.on, true⟩] ∧
      rejected.asked.Busy ∧ rejected.asked.cancelled = true ∧
      ∃ r, Course Script.adapter oneDevice rejected.asked r [] ∧ r.stage = .done (.ok .restarted) ∧
        r.plans = [⟨"relay", ["relay", "-q"], [("CEC_QUEUE_DIR", "q"), ("CEC_RESTART_RETRIES", "1")]⟩] ∧
        ¬ Graceful Script.adapter oneDevice rejected.asked r (.ok .restarted) := by
  have hconnect : Hardware.connect Script.adapter ⟨breaking, 0, []⟩ =
      (.ok ⟨some 1, 1, .connected⟩, ⟨{ breaking with opens := [] }, 1, [.opened 1, .attached 1]⟩) := rfl
  have hasked : Course Script.adapter oneDevice besideOneTask rejected.asked [.power ⟨.on, true⟩] :=
    (course_rejected (.inl rfl) [.running]).asked
  have hbusy : rejected.asked.Busy := .inr ⟨_, _, _, rfl⟩
  obtain ⟨r, r', hcourse, hstep, -, -, hplans, hdone⟩ := exists_course_rejected true
  have hend : Course Script.adapter oneDevice rejected.asked r' [] := hcourse.worked hstep
  obtain ⟨-, -, hplanned, -, hresult⟩ := Course.requested hconnect hasked hbusy rfl hend
  obtain ⟨-, cause, -, hgave⟩ := hplanned (by rw [hplans]; exact List.cons_ne_nil _ _)
  refine ⟨hconnect, hasked, hbusy, rfl, r', hend, hdone, hplans, fun hgraceful => ?_⟩
  exact ((hresult _ hdone).1.1 hgraceful).2 ⟨cause, hgave⟩

end Relay
end CecRelay
