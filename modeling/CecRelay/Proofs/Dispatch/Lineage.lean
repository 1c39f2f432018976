import CecRelay.CommandLine.Options
import CecRelay.Dispatch.Launch
import CecRelay.Proofs.Dispatch.Ends
import CecRelay.Proofs.Text.Decimal

/-!
# Copies of the program

A program that replaces itself starts over with the same file and the same command line, in its own environment
with the variables of the plan over it. Each copy reads back the folder of the queue and one restart less
(`Startup.Configured.handed`), so a lineage comes to an end (`Lineage.bounded`).
-/

namespace CecRelay

variable {σ : Type}

/-! ### Reading back -/

namespace Config

theorem withBudget_dir (c : Config) (env : Environment) : (c.withBudget env).1.queue = c.queue := by
  rw [withBudget]
  split
  · rfl
  · split
    · rfl
    · rfl

theorem withHost_same (c : Config) (host : Option String) :
    (c.withHost host).budget = c.budget ∧ (c.withHost host).queue = c.queue := by
  simp only [withHost]
  split
  · split
    · exact ⟨rfl, rfl⟩
    · exact ⟨rfl, rfl⟩
  · split
    · exact ⟨rfl, rfl⟩
    · exact ⟨rfl, rfl⟩

/-- The host and the command line do not say where the queue is and how many restarts are left. -/
theorem assemble_same (file : Config) (env : Environment) (host : Option String) (o : Options) :
    (file.assemble env host o).1.budget = (file.withEnvironment env).1.budget ∧
      (file.assemble env host o).1.queue = (file.withEnvironment env).1.queue :=
  withHost_same (file.withEnvironment env).1 host

end Config

namespace Startup

/-- The relay is started with the configuration of the file, an environment, a host and the command line. -/
def Configured (file : Config) (o : Options) (env : Environment) (s : Startup) : Prop :=
  ∃ host tag now, s = .ofConfig (file.assemble env host o).1 env tag now

variable {file : Config} {o : Options} {env : Environment} {s : Startup}

/-- The variables of a plan are found in the environment that they are put over. -/
theorem layer_plan (env : Environment) (dir left : String) :
    Environment.layer [(queueDirVariable, dir), (budgetVariable, left)] env queueDirVariable = some dir ∧
      Environment.layer [(queueDirVariable, dir), (budgetVariable, left)] env budgetVariable = some left := by
  have hother : (budgetVariable == queueDirVariable) = false := by decide
  constructor
  · rw [Environment.layer, List.lookup_cons_self, Option.some_or]
  · simp only [Environment.layer, List.lookup_cons, hother, BEq.rfl, Option.some_or]

/-- A program that finds the folder and the restarts left in its environment takes them from there, and does not
wake the devices. -/
theorem Configured.handed (h : Configured file o env s) {dir : String} {left : UInt32}
    (hnamed : env queueDirVariable = some dir) (hleft : env budgetVariable = some (toString left))
    (hdir : dir ≠ "") : s.config.budget = left ∧ s.queueDir = dir ∧ ∀ l, s.stored l = l := by
  obtain ⟨host, tag, now, rfl⟩ := h
  obtain ⟨hbudget, hqueue⟩ := Config.assemble_same file env host o
  refine ⟨?_, ?_, fun l => ?_⟩
  · show (file.assemble env host o).1.budget = left
    rw [hbudget, Config.withEnvironment, Config.withBudget, hleft]
    simp only [Text.readUInt32_toString]
  · show Config.queueDir (file.assemble env host o).1 env tag = dir
    rw [Config.queueDir, hqueue, Config.withEnvironment, Config.withBudget_dir, Config.withQueueDir, hnamed]
    simp only [if_neg hdir, Option.getD_some]
  · have hwakes : (ofConfig (file.assemble env host o).1 env tag now).wakes = false := by
      simp only [wakes, ofConfig, hleft, Option.isNone_some, Bool.and_false, Bool.false_and]
    rw [stored, hwakes]
    rfl

end Startup

namespace Relay

variable {a : Adapter σ} {s : RelaySettings} {r₀ r r' : Relay σ} {es : List Event}

/-! ### Plans -/

/-- Every plan that is carried out is the plan of the program. -/
theorem Course.planned (h : Course a s r₀ r es) (h₀ : r₀.plans = []) :
    ∀ plan ∈ r.plans, s.program.plan? s.budget = some plan := by
  have hmore : ∀ {plans : List RestartPlan} {new : RestartPlan},
      (∀ plan ∈ plans, s.program.plan? s.budget = some plan) → s.program.plan? s.budget = some new →
      ∀ plan ∈ plans ++ [new], s.program.plan? s.budget = some plan := by
    intro plans new hall hnew plan hmem
    rcases List.mem_append.1 hmem with hold | hlast
    · exact hall plan hold
    · rw [List.mem_singleton.1 hlast]
      exact hnew
  induction h with
  | start =>
    rw [h₀]
    exact fun _ hmem => (by cases hmem)
  | worked _ hstep ih =>
    cases turn_of_step? hstep with
    | replaces _ hplan | replacesNot _ hplan => exact hmore ih hplan
    | _ => exact ih
  | beside _ _ ih | closedBeside _ _ ih | asked _ ih | taskEnded _ _ ih => exact ih
  | @gaveUp u _ _ ih =>
    obtain ⟨tasks, heq⟩ := u.giveUp_eq
    rw [heq]
    exact ih

/-- The relay is about to restart the program, and closes the queue for that. -/
def Restarting (stage : Stage) : Prop :=
  ∃ cause, stage = .closing (.escalated cause) false ∨ stage = .awaiting (.escalated cause) false ∨
    (∃ ready, stage = .ending (.escalated cause) false ready) ∨ stage = .replacing cause

/-- Without restarts left a relay is never about to restart the program. -/
theorem Course.not_restarting (h : Course a s r₀ r es) (h₀ : Holds a s r₀ r₀) (hzero : s.budget = 0) :
    ¬ Restarting r.stage := by
  have hover := (h.holds h₀).stage
  have hreleased : ∀ {cause}, Released a s r₀ r (.escalated cause) false → Escalating s cause r.plans r.stage :=
    fun hreleased => (hreleased.ending.cause _ rfl).2.escalating h₀
  have hnone : s.program.plan? s.budget = none := Program.plan?_eq_none.2 (.inl hzero)
  rintro ⟨cause, hstage | hstage | ⟨ready, hstage⟩ | hstage⟩
  · rw [hstage] at hover hreleased
    exact ((hreleased hover).2.1 rfl).1 hnone
  · rw [hstage] at hover hreleased
    exact ((hreleased hover.1).2.1 rfl).1 hnone
  · rw [hstage] at hover hreleased
    exact ((hreleased hover.1).2.1 rfl).1 hnone
  · rw [hstage] at hover hreleased
    exact (hreleased hover.1).2.1 hnone

end Relay

/-! ### Lineages -/

/-- A copy of the program. -/
structure Copy (σ : Type) where
  /-- Its environment. -/
  env : Environment
  /-- What its relay is started with. -/
  startup : Startup
  /-- The file to run, if the system can tell it. -/
  path : Option String
  /-- Replacing it works. -/
  replaceable : Bool
  /-- Its relay, as far as it has come. -/
  relay : Relay σ

namespace Copy

/-- What the relay of a copy is given. -/
def settings (args : List String) (p : Copy σ) : RelaySettings :=
  { p.startup.settings p.path args with replaceable := p.replaceable }

/-- The copy has been replaced by another. -/
structure Replaced (p p' : Copy σ) : Prop where
  /-- Its relay has come to that end. -/
  restarted : p.relay.stage = .done (.ok .restarted)
  /-- The variables of the plan are put over its environment. -/
  env : ∃ plan, p.relay.plans.getLast? = some plan ∧ p'.env = .layer plan.env p.env

end Copy

section Lineage

variable (file : Config) (o : Options) (args : List String) (a : Adapter σ)

/-- A copy has been started, on any folder and any adapter, and its relay has taken any course. -/
structure Copy.Works (p : Copy σ) : Prop where
  /-- It has read the file, its environment and the command line. -/
  configured : p.startup.Configured file o p.env
  /-- Its relay has been started. -/
  course : ∃ monitor place inner r₀ es, (Launched.start a p.startup monitor place ⟨inner, 0, []⟩).relay = .ok r₀ ∧
    r₀.Course a (p.settings args) p.relay es

/-- Copies that have replaced each other, from the first on. -/
inductive Lineage (p₀ : Copy σ) : Nat → Copy σ → Prop
  /-- The first. -/
  | first : p₀.Works file o args a → Lineage p₀ 0 p₀
  /-- One more. -/
  | next {k : Nat} {p p' : Copy σ} : Lineage p₀ k p → p.Replaced p' → p'.Works file o args a →
    Lineage p₀ (k + 1) p'

variable {file o args a} {p p₀ p' : Copy σ} {k : Nat}

/-- A relay that has been started has not begun. -/
theorem Launched.start_fresh {s : Startup} {monitor : Except RelayError Unit} {place : Place} {inner : σ}
    {r : Relay σ} (h : (Launched.start a s monitor place ⟨inner, 0, []⟩).relay = .ok r) (t : RelaySettings) :
    Relay.Holds a t r r ∧ r.stage = .choosing ∧ r.plans = [] := by
  rw [start] at h
  split at h
  · cases h
  · split at h
    · cases h
    next link port hconnect =>
      simp only at h
      split at h
      · cases h
      · cases h
        exact ⟨Relay.holds_fresh hconnect _, rfl, rfl⟩

/-- What the relay of a copy has come to. -/
theorem Copy.Works.relay (h : p.Works file o args a) : p.relay.plans.length ≤ 1 ∧
    (∀ plan ∈ p.relay.plans, (p.settings args).program.plan? p.startup.config.budget = some plan) ∧
    (p.startup.config.budget = 0 → p.relay.plans = [] ∧ ¬ Relay.Restarting p.relay.stage) := by
  obtain ⟨_, _, _, r₀, es, hstart, hcourse⟩ := h.course
  obtain ⟨h₀, hstage, hnone⟩ := Launched.start_fresh hstart (p.settings args)
  refine ⟨(hcourse.holds h₀).stage.plans, hcourse.planned hnone, fun hzero => ⟨?_, hcourse.not_restarting h₀ hzero⟩⟩
  refine List.eq_nil_iff_forall_not_mem.2 fun plan hmem => ?_
  have hplan := hcourse.planned hnone plan hmem
  exact absurd (hplan.symm.trans (Program.plan?_eq_none.2 (.inl hzero))) (Option.some_ne_none plan)

/-- The plan of a copy. -/
theorem Copy.Works.plan (h : p.Works file o args a) {plan : RestartPlan} (hmem : plan ∈ p.relay.plans) :
    (p.startup.config.budget - 1).toNat + 1 = p.startup.config.budget.toNat ∧ ∃ path, p.path = some path ∧
      plan = ⟨path, args, [(queueDirVariable, p.startup.queueDir),
        (budgetVariable, toString (p.startup.config.budget - 1))]⟩ :=
  Program.plan?_some (h.relay.2.1 plan hmem)

/-- A copy reads back what the one before it has handed over. -/
theorem Copy.Replaced.handed (h : p.Replaced p') (hp : p.Works file o args a) (hdir : p.startup.queueDir ≠ "")
    {s : Startup} (hs : s.Configured file o p'.env) :
    s.config.budget.toNat + 1 = p.startup.config.budget.toNat ∧ s.queueDir = p.startup.queueDir ∧
      ∀ l, s.stored l = l := by
  obtain ⟨plan, hlast, henv⟩ := h.env
  obtain ⟨hleft, _, -, rfl⟩ := hp.plan (List.mem_of_getLast? hlast)
  rw [henv] at hs
  obtain ⟨hnamed, htold⟩ := Startup.layer_plan p.env p.startup.queueDir (toString (p.startup.config.budget - 1))
  obtain ⟨hbudget, hqueue, hstored⟩ := hs.handed hnamed htold hdir
  exact ⟨hbudget ▸ hleft, hqueue, hstored⟩

theorem Lineage.works (h : Lineage file o args a p₀ k p) : p.Works file o args a := by
  cases h with
  | first hp => exact hp
  | next _ _ hp => exact hp

/-- What is handed on from copy to copy. -/
theorem Lineage.handed (h : Lineage file o args a p₀ k p) (hdir : p₀.startup.queueDir ≠ "") :
    p.startup.config.budget.toNat + k = p₀.startup.config.budget.toNat ∧
      p.startup.queueDir = p₀.startup.queueDir ∧ (0 < k → ∀ l, p.startup.stored l = l) := by
  induction h with
  | first => exact ⟨rfl, rfl, fun hzero => absurd hzero (Nat.lt_irrefl 0)⟩
  | @next k p p' hlineage hreplaced hp' ih =>
    obtain ⟨hbudget, hqueue, -⟩ := ih
    obtain ⟨hbudget', hqueue', hstored⟩ :=
      hreplaced.handed hlineage.works (by rw [hqueue]; exact hdir) hp'.configured
    exact ⟨by omega, hqueue'.trans hqueue, fun _ => hstored⟩

/-- Copies of a program replace each other, in any way. The copy after `k` others reads back the folder of the
queue and `k` restarts less, so there are no more of them than restarts at first; all but the first leave the
devices asleep. Each plan hands on the folder and one restart less, and whoever is started by it reads that back.
Without restarts left there is no plan, and when a command is given up the relay goes on to close the queue with
nothing done to it before. -/
theorem Lineage.bounded (h : Lineage file o args a p₀ k p) (hdir : p₀.startup.queueDir ≠ "") :
    k ≤ p₀.startup.config.budget.toNat ∧
    p.startup.config.budget.toNat + k = p₀.startup.config.budget.toNat ∧
    p.startup.queueDir = p₀.startup.queueDir ∧
    (0 < k → ∀ l, p.startup.stored l = l) ∧
    p.relay.plans.length ≤ 1 ∧
    (∀ plan ∈ p.relay.plans, ∃ left : UInt32, ∃ path,
      left.toNat + (k + 1) = p₀.startup.config.budget.toNat ∧ p.path = some path ∧
      plan = ⟨path, args, [(queueDirVariable, p₀.startup.queueDir), (budgetVariable, toString left)]⟩ ∧
      ∀ s, Startup.Configured file o (.layer plan.env p.env) s →
        s.config.budget = left ∧ s.queueDir = p₀.startup.queueDir ∧ ∀ l, s.stored l = l) ∧
    (p.startup.config.budget = 0 →
      p.relay.plans = [] ∧ ¬ Relay.Restarting p.relay.stage ∧
      ∀ cause, p.relay.stage = .releasing (.escalated cause) →
        p.relay.step? a (p.settings args) = some { p.relay with
          hardware := p.relay.hardware.release a
          stage := .closing (.escalated cause) true }) := by
  obtain ⟨hbudget, hqueue, hstored⟩ := h.handed hdir
  obtain ⟨hone, -, hzero⟩ := h.works.relay
  refine ⟨by omega, hbudget, hqueue, hstored, hone, fun plan hmem => ?_, fun hnone => ?_⟩
  · obtain ⟨hleft, path, hpath, hplan⟩ := h.works.plan hmem
    rw [hqueue] at hplan
    refine ⟨p.startup.config.budget - 1, path, by omega, hpath, hplan, fun s hs => ?_⟩
    rw [hplan] at hs
    obtain ⟨hnamed, htold⟩ := Startup.layer_plan p.env p₀.startup.queueDir (toString (p.startup.config.budget - 1))
    exact hs.handed hnamed htold hdir
  · obtain ⟨hplans, hnot⟩ := hzero hnone
    refine ⟨hplans, hnot, fun cause hstage => ?_⟩
    have hunplanned : (p.settings args).program.plan? (p.settings args).budget = none :=
      Program.plan?_eq_none.2 (.inl hnone)
    rw [Relay.step?, hstage]
    simp only [hunplanned, Option.isNone_none]

end Lineage

/-! ### Two copies -/

/-- One device, two restarts, and a named folder. The devices are not woken at the start. -/
def twoRestarts : Config :=
  { adapter := { retries := 1, delay := ⟨0⟩ }
    power := { wakeAtStart := false }
    queue := { dir := some "q", capacity := 1 }
    budget := 2 }

/-- What a copy is started with in an environment. -/
def twoRestartsIn (env : Environment) : Startup :=
  .ofConfig (twoRestarts.assemble env none {}).1 env "" ⟨⟨2024, 1, 1⟩, 0, 0, 0, 123456789⟩

/-- The environment of the second copy. -/
def secondEnvironment : Environment :=
  .layer [(queueDirVariable, "q"), (budgetVariable, toString (1 : UInt32))] fun _ => none

/-- The relay of either copy starts on an empty folder, beside three tasks. -/
theorem start_first :
    (Launched.start Script.adapter (twoRestartsIn fun _ => none) (.ok ()) .missing ⟨Relay.breaking, 0, []⟩).relay =
      .ok (Relay.onEmpty .idle [.running, .running, .running]) := rfl

theorem start_second :
    (Launched.start Script.adapter (twoRestartsIn secondEnvironment) (.ok ()) .missing
      ⟨Relay.breaking, 0, []⟩).relay = .ok (Relay.onEmpty .idle [.running, .running, .running]) := rfl

/-- The first copy gives a power command up, and is replaced. -/
theorem exists_course_first :
    ∃ r es, Relay.Course Script.adapter Relay.oneDevice (Relay.onEmpty .idle [.running, .running, .running]) r es ∧
      r.stage = .done (.ok .restarted) ∧
      r.plans = [⟨"relay", ["relay", "-q"], [(queueDirVariable, "q"), (budgetVariable, toString (1 : UInt32))]⟩] := by
  have hrejected := Relay.course_rejected (.inr rfl) [.running, .running, .running]
  have hgave := hrejected.worked rfl
  obtain ⟨h₀, -, hnone⟩ := Launched.start_fresh start_first Relay.oneDevice
  have hheld := hgave.holds h₀
  obtain ⟨⟨r, result, hcourse, hdone⟩, -⟩ := Relay.GaveUp.results ⟨_, _, rfl⟩ hheld hgave h₀ .start
  obtain ⟨-, hresult⟩ := Relay.GaveUp.results ⟨_, _, rfl⟩ hheld hgave h₀ hcourse
  replace hresult := hresult result hdone
  have hplanned := (hgave.trans hcourse).planned hnone
  have hone := ((hgave.trans hcourse).holds h₀).stage.plans
  refine ⟨r, _, hgave.trans hcourse, ?_, ?_⟩
  · rw [hdone, hresult.restarted.2 ⟨by decide, by decide, rfl⟩]
  · -- there is a plan, only one, and it is the plan of the program
    cases hplans : r.plans with
    | nil => exact absurd (hresult.planned.1 hplans) (by decide)
    | cons plan more =>
      rw [hplans] at hplanned hone
      obtain rfl : more = [] := List.eq_nil_of_length_eq_zero (Nat.le_zero.1 (Nat.le_of_succ_le_succ hone))
      have hplan := hplanned plan List.mem_cons_self
      cases hplan
      rfl

/-- The second copy reads back the folder and one restart less. -/
theorem bounded_two_copies : ∃ p₀ p₁ : Copy Script,
    Lineage twoRestarts {} ["relay", "-q"] Script.adapter p₀ 1 p₁ ∧ p₀.startup.queueDir ≠ "" ∧
      p₀.startup.config.budget.toNat = 2 ∧ p₁.startup.config.budget.toNat = 1 ∧
      p₁.startup.queueDir = "q" ∧ ∀ l, p₁.startup.stored l = l := by
  obtain ⟨r, es, hcourse, hdone, hplans⟩ := exists_course_first
  let p₀ : Copy Script := ⟨fun _ => none, twoRestartsIn fun _ => none, some "relay", true, r⟩
  let p₁ : Copy Script :=
    ⟨secondEnvironment, twoRestartsIn secondEnvironment, some "relay", true,
      Relay.onEmpty .idle [.running, .running, .running]⟩
  have hfirst : p₀.Works twoRestarts {} ["relay", "-q"] Script.adapter :=
    ⟨⟨none, _, _, rfl⟩, _, _, _, _, es, start_first, hcourse⟩
  have hsecond : p₁.Works twoRestarts {} ["relay", "-q"] Script.adapter :=
    ⟨⟨none, _, _, rfl⟩, _, _, _, _, [], start_second, .start⟩
  have hreplaced : p₀.Replaced p₁ := by
    have hlast : p₀.relay.plans.getLast? = some ⟨"relay", ["relay", "-q"],
        [(queueDirVariable, "q"), (budgetVariable, toString (1 : UInt32))]⟩ := by
      show r.plans.getLast? = _
      rw [hplans]
      rfl
    exact ⟨hdone, _, hlast, rfl⟩
  have hlineage : Lineage twoRestarts {} ["relay", "-q"] Script.adapter p₀ 1 p₁ :=
    .next (.first hfirst) hreplaced hsecond
  have hdir : p₀.startup.queueDir ≠ "" := by
    show "q" ≠ ""
    decide
  obtain ⟨-, hbudget, hqueue, hstored, -⟩ := Lineage.bounded hlineage hdir
  have htwo : p₀.startup.config.budget.toNat = 2 := rfl
  exact ⟨p₀, p₁, hlineage, hdir, htwo, by omega, hqueue, hstored Nat.one_pos⟩

end CecRelay
