import CecRelay.Proofs.Dispatch.Replacing

/-!
# What a run lets go of

A relay that has been asked to stop, or has given a command up, waits for its tasks one after the other, breaks off
those that do not end in time, and closes its adapter; only then does it come to its end. A relay that finds both
lanes ended is at its end at once: it waits for no task, and the handle of its adapter stays open
(`Relay.Course.lets_go`).

What has been let go of is told stage by stage (`Relay.Behind`). A relay that is on its way out never turns back
(`Relay.Course.out`), so one that is not has waited for no task.
-/

namespace CecRelay

variable {σ : Type} (a : Adapter σ) (s : RelaySettings)

/-- The relay is on its way out, by way of its tasks and its adapter. -/
def Stage.Out : Stage → Prop
  | .choosing | .powering _ _ _ => False
  | .done result => result ≠ .ok .drained
  | _ => True

/-- A link that has a handle has one after every step of a command, unless the command is given up. -/
theorem Caller.step_handle (policy : LinkPolicy) {h : Hardware σ} (hk : h.Keeps) (hheld : h.link.handle ≠ none)
    (c : Caller) :
    (∃ cause, (c.step a policy h).1 = .done (.error cause)) ∨ (c.step a policy h).2.link.handle ≠ none := by
  have hsent : ∀ command address, (h.send a command address).2.link.handle ≠ none := by
    intro command address
    rcases h.send_cases a command address with ⟨hnone, -⟩ | ⟨_, _, _, -, heq⟩
    · exact absurd hnone hheld
    · rwa [heq]
  cases c with
  | first command address =>
    have hheld' := hsent command address
    rw [step]
    split
    next heq =>
      rw [heq] at hheld'
      exact .inr hheld'
    next heq =>
      rw [heq] at hheld'
      exact .inr hheld'
  | replacing command address observed =>
    rw [step]
    split
    next h' heq =>
      right
      rw [Hardware.replaceFrom] at heq
      split at heq
      next => cases heq
      next =>
        split at heq
        next =>
          cases heq
          exact hheld
        next =>
          obtain ⟨_, _, -, -, ⟨-, -, hlink, -⟩ | ⟨herror, -⟩⟩ := h.replace_cases a policy hk
          · rw [heq] at hlink
            rw [hlink]
            exact Option.some_ne_none _
          · rw [heq] at herror
            cases herror
    next cause h' heq => exact .inl ⟨cause, rfl⟩
  | second command address =>
    have hheld' := hsent command address
    rw [step]
    split
    next heq =>
      rw [heq] at hheld'
      exact .inr hheld'
    next => exact .inl ⟨_, rfl⟩
  | done result => exact .inr hheld

namespace Relay

/-- The relay waits for a task, which is over. -/
def WaitedFor (k : Nat) (u : Relay σ) : Prop :=
  ∃ leaving t, u.stage = .stopping leaving k ∧ u.tasks[k]? = some t ∧ t ≠ .running

/-- The adapter is closed, and the relay has waited for every task. -/
def LetGo (r₀ r : Relay σ) : Prop :=
  r.hardware.link.handle = none ∧ ∀ j < r.tasks.length, Passed a s (WaitedFor j) r₀ r

/-- What a relay has let go of in a stage, and what it still holds. -/
def Behind (r₀ r : Relay σ) : Stage → Prop
  | .choosing => r.hardware.link.handle ≠ none
  | .powering c _ _ => (∃ cause, c = .done (.error cause)) ∨ r.hardware.link.handle ≠ none
  | .stopping _ k => ∀ j < k, Passed a s (WaitedFor j) r₀ r
  | .releasing _ => ∀ j < r.tasks.length, Passed a s (WaitedFor j) r₀ r
  | .closing _ _ | .awaiting _ _ | .ending _ _ _ | .replacing _ => LetGo a s r₀ r
  | .done result =>
    (result = .ok .drained → r.hardware.link.handle ≠ none) ∧ (result ≠ .ok .drained → LetGo a s r₀ r)

variable {a s} {r₀ r r' : Relay σ} {es : List Event} {k : Nat}

/-! ### The way out -/

theorem out_worked (hout : r.stage.Out) (hstep : r.step? a s = some r') : r'.stage.Out := by
  cases turn_of_step? hstep with
  | drains hstage | leaves hstage | power hstage | key hstage | ends _ _ hstage | commands hstage
  | commanded hstage | escalates hstage =>
    rw [hstage] at hout
    exact hout.elim
  | removes =>
    intro hdrained
    have hremoved := removed_map r.live
    rw [hdrained] at hremoved
    exact hremoved
  | fails | replaces => exact fun hdrained => (by cases hdrained)
  | _ => trivial

/-- A relay that is on its way out stays so. -/
theorem Course.out (h : Course a s r r' es) (hout : r.stage.Out) : r'.stage.Out := by
  induction h with
  | start => exact hout
  | worked _ hstep ih => exact out_worked ih hstep
  | beside _ _ ih | closedBeside _ _ ih | asked _ ih | taskEnded _ _ ih => exact ih
  | @gaveUp r es _ ih =>
    obtain ⟨tasks, heq⟩ := r.giveUp_eq
    rw [heq]
    exact ih

/-- A relay that is not on its way out has waited for no task. -/
theorem not_waitedFor (hin : ¬ r.stage.Out) : ¬ Passed a s (WaitedFor k) r₀ r := by
  rintro ⟨u, _, _, -, ⟨leaving, _, hstage, -⟩, hr⟩
  refine hin (hr.out ?_)
  rw [hstage]
  trivial

/-! ### Tasks -/

/-- A task that is over stays as it is. -/
theorem Course.task_over {t : TaskStatus} (h : Course a s r r' es) (hk : r.tasks[k]? = some t) (hover : t ≠ .running) :
    r'.tasks[k]? = some t := by
  have hset : ∀ {tasks : List TaskStatus} {j : Nat} {t' : TaskStatus}, tasks[j]? = some .running →
      tasks[k]? = some t → (tasks.set j t')[k]? = some t := by
    intro tasks j t' hj hk
    have hne : j ≠ k := by
      rintro rfl
      rw [hj] at hk
      exact hover (Option.some.inj hk).symm
    rwa [List.getElem?_set_ne hne]
  induction h with
  | start => exact hk
  | worked _ hstep ih => rwa [tasks_worked hstep]
  | beside _ _ ih | closedBeside _ _ ih | asked _ ih => exact ih
  | taskEnded _ hj ih => exact hset hj ih
  | @gaveUp r es _ ih =>
    rcases r.giveUp_cases with heq | ⟨_, j, -, hj, heq⟩
    · rwa [heq]
    · rw [heq]
      exact hset hj ih

/-- No task comes or goes. -/
theorem Course.length_tasks (h : Course a s r r' es) : r'.tasks.length = r.tasks.length := by
  induction h with
  | start => rfl
  | worked _ hstep ih => rw [tasks_worked hstep, ih]
  | beside _ _ ih | closedBeside _ _ ih | asked _ ih => exact ih
  | taskEnded _ _ ih => exact List.length_set.trans ih
  | @gaveUp r es _ ih =>
    rcases r.giveUp_cases with heq | ⟨_, _, -, -, heq⟩
    · rw [heq, ih]
    · rw [heq]
      exact List.length_set.trans ih

/-- A task for which the relay has waited has ended or been broken off. -/
theorem Passed.task_over (h : Passed a s (WaitedFor k) r₀ r) (hholds : Holds a s r₀ r) :
    r.tasks[k]? = some .ended ∨ r.tasks[k]? = some .aborted ∧ Passed a s (BrokeOff k) r₀ r := by
  obtain ⟨_, _, _, -, ⟨_, t, -, ht, hover⟩, hr⟩ := h
  have hk := hr.task_over ht hover
  cases t with
  | running => exact absurd rfl hover
  | ended => exact .inl hk
  | aborted => exact .inr ⟨hk, hholds.aborted k hk⟩

/-! ### Stage by stage -/

/-- What others do takes nothing back. -/
theorem Behind.on {stage : Stage} (h : Behind a s r₀ r stage) (hc : Course a s r r' es)
    (hhandle : r'.hardware = r.hardware) : Behind a s r₀ r' stage := by
  have hwaited : ∀ {n : Nat}, (∀ j < n, Passed a s (WaitedFor j) r₀ r) → ∀ j < n, Passed a s (WaitedFor j) r₀ r' :=
    fun h j hj => (h j hj).on hc
  have hletGo : LetGo a s r₀ r → LetGo a s r₀ r' := fun h =>
    ⟨by rw [hhandle]; exact h.1, by rw [hc.length_tasks]; exact hwaited h.2⟩
  cases stage with
  | choosing =>
    rw [Behind, hhandle]
    exact h
  | powering =>
    rw [Behind, hhandle]
    exact h
  | stopping => exact hwaited h
  | releasing =>
    rw [Behind, hc.length_tasks]
    exact hwaited h
  | closing | awaiting | ending | replacing => exact hletGo h
  | done result => exact ⟨fun hdrained => by rw [hhandle]; exact h.1 hdrained, fun hnot => hletGo (h.2 hnot)⟩

/-- The relay sends its next command, or looks what to do next. -/
theorem behind_poweringStage (hheld : r.hardware.link.handle ≠ none) (command : PowerCommand) (devices : List UInt8) :
    Behind a s r₀ r (poweringStage command devices) := by
  rcases poweringStage_cases command devices with ⟨-, hnext⟩ | ⟨_, _, -, hnext⟩
  · rw [hnext]
    exact hheld
  · rw [hnext]
    exact .inr hheld

/-- A step of the relay. -/
theorem Behind.worked (h : Behind a s r₀ r r.stage) (hr : Course a s r₀ r es) (hk : r.hardware.Keeps)
    (hstep : r.step? a s = some r') : Behind a s r₀ r' r'.stage := by
  have hc : Course a s r r' [] := Course.start.worked hstep
  cases turn_of_step? hstep with
  | drains hstage =>
    rw [hstage] at h
    exact ⟨fun _ => h, fun hnot => absurd rfl hnot⟩
  | leaves | escalates => exact fun j hj => absurd hj (Nat.not_lt_zero j)
  | power hstage =>
    rw [hstage] at h
    refine behind_poweringStage ?_ _ _
    exact h
  | key hstage =>
    rw [takeKey, hstage]
    rw [hstage] at h
    exact h
  | ends _ _ hstage =>
    rw [hstage] at h ⊢
    exact h
  | @commands c _ _ hstage hon =>
    rw [hstage] at h
    obtain ⟨cause, hdone⟩ | hheld := h
    · exact absurd hdone (hon _)
    · exact c.step_handle a s.policy hk hheld
  | commanded hstage =>
    rw [hstage] at h
    obtain ⟨cause, hdone⟩ | hheld := h
    · cases hdone
    · refine behind_poweringStage ?_ _ _
      exact hheld
  | @taskOver leaving k t hstage ht hover =>
    rw [hstage] at h
    intro j hj
    rcases Nat.lt_succ_iff_lt_or_eq.1 hj with hlt | rfl
    · exact (h j hlt).on hc
    · exact ⟨r, es, [], hr, ⟨leaving, t, hstage, ht, hover⟩, hc⟩
  | tasksOver hstage hnone =>
    rw [hstage] at h
    exact fun j hj => (h j (Nat.lt_of_lt_of_le hj (List.getElem?_eq_none_iff.1 hnone))).on hc
  | releases hstage =>
    rw [hstage] at h
    exact ⟨(hk.release a).2, fun j hj => (h j hj).on hc⟩
  | closes hstage | takes hstage | closed hstage | unplanned hstage | replacesNot hstage =>
    rw [hstage] at h
    exact ⟨h.1, fun j hj => (h.2 j hj).on hc⟩
  | removes hstage =>
    rw [hstage] at h
    refine ⟨fun hdrained => ?_, fun _ => ⟨h.1, fun j hj => (h.2 j hj).on hc⟩⟩
    have hremoved := removed_map r.live
    rw [hdrained] at hremoved
    exact hremoved.elim
  | fails hstage | replaces hstage =>
    rw [hstage] at h
    exact ⟨fun hdrained => (by cases hdrained), fun _ => ⟨h.1, fun j hj => (h.2 j hj).on hc⟩⟩

/-- In all of a course it is known what the relay has let go of. -/
theorem Course.behind (h : Course a s r₀ r es) (hholds : Holds a s r₀ r₀) (h₀ : Behind a s r₀ r₀ r₀.stage) :
    Behind a s r₀ r r.stage := by
  induction h with
  | start => exact h₀
  | worked hr hstep ih => exact ih.worked hr (hr.holds hholds).hardware hstep
  | beside _ hbeside ih => exact ih.on (.beside .start hbeside) rfl
  | closedBeside _ hclosed ih => exact ih.on (.closedBeside .start hclosed) rfl
  | asked _ ih => exact ih.on (.asked .start) rfl
  | taskEnded _ hk ih => exact ih.on (.taskEnded .start hk) rfl
  | @gaveUp r es _ ih =>
    have hc : Course a s r r.giveUp [] := .gaveUp .start
    obtain ⟨tasks, heq⟩ := r.giveUp_eq
    rw [heq] at hc ⊢
    exact ih.on hc rfl

/-! ### The end of a run -/

/-- On any queue and any adapter, beside any number of tasks and in any course: a run that has come to its end has
closed every handle that was opened, exactly if it has not ended because both lanes had ended. It has waited for
each of its tasks, which have ended or been broken off, exactly if it has not ended so or has none. -/
theorem Course.lets_go {inner : σ} {link : Link} {port : Port σ}
    (hconnect : Hardware.connect a ⟨inner, 0, []⟩ = (.ok link, port)) {l : Live} {tasks : Nat}
    (h : Course a s { live := l, hardware := ⟨link, port⟩, tasks := List.replicate tasks .running } r es)
    {result : Except RelayError Exit} (hdone : r.stage = .done result) :
    ((∀ k, Call.opened k ∈ r.hardware.port.calls → Call.closed k ∈ r.hardware.port.calls) ↔ result ≠ .ok .drained) ∧
    ((∀ k < tasks, Passed a s (WaitedFor k)
        { live := l, hardware := ⟨link, port⟩, tasks := List.replicate tasks .running } r) ↔
      result ≠ .ok .drained ∨ tasks = 0) ∧
    (result ≠ .ok .drained → ∀ k < tasks, r.tasks[k]? = some .ended ∨ r.tasks[k]? = some .aborted ∧
      Passed a s (BrokeOff k) { live := l, hardware := ⟨link, port⟩, tasks := List.replicate tasks .running } r) := by
  have hholds := h.holds (holds_fresh hconnect l)
  have hlength : r.tasks.length = tasks := h.length_tasks.trans List.length_replicate
  have hhandle : link.handle ≠ none := by
    rw [(Hardware.Keeps.connected a hconnect).1]
    exact Option.some_ne_none 1
  have hbehind := h.behind (holds_fresh hconnect l) hhandle
  rw [hdone] at hbehind
  obtain ⟨hdrained, hnot⟩ := hbehind
  rw [LetGo, hlength] at hnot
  refine ⟨⟨?_, fun hother k hk => ?_⟩, ⟨fun hall => ?_, ?_⟩, fun hother k hk => ((hnot hother).2 k hk).task_over hholds⟩
  · -- the handle that the link still has is live
    intro hclosed heq
    obtain ⟨k, hheld⟩ := Option.ne_none_iff_exists'.1 (hdrained heq)
    obtain ⟨hopened, hopen⟩ := (hholds.hardware.port.live k).2 hheld
    exact hopen (hclosed k hopened)
  · by_contra hopen
    have hheld := (hholds.hardware.port.live k).1 ⟨hk, hopen⟩
    rw [(hnot hother).1] at hheld
    cases hheld
  · by_contra hneither
    rw [not_or, ne_eq, not_not] at hneither
    obtain ⟨rfl, hsome⟩ := hneither
    have hin : ¬ r.stage.Out := by
      rw [hdone]
      exact fun hout => hout rfl
    exact not_waitedFor hin (hall 0 (Nat.pos_of_ne_zero hsome))
  · rintro (hother | rfl)
    · exact (hnot hother).2
    · exact fun k hk => absurd hk (Nat.not_lt_zero k)

/-- Somebody else closes the queue of a relay beside one task. -/
theorem exists_course_closed_queue :
    ∃ r, Course Script.adapter oneDevice besideOneTask r [] ∧ r.stage = .done (.ok .drained) ∧
      r.tasks = [.running] := by
  have h₀ : Course Script.adapter oneDevice besideOneTask _ _ := .start
  have h₁ := h₀.beside .closing
  have h₂ := h₁.beside (.pumped rfl)
  -- it finds one lane ended, then the other, and then it is at its end
  have h₃ := h₂.worked rfl
  have h₄ := h₃.worked rfl
  have h₅ := h₄.worked rfl
  exact ⟨_, h₅, rfl, rfl⟩

/-- So the relay ends with its adapter open and its task running, for which it has not waited. -/
theorem lets_go_closed_queue :
    Hardware.connect Script.adapter ⟨breaking, 0, []⟩ =
        (.ok ⟨some 1, 1, .connected⟩, ⟨{ breaking with opens := [] }, 1, [.opened 1, .attached 1]⟩) ∧
      ∃ r, Course Script.adapter oneDevice besideOneTask r [] ∧ r.stage = .done (.ok .drained) ∧
        r.tasks = [.running] ∧
        (¬ ∀ k, Call.opened k ∈ r.hardware.port.calls → Call.closed k ∈ r.hardware.port.calls) ∧
        ¬ ∀ k < 1, Passed Script.adapter oneDevice (WaitedFor k) besideOneTask r := by
  have hconnect : Hardware.connect Script.adapter ⟨breaking, 0, []⟩ =
      (.ok ⟨some 1, 1, .connected⟩, ⟨{ breaking with opens := [] }, 1, [.opened 1, .attached 1]⟩) := rfl
  obtain ⟨r, hcourse, hdone, htasks⟩ := exists_course_closed_queue
  obtain ⟨hclosed, hwaited, -⟩ := Course.lets_go hconnect hcourse hdone
  refine ⟨hconnect, r, hcourse, hdone, htasks, fun hall => hclosed.1 hall rfl, fun hall => ?_⟩
  rcases hwaited.1 hall with hother | hnone
  · exact hother rfl
  · cases hnone

end Relay
end CecRelay
