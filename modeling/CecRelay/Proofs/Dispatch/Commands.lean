import CecRelay.Proofs.Dispatch.Ends

/-!
# What the devices are sent

Every power event that a relay receives asks for a command on every device (`duties`). What reaches the adapter,
on whatever handle (`sendings`), is told duty by duty: each gets answers of its own, at most two, and the next one
follows only when the last has been acknowledged (`Relay.Progress`). A command that is on its way has had the
answers that fit how far it has come (`Caller.Answered`), and a relay is never further than its stage says
(`Relay.OnDuty`). Each step of a relay keeps that, so it holds in any course (`Relay.Course.dutiful`).

So what has been acknowledged is the beginning of what the events ask for, and all of it if no command has been
given up; and once one has been, nothing more is sent (`Relay.Course.carriesOut`).
-/

namespace CecRelay

/-- A command for a device. -/
abbrev Duty := PowerCommand × UInt8

/-- The command that a kind of power transition asks for. -/
def PowerKind.asks : PowerKind → PowerCommand
  | .on | .resume => .powerOn
  | .sleep | .shutdown => .standby

theorem PowerEvent.command_eq (p : PowerEvent) : p.command = p.kind.asks := by
  obtain ⟨kind, transitioning⟩ := p
  cases kind with
  | on | sleep | resume | shutdown => rfl

/-- What events ask for: for each power event, in order, its command for each device, in order. -/
def duties (devices : List UInt8) (es : List Event) : List Duty :=
  es.flatMap fun
    | .power p => devices.map fun address => (p.kind.asks, address)
    | .key _ => []

theorem duties_concat_power (devices : List UInt8) (es : List Event) (p : PowerEvent) :
    duties devices (es ++ [.power p]) = duties devices es ++ devices.map fun address => (p.command, address) := by
  rw [duties, List.flatMap_append, List.flatMap_singleton, p.command_eq]
  rfl

theorem duties_concat_key (devices : List UInt8) (es : List Event) (k : KeyPress) :
    duties devices (es ++ [.key k]) = duties devices es := by
  rw [duties, List.flatMap_append, List.flatMap_singleton, List.append_nil]
  rfl

/-- The command that a call has sent, and whether it was acknowledged. -/
def Call.sending? : Call → Option (Duty × Bool)
  | .sent command address _ accepted => some ((command, address), accepted)
  | _ => none

/-- The commands that calls have sent, in order, and which of them were acknowledged. -/
def sendings (calls : List Call) : List (Duty × Bool) := calls.filterMap Call.sending?

/-- Those that were acknowledged. -/
def acknowledged (sends : List (Duty × Bool)) : List Duty := (sends.filter Prod.snd).map Prod.fst

/-- What is sent for duties when each gets its own answers, in order. -/
def sentFor (ds : List Duty) (answers : List (List Bool)) : List (Duty × Bool) :=
  (ds.zip answers).flatMap fun (d, bs) => bs.map fun b => (d, b)

/-- The answers are at most `n` rejections. -/
def Rejections (n : Nat) (bs : List Bool) : Prop := bs.length ≤ n ∧ ∀ b ∈ bs, b = false

/-- The last answer is an acknowledgement, at once or after a rejection. -/
def Settled (bs : List Bool) : Prop := ∃ before, Rejections 1 before ∧ bs = before ++ [true]

theorem sendings_append (calls more : List Call) : sendings (calls ++ more) = sendings calls ++ sendings more :=
  List.filterMap_append

/-- Any other call sends nothing. -/
theorem sendings_concat {c : Call} (calls : List Call) (h : c.sending? = none) :
    sendings (calls ++ [c]) = sendings calls := by
  rw [sendings_append, sendings, sendings, List.filterMap_cons_none h, List.filterMap_nil, List.append_nil]

theorem acknowledged_append (sends more : List (Duty × Bool)) :
    acknowledged (sends ++ more) = acknowledged sends ++ acknowledged more := by
  rw [acknowledged, List.filter_append, List.map_append]
  rfl

theorem sentFor_append {ds more : List Duty} {answers new : List (List Bool)} (h : ds.length = answers.length) :
    sentFor (ds ++ more) (answers ++ new) = sentFor ds answers ++ sentFor more new := by
  rw [sentFor, List.zip_append h, List.flatMap_append]
  rfl

theorem sentFor_singleton (d : Duty) (left : List Duty) (bs : List Bool) :
    sentFor (d :: left) [bs] = bs.map fun b => (d, b) := by
  rw [sentFor, List.zip_cons_cons, List.zip_nil_right, List.flatMap_singleton]

theorem Rejections.nil (n : Nat) : Rejections n [] := ⟨Nat.zero_le n, fun _ hb => (by cases hb)⟩

theorem Rejections.append {n m : Nat} {bs more : List Bool} (h : Rejections n bs) (h' : Rejections m more) :
    Rejections (n + m) (bs ++ more) := by
  refine ⟨?_, fun b hb => ?_⟩
  · rw [List.length_append]
    exact Nat.add_le_add h.1 h'.1
  · rcases List.mem_append.1 hb with hb | hb
    · exact h.2 b hb
    · exact h'.2 b hb

/-- Rejections acknowledge nothing. -/
theorem Rejections.acknowledged {n : Nat} {bs : List Bool} (h : Rejections n bs) (d : Duty) :
    acknowledged (bs.map fun b => (d, b)) = [] := by
  rw [CecRelay.acknowledged, List.filter_eq_nil_iff.2, List.map_nil]
  intro x hx
  obtain ⟨b, hb, rfl⟩ := List.mem_map.1 hx
  exact Bool.eq_false_iff.1 (h.2 b hb)

theorem Settled.acknowledged {bs : List Bool} (h : Settled bs) (d : Duty) :
    acknowledged (bs.map fun b => (d, b)) = [d] := by
  obtain ⟨before, hbefore, rfl⟩ := h
  rw [List.map_append, acknowledged_append, hbefore.acknowledged]
  rfl

theorem Rejections.count_true {n : Nat} {bs : List Bool} (h : Rejections n bs) : bs.count true = 0 :=
  List.count_eq_zero.2 fun htrue => Bool.noConfusion (h.2 true htrue)

/-- A duty is sent at most twice and acknowledged at most once. -/
theorem bounded_of_rejections_or_settled {bs : List Bool} (h : Rejections 2 bs ∨ Settled bs) :
    bs.length ≤ 2 ∧ bs.count true ≤ 1 := by
  rcases h with h | ⟨before, h, rfl⟩
  · exact ⟨h.1, Nat.le_trans (Nat.le_of_eq h.count_true) (Nat.zero_le 1)⟩
  · rw [List.length_append, List.count_append, h.count_true]
    exact ⟨Nat.succ_le_succ h.1, Nat.le_refl 1⟩

/-- Duties with settled answers have been acknowledged, each once. -/
theorem acknowledged_sentFor {ds : List Duty} {answers : List (List Bool)} (hlength : ds.length = answers.length)
    (hall : ∀ bs ∈ answers, Settled bs) : acknowledged (sentFor ds answers) = ds := by
  induction ds generalizing answers with
  | nil => rfl
  | cons d ds ih =>
    cases answers with
    | nil => cases hlength
    | cons bs answers =>
      have hsplit : sentFor (d :: ds) (bs :: answers) = (bs.map fun b => (d, b)) ++ sentFor ds answers := rfl
      rw [hsplit, acknowledged_append, (hall bs List.mem_cons_self).acknowledged d,
        ih (Nat.succ.inj hlength) fun bs hbs => hall bs (List.mem_cons_of_mem _ hbs)]
      rfl

variable {σ : Type} (a : Adapter σ)

/-! ### One command -/

namespace Hardware

variable (policy : LinkPolicy)

theorem sendings_reopen (n : Nat) (h : Hardware σ) :
    sendings (reopen a policy n h).2.port.calls = sendings h.port.calls := by
  induction n generalizing h with
  | zero => rfl
  | succ n ih =>
    rw [reopen]
    rcases hopen : a.tryOpen h.port.inner with ⟨result, inner⟩
    cases result with
    | opened =>
      simp only [Port.tryOpen, hopen]
      exact (sendings_concat _ rfl).trans (sendings_concat _ rfl)
    | refused | broken =>
      simp only [Port.tryOpen, hopen, ih]
      split
      · exact sendings_concat _ rfl
      · exact (sendings_concat _ rfl).trans (sendings_concat _ rfl)

theorem sendings_release (h : Hardware σ) : sendings (h.release a).port.calls = sendings h.port.calls := by
  rcases release_cases a h with ⟨-, heq⟩ | ⟨k, -, heq⟩
  · rw [heq]
  · rw [heq]
    exact sendings_concat _ rfl

/-- Replacing a handle sends nothing. -/
theorem sendings_replaceFrom (observed : Nat) (h : Hardware σ) :
    sendings (h.replaceFrom a policy observed).2.port.calls = sendings h.port.calls := by
  rw [replaceFrom]
  split
  · rfl
  · split
    · rfl
    · have hreplaced : (h.replace a policy).2 = (reopen a policy policy.attempts.toNat
          (release a { h with link := { h.link with health := .reconnecting } })).2 := by
        rw [replace]
        split
        next heq => rw [heq]
        next heq => rw [heq]
      rw [hreplaced, sendings_reopen, sendings_release]

/-- To send a command is to have one answer to it, or none without a handle. -/
theorem sendings_send (command : PowerCommand) (address : UInt8) (h : Hardware σ) :
    ∃ more, sendings (h.send a command address).2.port.calls =
        sendings h.port.calls ++ more.map (fun b => ((command, address), b)) ∧
      ((h.send a command address).1 = true ∧ more = [true] ∨
        (h.send a command address).1 = false ∧ Rejections 1 more) := by
  rcases send_cases a h command address with ⟨-, heq⟩ | ⟨k, accepted, inner, -, heq⟩
  · rw [heq]
    exact ⟨[], (List.append_nil _).symm, .inr ⟨rfl, .nil 1⟩⟩
  · rw [heq]
    refine ⟨[accepted], sendings_append .., ?_⟩
    cases accepted with
    | true => exact .inl ⟨rfl, rfl⟩
    | false => exact .inr ⟨rfl, Nat.le_refl 1, fun _ hb => List.mem_singleton.1 hb⟩

end Hardware

namespace Caller

/-- The answers that a command for a device has had when it has come so far. -/
inductive Answered (d : Duty) : Caller → List Bool → Prop
  /-- None. -/
  | unsent : Answered d (first d.1 d.2) []
  /-- It was rejected, unless there was no handle. -/
  | rejected {g : Nat} {bs : List Bool} : Rejections 1 bs → Answered d (replacing d.1 d.2 g) bs
  /-- It is to be sent again. -/
  | again {bs : List Bool} : Rejections 1 bs → Answered d (second d.1 d.2) bs
  /-- It was acknowledged. -/
  | settled {bs : List Bool} : Settled bs → Answered d (done (.ok ())) bs
  /-- It was given up. -/
  | givenUp {cause : RelayError} {bs : List Bool} : Rejections 2 bs → Answered d (done (.error cause)) bs

variable {d : Duty} {c : Caller} {bs : List Bool}

/-- A step of a command sends it once at most, and the answers fit how far it has come then. -/
theorem Answered.step (hc : Answered d c bs) (policy : LinkPolicy) (h : Hardware σ) :
    ∃ more, sendings (c.step a policy h).2.port.calls = sendings h.port.calls ++ more.map (fun b => (d, b)) ∧
      Answered d (c.step a policy h).1 (bs ++ more) := by
  cases hc with
  | unsent =>
    obtain ⟨more, hsent, hanswer⟩ := Hardware.sendings_send a d.1 d.2 h
    rw [Caller.step]
    rcases heq : h.send a d.1 d.2 with ⟨accepted, h'⟩
    rw [heq] at hsent hanswer
    rcases hanswer with ⟨rfl, rfl⟩ | ⟨rfl, hmore⟩
    · exact ⟨[true], hsent, .settled ⟨[], .nil 1, rfl⟩⟩
    · exact ⟨more, hsent, .rejected hmore⟩
  | @rejected g _ hbs =>
    have hsent := Hardware.sendings_replaceFrom a policy g h
    rw [Caller.step]
    rcases heq : h.replaceFrom a policy g with ⟨result, h'⟩
    rw [heq] at hsent
    refine ⟨[], ?_, ?_⟩
    · cases result with
      | ok _ | error _ => exact hsent.trans (List.append_nil _).symm
    · rw [List.append_nil]
      cases result with
      | ok _ => exact .again hbs
      | error cause => exact .givenUp (List.append_nil bs ▸ hbs.append (.nil 1))
  | again hbs =>
    obtain ⟨more, hsent, hanswer⟩ := Hardware.sendings_send a d.1 d.2 h
    rw [Caller.step]
    rcases heq : h.send a d.1 d.2 with ⟨accepted, h'⟩
    rw [heq] at hsent hanswer
    rcases hanswer with ⟨rfl, rfl⟩ | ⟨rfl, hmore⟩
    · exact ⟨[true], hsent, .settled ⟨bs, hbs, rfl⟩⟩
    · exact ⟨more, hsent, .givenUp (hbs.append hmore)⟩
  | settled hbs =>
    refine ⟨[], (List.append_nil _).symm, ?_⟩
    rw [List.append_nil]
    exact .settled hbs
  | givenUp hbs =>
    refine ⟨[], (List.append_nil _).symm, ?_⟩
    rw [List.append_nil]
    exact .givenUp hbs

/-- The answers are rejections, at most two, or the last of them is an acknowledgement. -/
theorem Answered.rejections_or_settled (hc : Answered d c bs) : Rejections 2 bs ∨ Settled bs := by
  have hmore : ∀ {bs}, Rejections 1 bs → Rejections 2 bs := fun h => ⟨Nat.le_succ_of_le h.1, h.2⟩
  cases hc with
  | unsent => exact .inl (.nil 2)
  | rejected h | again h => exact .inl (hmore h)
  | settled h => exact .inr h
  | givenUp h => exact .inl h

end Caller

namespace Relay

/-! ### All of them -/

/-- Of the duties all but those that are left have been sent, each has had its own answers, and these are settled. -/
def Progress (ds left : List Duty) (sends : List (Duty × Bool)) : Prop :=
  ∃ done answers, ds = done ++ left ∧ done.length = answers.length ∧ (∀ bs ∈ answers, Settled bs) ∧
    sends = sentFor done answers

/-- Of the duties that are left the first has been sent too, and has had these answers. -/
def Tried (ds : List Duty) (d : Duty) (left : List Duty) (bs : List Bool) (sends : List (Duty × Bool)) : Prop :=
  ∃ before, Progress ds (d :: left) before ∧ sends = before ++ bs.map fun b => (d, b)

variable {ds left : List Duty} {d : Duty} {bs : List Bool} {sends : List (Duty × Bool)}

theorem Progress.more (h : Progress ds left sends) (more : List Duty) :
    Progress (ds ++ more) (left ++ more) sends := by
  obtain ⟨done, answers, rfl, hlength, hall, hsends⟩ := h
  exact ⟨done, answers, List.append_assoc .., hlength, hall, hsends⟩

/-- The duties are those that have been acknowledged and those that are left. -/
theorem Progress.acknowledged (h : Progress ds left sends) : ds = acknowledged sends ++ left := by
  obtain ⟨done, answers, hds, hlength, hall, rfl⟩ := h
  rw [acknowledged_sentFor hlength hall, hds]

/-- An acknowledgement settles a duty. -/
theorem Tried.progress (h : Tried ds d left bs sends) (hsettled : Settled bs) : Progress ds left sends := by
  obtain ⟨before, ⟨done, answers, rfl, hlength, hall, rfl⟩, rfl⟩ := h
  refine ⟨done ++ [d], answers ++ [bs], ?_, ?_, fun bs' hbs' => ?_, ?_⟩
  · rw [List.append_assoc]
    rfl
  · rw [List.length_append, List.length_append, hlength]
    rfl
  · rcases List.mem_append.1 hbs' with hbs' | hbs'
    · exact hall bs' hbs'
    · rw [List.mem_singleton.1 hbs']
      exact hsettled
  · rw [sentFor_append hlength, sentFor_singleton]

/-- Rejections do not. -/
theorem Tried.acknowledged (h : Tried ds d left bs sends) (hrejected : Rejections 2 bs) :
    ds = acknowledged sends ++ d :: left := by
  obtain ⟨before, hbefore, rfl⟩ := h
  rw [acknowledged_append, hrejected.acknowledged, List.append_nil]
  exact hbefore.acknowledged

/-- All duties have been sent, up to one that has been given up. -/
def Stopped (ds : List Duty) (sends : List (Duty × Bool)) : Prop :=
  ∃ d left bs, Rejections 2 bs ∧ Tried ds d left bs sends

/-- How far a relay has come with its duties in a stage; `lost` says that a command has been given up. -/
def OnDuty (ds : List Duty) (sends : List (Duty × Bool)) (lost : Prop) : Stage → Prop
  | .choosing => Progress ds [] sends
  | .powering c command rest =>
    ∃ address bs, Tried ds (command, address) (rest.map fun address => (command, address)) bs sends ∧
      c.Answered (command, address) bs
  | _ => Progress ds [] sends ∨ lost ∧ Stopped ds sends

namespace OnDuty

variable {lost lost' : Prop} {stage : Stage}

theorem mono (h : OnDuty ds sends lost stage) (hlost : lost → lost') : OnDuty ds sends lost' stage := by
  cases stage with
  | choosing | powering => exact h
  | _ => exact h.imp_right fun hstopped => ⟨hlost hstopped.1, hstopped.2⟩

/-- A command is to go to the devices. -/
theorem powering {command : PowerCommand} {devices : List UInt8}
    (h : Progress ds (devices.map fun address => (command, address)) sends) :
    OnDuty ds sends lost (poweringStage command devices) := by
  cases devices with
  | nil => exact h
  | cons address rest => exact ⟨address, [], ⟨sends, h, (List.append_nil _).symm⟩, .unsent⟩

/-- Either a duty has been rejected last, or none. -/
theorem cases (h : OnDuty ds sends lost stage) : (∃ left, Progress ds left sends) ∨ Stopped ds sends := by
  cases stage with
  | choosing => exact .inl ⟨[], h⟩
  | powering c command rest =>
    obtain ⟨address, bs, htried, hc⟩ := h
    rcases hc.rejections_or_settled with hrejected | hsettled
    · exact .inr ⟨_, _, bs, hrejected, htried⟩
    · exact .inl ⟨_, htried.progress hsettled⟩
  | _ => exact h.imp (fun h => ⟨[], h⟩) And.right

/-- What has been acknowledged are the first duties. -/
theorem acknowledged_prefix (h : OnDuty ds sends lost stage) : acknowledged sends <+: ds := by
  rcases h.cases with ⟨left, h⟩ | ⟨d, left, bs, hrejected, htried⟩
  · exact ⟨left, h.acknowledged.symm⟩
  · exact ⟨d :: left, (htried.acknowledged hrejected).symm⟩

/-- All duties have been acknowledged when no command is on its way and none has been given up. -/
theorem acknowledged_eq (h : OnDuty ds sends lost stage) (hstage : ∀ c command rest, stage ≠ .powering c command rest)
    (hlost : ¬ lost) : acknowledged sends = ds := by
  have hall : Progress ds [] sends := by
    cases stage with
    | choosing => exact h
    | powering c command rest => exact absurd rfl (hstage c command rest)
    | _ => exact h.resolve_right fun hstopped => hlost hstopped.1
  rw [hall.acknowledged, List.append_nil]

/-- Every duty has been sent at most twice, and acknowledged at most once. -/
theorem answers (h : OnDuty ds sends lost stage) : ∃ answers : List (List Bool), answers.length ≤ ds.length ∧
    sends = sentFor ds answers ∧ ∀ bs ∈ answers, bs.length ≤ 2 ∧ bs.count true ≤ 1 := by
  rcases h.cases with ⟨left, done, answers, rfl, hlength, hall, rfl⟩ |
    ⟨d, left, bs, hrejected, before, ⟨done, answers, rfl, hlength, hall, rfl⟩, rfl⟩
  · refine ⟨answers, ?_, ?_, fun bs hbs => bounded_of_rejections_or_settled (.inr (hall bs hbs))⟩
    · rw [List.length_append, hlength]
      exact Nat.le_add_right ..
    · have hsplit : sentFor (done ++ left) (answers ++ []) = sentFor done answers ++ sentFor left [] :=
        sentFor_append hlength
      rw [List.append_nil] at hsplit
      rw [hsplit, sentFor, sentFor, List.zip_nil_right, List.flatMap_nil, List.append_nil]
  · refine ⟨answers ++ [bs], ?_, ?_, fun bs' hbs' => bounded_of_rejections_or_settled ?_⟩
    · rw [List.length_append, List.length_append, hlength]
      exact Nat.add_le_add_left (Nat.succ_le_succ (Nat.zero_le _)) _
    · rw [sentFor_append hlength, sentFor_singleton]
    · rcases List.mem_append.1 hbs' with hbs' | hbs'
      · exact .inr (hall bs' hbs')
      · rw [List.mem_singleton.1 hbs']
        exact .inl hrejected

end OnDuty

variable {a} {s : RelaySettings} {r₀ r r' : Relay σ} {es : List Event}

variable (a s) in
/-- How far a relay has come with what the events that it has received ask for. -/
def Dutiful (r₀ r : Relay σ) : Prop :=
  ∃ sends, sendings r.hardware.port.calls = sendings r₀.hardware.port.calls ++ sends ∧
    OnDuty (duties s.devices r.received) sends (∃ cause, Passed a s (GaveUp cause) r₀ r) r.stage

/-- Others do not send anything. -/
theorem Dutiful.on (h : Dutiful a s r₀ r) (hc : Course a s r r' es) (hhardware : r'.hardware = r.hardware)
    (hreceived : r'.received = r.received) (hstage : r'.stage = r.stage) : Dutiful a s r₀ r' := by
  obtain ⟨sends, hsends, hon⟩ := h
  refine ⟨sends, by rw [hhardware]; exact hsends, ?_⟩
  rw [hreceived, hstage]
  exact hon.mono fun ⟨cause, hpassed⟩ => ⟨cause, hpassed.on hc⟩

/-- A step of the relay. -/
theorem Dutiful.worked (h : Dutiful a s r₀ r) (hr : Course a s r₀ r es) (hstep : r.step? a s = some r') :
    Dutiful a s r₀ r' := by
  have hc : Course a s r r' [] := Course.start.worked hstep
  obtain ⟨sends, hsends, hon⟩ := h
  have hover : (Progress (duties s.devices r.received) [] sends ∨
      (∃ cause, Passed a s (GaveUp cause) r₀ r) ∧ Stopped (duties s.devices r.received) sends) →
      Progress (duties s.devices r.received) [] sends ∨
        (∃ cause, Passed a s (GaveUp cause) r₀ r') ∧ Stopped (duties s.devices r.received) sends :=
    fun hon => hon.imp_right fun ⟨⟨cause, hpassed⟩, hstopped⟩ => ⟨⟨cause, hpassed.on hc⟩, hstopped⟩
  cases turn_of_step? hstep with
  | drains hstage | leaves hstage =>
    rw [hstage] at hon
    exact ⟨sends, hsends, .inl hon⟩
  | @power p l hstage =>
    rw [hstage] at hon
    refine ⟨sends, hsends, ?_⟩
    show OnDuty (duties s.devices (r.received ++ [.power p])) _ _ (poweringStage p.command s.devices)
    rw [duties_concat_power]
    exact .powering (hon.more _)
  | @key k l hstage =>
    rw [hstage] at hon
    refine ⟨sends, hsends, ?_⟩
    show OnDuty (duties s.devices (r.received ++ [.key k])) _ _ r.stage
    rw [duties_concat_key, hstage]
    exact hon
  | ends _ _ hstage =>
    rw [hstage] at hon
    refine ⟨sends, hsends, ?_⟩
    show OnDuty _ _ _ r.stage
    rw [hstage]
    exact hon
  | @commands c command rest hstage =>
    rw [hstage] at hon
    obtain ⟨address, bs, ⟨before, hbefore, rfl⟩, hanswered⟩ := hon
    obtain ⟨more, hmore, hanswered'⟩ := hanswered.step a s.policy r.hardware
    refine ⟨_, hmore.trans ?_, address, bs ++ more, ⟨before, hbefore, rfl⟩, hanswered'⟩
    rw [hsends, List.map_append, List.append_assoc, List.append_assoc]
  | commanded hstage =>
    rw [hstage] at hon
    obtain ⟨address, bs, htried, hanswered⟩ := hon
    cases hanswered with
    | settled hsettled => exact ⟨sends, hsends, .powering (htried.progress hsettled)⟩
  | @escalates cause command rest hstage =>
    rw [hstage] at hon
    obtain ⟨address, bs, htried, hanswered⟩ := hon
    cases hanswered with
    | givenUp hrejected =>
      refine ⟨sends, hsends, .inr ⟨⟨cause, r, es, [], hr, ⟨command, rest, hstage⟩, hc⟩, ?_⟩⟩
      exact ⟨_, _, bs, hrejected, htried⟩
  | releases hstage =>
    rw [hstage] at hon
    exact ⟨sends, (Hardware.sendings_release a r.hardware).trans hsends, hover hon⟩
  | taskOver hstage | tasksOver hstage | closes hstage | takes hstage | removes hstage | closed hstage | fails hstage
  | unplanned hstage | replaces hstage | replacesNot hstage =>
    rw [hstage] at hon
    exact ⟨sends, hsends, hover hon⟩

/-- In any course a relay is on duty. -/
theorem Course.dutiful (h : Course a s r₀ r es) (hstage : r₀.stage = .choosing) (hreceived : r₀.received = []) :
    Dutiful a s r₀ r := by
  induction h with
  | start =>
    refine ⟨[], (List.append_nil _).symm, ?_⟩
    rw [hstage, hreceived]
    exact ⟨[], [], rfl, rfl, fun _ hbs => (by cases hbs), rfl⟩
  | worked hr hstep ih => exact ih.worked hr hstep
  | beside _ hbeside ih => exact ih.on (Course.start.beside hbeside) rfl rfl rfl
  | closedBeside _ hclosed ih => exact ih.on (Course.start.closedBeside hclosed) rfl rfl rfl
  | asked _ ih => exact ih.on Course.start.asked rfl rfl rfl
  | taskEnded _ hk ih => exact ih.on (Course.start.taskEnded hk) rfl rfl rfl
  | @gaveUp r es _ ih =>
    have hc : Course a s r r.giveUp [] := Course.start.gaveUp
    obtain ⟨tasks, heq⟩ := r.giveUp_eq
    rw [heq] at hc ⊢
    exact ih.on hc rfl rfl rfl

/-! ### After a command has been given up -/

/-- In these stages a relay sends nothing any more. -/
def Spent : Stage → Prop
  | .choosing => False
  | .powering c _ _ => ∃ cause, c = .done (.error cause)
  | _ => True

theorem Spent.worked (h : Spent r.stage) (hstep : r.step? a s = some r') :
    Spent r'.stage ∧ sendings r'.hardware.port.calls = sendings r.hardware.port.calls := by
  cases turn_of_step? hstep with
  | drains hstage | leaves hstage | power hstage | key hstage | ends _ _ hstage =>
    rw [hstage] at h
    exact h.elim
  | commands hstage hon =>
    rw [hstage] at h
    obtain ⟨cause, rfl⟩ := h
    exact absurd rfl (hon _)
  | commanded hstage =>
    rw [hstage] at h
    obtain ⟨cause, heq⟩ := h
    cases heq
  | releases => exact ⟨trivial, Hardware.sendings_release a r.hardware⟩
  | _ => exact ⟨trivial, rfl⟩

theorem Course.spent (h : Course a s r₀ r es) (h₀ : Spent r₀.stage) :
    Spent r.stage ∧ sendings r.hardware.port.calls = sendings r₀.hardware.port.calls := by
  induction h with
  | start => exact ⟨h₀, rfl⟩
  | worked _ hstep ih =>
    obtain ⟨hspent, hsame⟩ := ih.1.worked hstep
    exact ⟨hspent, hsame.trans ih.2⟩
  | beside _ _ ih | closedBeside _ _ ih | asked _ ih | taskEnded _ _ ih => exact ih
  | @gaveUp r es _ ih =>
    obtain ⟨tasks, heq⟩ := r.giveUp_eq
    rw [heq]
    exact ih

/-- A relay that starts with no events received carries out what the power events that it receives ask for, one
command for each device in order, on whatever handle. What has been acknowledged is the beginning of that, and all
of it when no command is on its way and none has been given up. Each command for a device has its own answers, at
most two and at most one of them an acknowledgement. Once a command has been given up nothing more is sent. -/
theorem Course.carriesOut (h : Course a s r₀ r es) (hstage : r₀.stage = .choosing) (hreceived : r₀.received = []) :
    ∃ sends, sendings r.hardware.port.calls = sendings r₀.hardware.port.calls ++ sends ∧
      acknowledged sends <+: duties s.devices r.received ∧
      ((∀ c command rest, r.stage ≠ .powering c command rest) → (∀ cause, ¬ Passed a s (GaveUp cause) r₀ r) →
        acknowledged sends = duties s.devices r.received) ∧
      (∃ answers : List (List Bool), answers.length ≤ (duties s.devices r.received).length ∧
        sends = sentFor (duties s.devices r.received) answers ∧
        ∀ bs ∈ answers, bs.length ≤ 2 ∧ bs.count true ≤ 1) ∧
      ∀ cause u es₁ es₂, Course a s r₀ u es₁ → GaveUp cause u → Course a s u r es₂ →
        sendings r.hardware.port.calls = sendings u.hardware.port.calls := by
  obtain ⟨sends, hsends, hon⟩ := h.dutiful hstage hreceived
  refine ⟨sends, hsends, hon.acknowledged_prefix, fun hstage' hnone => ?_, hon.answers, ?_⟩
  · exact hon.acknowledged_eq hstage' fun ⟨cause, hpassed⟩ => hnone cause hpassed
  · rintro cause u es₁ es₂ - ⟨command, rest, hgave⟩ hc
    have hspent : Spent u.stage := by
      rw [hgave]
      exact ⟨cause, rfl⟩
    exact (hc.spent hspent).2

/-- An adapter that rejects a command, opens again and acknowledges it, and rejects the next one twice. -/
def stubborn : Script := { answers := [.broken, .reply (some "ok"), .reply (some ""), .reply none] }

/-- Two devices. -/
def twoDevices : RelaySettings := { oneDevice with devices := [0, 4] }

/-- A relay on this adapter, for which a power event is waiting. -/
def withPowerEvent : Relay Script where
  live := onePower true [⟨.on, true⟩] (.moving powerLine.length)
  hardware := ⟨⟨some 1, 1, .connected⟩, ⟨stubborn, 1, [.opened 1, .attached 1]⟩⟩

/-- The first device acknowledges the second sending, and the second device rejects both. -/
theorem exists_course_stubborn : ∃ r, Course Script.adapter twoDevices withPowerEvent r [] ∧
    GaveUp (.commandFailed .powerOn 4) r ∧ r.received = [.power ⟨.on, true⟩] ∧
    sendings r.hardware.port.calls =
      [((.powerOn, 0), false), ((.powerOn, 0), true), ((.powerOn, 4), false), ((.powerOn, 4), false)] := by
  have h₀ : Course Script.adapter twoDevices withPowerEvent _ _ := .start
  -- the event is received, and the first device has its command in the end
  have h₁ := h₀.worked rfl
  have h₂ := ((h₁.worked rfl).worked rfl).worked rfl
  -- the second has not
  have h₃ := h₂.worked rfl
  have h₄ := ((h₃.worked rfl).worked rfl).worked rfl
  exact ⟨_, h₄, ⟨_, _, rfl⟩, rfl, rfl⟩

/-- A power event asks for a command on each of two devices. What the first has acknowledged is the beginning of
that, and after the second has rejected its command nothing more is sent. -/
theorem carriesOut_two_devices : ∃ r, Course Script.adapter twoDevices withPowerEvent r [] ∧
    withPowerEvent.stage = .choosing ∧ withPowerEvent.received = [] ∧
    sendings withPowerEvent.hardware.port.calls = [] ∧ GaveUp (.commandFailed .powerOn 4) r ∧
    duties twoDevices.devices r.received = [(.powerOn, 0), (.powerOn, 4)] ∧
    sendings r.hardware.port.calls =
      [((.powerOn, 0), false), ((.powerOn, 0), true), ((.powerOn, 4), false), ((.powerOn, 4), false)] ∧
    acknowledged (sendings r.hardware.port.calls) <+: duties twoDevices.devices r.received ∧
    ∀ r' es, Course Script.adapter twoDevices r r' es →
      sendings r'.hardware.port.calls = sendings r.hardware.port.calls := by
  obtain ⟨r, hcourse, hgave, hreceived, hsent⟩ := exists_course_stubborn
  obtain ⟨sends, hsends, hbegin, -⟩ := hcourse.carriesOut rfl rfl
  refine ⟨r, hcourse, rfl, rfl, rfl, hgave, by rw [hreceived]; rfl, hsent, ?_, fun r' es hc => ?_⟩
  · rw [hsends]
    exact hbegin
  · obtain ⟨-, -, -, -, -, hover⟩ := (hcourse.trans hc).carriesOut rfl rfl
    exact hover _ _ _ _ hcourse hgave hc

end Relay
end CecRelay
