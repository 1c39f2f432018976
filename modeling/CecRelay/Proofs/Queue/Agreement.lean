import CecRelay.Proofs.Queue.Shared

/-!
# Storing and closing agree

What holds of a queue and its visitors in every run (`Shared.Holds`), step by step, and what follows from it
(`Shared.Reaches.agrees`): whoever is told a number has one line in the log, under that number and in that
order, and the numbers that are told increase. Once somebody has closed the queue nothing is
stored any more, and only others who close it change anything on disk; once the folder has been removed
nobody makes anything in its place.

Whoever is told that there is no number has no line, with two exceptions. Behind the line that gets the greatest
number the program breaks off: nobody is told that number, and every event that comes then is stored under it again
(`Stored.Tells`). And an append that breaks off may leave its whole line behind those of the queue, until the next one
cuts it off (`Service.kept`, `Service.left`).
-/

namespace CecRelay

open Lines

/-! ### Flags do not matter to what holds of the queue -/

namespace Service

variable {o : Origin} {v : Service}

theorem Sound.flagged (h : Sound o v) (hthere : v.gone = false) (hnobody : v.closers = []) (closed cancelled : Bool) :
    Sound o { v with live := { v.live with
      queue := { v.live.queue with closed := closed, cancelled := cancelled } } } := by
  cases h with
  | gone hgone =>
    rw [hthere] at hgone
    cases hgone
  | standing w _ hcore hin hlanes _ =>
    exact .standing w hthere { hcore with } (hin.same rfl rfl rfl _ _ _) { hlanes with } (.of_nil hnobody)

/-- What was ready for the cursor is taken when the pump has stopped. -/
theorem Sound.readyTaken (h : Sound o v) (hthere : v.gone = false) (hnobody : v.closers = [])
    (hstopped : v.live.queue.phase = .stopped) : Sound o { v with live := v.live.takeReady } := by
  cases h with
  | gone hgone =>
    rw [hthere] at hgone
    cases hgone
  | standing w _ hcore hin hlanes _ =>
    rw [hstopped] at hin
    refine .standing w hthere { hcore with ready := fun _ h => by cases h } ?_ { hlanes with } (.of_nil hnobody)
    show w.InPhase _ v.live.queue.phase
    rw [hstopped]
    exact hin

end Service

namespace Visitor.Step

variable {o : Service.Origin} {v : Service} {i : Nat} {free : Prop} {l : Live} {c c' : Visitor} {new : List Stored}

/-- What a visitor does before the end of closing keeps what holds of the queue. -/
theorem sound (h : c.Step i free v.live l c' new) (hs : Service.Sound o v) (hthere : v.gone = false)
    (hnobody : v.closers = []) (hgoes : ∀ delete answer, c' ≠ .closer delete (.answered answer)) :
    Service.Sound o { v with live := l, lines := v.lines ++ new.map Stored.line } := by
  have hnone : ∀ {l : Live}, Service.Sound o { v with live := l } →
      Service.Sound o { v with live := l, lines := v.lines ++ [].map Stored.line } := by
    intro l hl
    rw [List.map_nil, List.append_nil]
    exact hl
  -- the queue may have been closed since the visitor has looked
  have hopen := hs.flagged hthere hnobody false v.live.queue.cancelled
  have hback : ∀ {j : Journal} {d : Disk} {ls : List Bytes},
      Service.Sound o { v with
        live := ⟨{ v.live.queue with journal := j, closed := false }, d⟩
        lines := ls } →
      Service.Sound o { v with live := ⟨{ v.live.queue with journal := j }, d⟩, lines := ls } :=
    fun hl => hl.flagged hthere hnobody v.live.queue.closed v.live.queue.cancelled
  have happend : ∀ {now : Time.Stamp} {e : Event} {j : Journal} {d : Disk} {result : Except Failure UInt64},
      v.live.queue.journal.append now e v.live.disk = (j, d, result) →
      Live.append ⟨{ v.live.queue with closed := false }, v.live.disk⟩ now e =
        (⟨{ v.live.queue with journal := j, closed := false }, d⟩, result.map some) := by
    intro now e j d result happ
    rw [Live.append, if_neg Bool.false_ne_true, happ]
  cases h with
  | looks | enters => exact hnone hs
  | appends _ happ => exact hback (hopen.accept (happend happ))
  | breaks _ happ => exact hback (hopen.store (happend happ) (.inr rfl))
  | refused happ => exact hnone (hback (hopen.refuse (happend happ)))
  | refusedPartly n k hvalid => exact hnone (hback (hopen.refusePartly hvalid rfl))
  | wakes => exact hnone (hs.step .notified)
  | shuts => exact hnone (hs.flagged hthere hnobody true v.live.queue.cancelled)
  | cancels => exact hnone (hs.flagged hthere hnobody v.live.queue.closed true)
  | takes hstopped => exact hnone (hs.readyTaken hthere hnobody hstopped)
  | ends | endsFailing => exact absurd rfl (hgoes _ _)

end Visitor.Step

/-! ### What visitors are told -/

/-- Each visitor has stored one event at most and is told what has become of it, and nobody else has a number. -/
structure Told (stored : List Stored) (visitors : Nat → Option Visitor) : Prop where
  /-- Each has stored one. -/
  once : (stored.map Stored.visitor).Nodup
  /-- It is told the number. -/
  tells : ∀ x ∈ stored, ∃ c, visitors x.visitor = some c ∧ x.Tells c
  /-- Whoever has a number has stored an event under it. -/
  stored : ∀ i seq e, (visitors i).bind Visitor.number? = some (seq, e) →
    ∃ now, (⟨i, seq, now, e⟩ : Stored) ∈ stored

namespace Told

variable {stored : List Stored} {visitors : Nat → Option Visitor} {i : Nat} {c : Visitor}

/-- Who has just come has stored nothing. -/
theorem comes (h : Told stored visitors) (hnone : visitors i = none) (hc : c.number? = none) :
    Told stored (Function.update visitors i (some c)) := by
  refine ⟨h.once, fun x hx => ?_, fun j seq e hj => ?_⟩
  · obtain ⟨c', hc', htells⟩ := h.tells x hx
    have hne : x.visitor ≠ i := by
      rintro rfl
      rw [hnone] at hc'
      cases hc'
    exact ⟨c', (Function.update_of_ne hne _ _).trans hc', htells⟩
  · by_cases hji : j = i
    · subst hji
      rw [Function.update_self, Option.bind_some, hc] at hj
      cases hj
    · rw [Function.update_of_ne hji] at hj
      exact h.stored j seq e hj

theorem acts (h : Told stored visitors) (hi : visitors i = some c) {free : Prop} {l l' : Live} {c' : Visitor}
    {new : List Stored} (hstep : c.Step i free l l' c' new) :
    Told (stored ++ new) (Function.update visitors i (some c')) := by
  rcases hstep.number with ⟨rfl, hnumber, hkeeps⟩ | ⟨seq, now, e, rfl, rfl, hnew⟩
  · rw [List.append_nil]
    refine ⟨h.once, fun x hx => ?_, fun j seq e hj => ?_⟩
    · obtain ⟨d, hd, htells⟩ := h.tells x hx
      by_cases hxi : x.visitor = i
      · rw [hxi, hi] at hd
        cases hd
        exact ⟨c', by rw [hxi, Function.update_self], hkeeps x htells⟩
      · exact ⟨d, (Function.update_of_ne hxi _ _).trans hd, htells⟩
    · by_cases hji : j = i
      · subst hji
        rw [Function.update_self, Option.bind_some, hnumber] at hj
        exact h.stored j seq e (by rw [hi, Option.bind_some, hj])
      · rw [Function.update_of_ne hji] at hj
        exact h.stored j seq e hj
  · -- the visitor has stored nothing before
    have hfirst : ∀ x ∈ stored, x.visitor ≠ i := by
      rintro x hx rfl
      obtain ⟨d, hd, htells⟩ := h.tells x hx
      rw [hi] at hd
      cases hd
      exact x.not_tells (.inr (.inr rfl)) htells
    refine ⟨?_, fun x hx => ?_, fun j seq' e' hj => ?_⟩
    · rw [List.map_append, List.nodup_append]
      refine ⟨h.once, List.nodup_singleton _, fun j hj k hk => ?_⟩
      obtain ⟨x, hx, rfl⟩ := List.mem_map.1 hj
      cases List.mem_singleton.1 hk
      exact hfirst x hx
    · rcases List.mem_append.1 hx with hold | hlast
      · obtain ⟨d, hd, htells⟩ := h.tells x hold
        exact ⟨d, (Function.update_of_ne (hfirst x hold) _ _).trans hd, htells⟩
      · cases List.mem_singleton.1 hlast
        exact ⟨c', Function.update_self .., hnew⟩
    · by_cases hji : j = i
      · subst hji
        rw [Function.update_self, Option.bind_some] at hj
        cases (hnew.number?_eq hj)
        exact ⟨now, List.mem_append_right _ List.mem_cons_self⟩
      · rw [Function.update_of_ne hji] at hj
        obtain ⟨now', hmem⟩ := h.stored j seq' e' hj
        exact ⟨now', List.mem_append_left _ hmem⟩

end Told

/-! ### The lines of the queue in the log -/

namespace Service

/-- The lines of the log that are the queue's. -/
def kept (v : Service) : List Bytes := Lines.lines (v.live.disk.log.take v.live.queue.journal.len)

/-- The log has the lines of the queue, and behind them at most one that an append has left that broke off. -/
structure Parted (v : Service) : Prop where
  /-- These are its lines. -/
  lines : Lines.lines v.live.disk.log = v.kept ++ v.left
  /-- One is left at most. -/
  left : v.left.length ≤ 1

variable {o : Origin} {v v' : Service} {w : View}

theorem Standing.kept_eq (h : Standing o v w) : v.kept = w.lines := by
  rw [kept, h.disk.log_eq, h.journal.len, View.log, List.take_left, lines_joined h.unbroken]

theorem Sound.parted (h : Sound o v) (hthere : v.gone = false) : v.Parted := by
  cases h with
  | gone hgone =>
    rw [hthere] at hgone
    cases hgone
  | standing w _ hcore _ _ _ =>
    refine ⟨by rw [hcore.disk.log_eq, hcore.lines_log, hcore.kept_eq], ?_⟩
    rw [hcore.left_eq]
    rcases hcore.extra.lines with hnone | ⟨now, e, -, hone⟩
    · rw [hnone]
      exact Nat.zero_le _
    · rw [hone]
      exact Nat.le_refl _

/-- Whoever appends nothing leaves the lines of the queue, and what is left behind them, or empties the log. -/
theorem kept_of_spares (h : v.live.Spares v'.live) :
    v'.kept = v.kept ∧ v'.left = v.left ∨ v'.kept = [] ∧ v'.left = [] := by
  rcases h.log with ⟨hlog, hlen⟩ | hnil
  · rw [kept, left, hlog, hlen]
    exact .inl ⟨rfl, rfl⟩
  · rw [kept, left, hnil, List.take_nil, List.drop_nil]
    exact .inr ⟨rfl, rfl⟩

theorem Parted.spares (hw : v.Parted) (h : v.live.Spares v'.live) : v'.Parted := by
  rcases h.log with ⟨hlog, hlen⟩ | hnil
  · refine ⟨?_, ?_⟩
    · rw [kept, Service.left, hlog, hlen]
      exact hw.lines
    · rw [Service.left, hlog, hlen]
      exact hw.left
  · refine ⟨?_, ?_⟩
    · rw [kept, Service.left, hnil, List.take_nil, List.drop_nil]
      rfl
    · rw [Service.left, hnil, List.drop_nil]
      exact Nat.zero_le _

end Service

/-! ### What holds in every run -/

namespace Shared

variable {o : Service.Origin} {ls : List Bytes} {first : UInt64} {g g' : Shared}

/-- What holds in every run of a queue that has started from an origin, with lines to be handed out and with
a number to be given next. -/
structure Holds (o : Service.Origin) (ls : List Bytes) (first : UInt64) (g : Shared) : Prop where
  /-- The queue is so as each visitor has found it or made it. -/
  fits : ∀ i c, g.visitors i = some c → c.Fits g.live.queue
  /-- Once somebody has closed the queue nobody appends. -/
  free : g.Ended → g.Free
  /-- Until then it is a queue in service. What is taken at the end of closing is with the visitors. -/
  sound : g.Ended ∨ g.service.gone = false ∧ g.service.closers = [] ∧ Service.Sound o g.service
  /-- The log. -/
  parted : g.service.Parted
  /-- The lines are those that were to be handed out and those of what has been stored. -/
  lines : g.service.lines = ls ++ g.stored.map Stored.line
  /-- The numbers of what has been stored. -/
  seqs : g.stored.map Stored.seq = numbers first g.stored.length
  /-- The next number. -/
  next : g.live.queue.journal.nextSeq = after first g.stored.length
  /-- What visitors are told. -/
  told : Told g.stored g.visitors

/-- Somebody who has closed the queue has closed it for good. -/
theorem Step.ended (h : Step g g') (hended : g.Ended) : g'.Ended := by
  obtain ⟨i, delete, answer, hi⟩ := hended
  cases h with
  | @comes j c hnone _ =>
    have hij : i ≠ j := by
      rintro rfl
      rw [hi] at hnone
      cases hnone
    exact ⟨i, delete, answer, (g.come_of_ne c hij).trans hi⟩
  | @acts j c c' l new hj hstep =>
    have hij : i ≠ j := by
      rintro rfl
      rw [hi] at hj
      cases hj
      exact hstep.not_answered rfl
    exact ⟨i, delete, answer, (g.acted_of_ne c' l new hij).trans hi⟩
  | works => exact ⟨i, delete, answer, hi⟩

/-- Somebody who has closed the queue has found it closed, with its pump stopped. -/
theorem Holds.quiet (h : Holds o ls first g) (hended : g.Ended) : g.service.Quiet := by
  obtain ⟨i, delete, answer, hi⟩ := hended
  have hfits := h.fits i _ hi
  exact ⟨hfits.1, hfits.2.2⟩

/-- Whoever has just come has found nothing, has no number and no answer, and does not append. -/
theorem fresh_same {c : Visitor} (h : c.Fresh) : (∀ q, c.Fits q) ∧ c.number? = none ∧
    (∀ e, c ≠ .producer e .appends) ∧ ∀ delete answer, c ≠ .closer delete (.answered answer) := by
  cases c with
  | producer e stage =>
    cases stage with
    | looks => exact ⟨fun _ => trivial, rfl, fun _ hc => (by cases hc), fun _ _ hc => (by cases hc)⟩
    | _ => exact h.elim
  | closer delete stage =>
    cases stage with
    | shuts => exact ⟨fun _ => trivial, rfl, fun _ hc => (by cases hc), fun _ _ hc => (by cases hc)⟩
    | _ => exact h.elim

theorem Holds.comes (h : Holds o ls first g) {i : Nat} {c : Visitor} (hnone : g.visitors i = none)
    (hfresh : c.Fresh) : Holds o ls first (g.come i c) := by
  obtain ⟨hfits, hnumber, happends, hanswered⟩ := fresh_same hfresh
  refine ⟨fun j c' hj => ?_, ?_, h.sound.imp (Step.ended (.comes hnone hfresh)) id, h.parted, h.lines, h.seqs, h.next,
    h.told.comes hnone hnumber⟩
  · rcases of_update hj with ⟨-, rfl⟩ | ⟨-, hj⟩
    · exact hfits _
    · exact h.fits j c' hj
  · rintro ⟨k, delete, answer, hk⟩ j e hj
    rcases of_update hk with ⟨-, heq⟩ | ⟨-, hk⟩
    · exact absurd heq.symm (hanswered delete answer)
    · rcases of_update hj with ⟨-, heq⟩ | ⟨-, hj⟩
      · exact happends e heq.symm
      · exact h.free ⟨k, delete, answer, hk⟩ j e hj

/-- Nobody appends when closing ends, and nobody begins to after that. -/
theorem Holds.free_acted (h : Holds o ls first g) {i : Nat} {c c' : Visitor} {l : Live} {new : List Stored}
    (hstep : c.Step i g.Free g.live l c' new) (hended : (g.acted i c' l new).Ended) :
    (g.acted i c' l new).Free := by
  intro j e hj
  obtain ⟨k, delete, answer, hk⟩ := hended
  rcases of_update hk with ⟨-, hanswered⟩ | ⟨-, hk⟩
  · rcases of_update hj with ⟨-, happends⟩ | ⟨-, hj⟩
    · cases hanswered.trans happends.symm
    · exact hstep.free_of_answered hanswered.symm j e hj
  · have hended : g.Ended := ⟨k, delete, answer, hk⟩
    rcases of_update hj with ⟨-, happends⟩ | ⟨-, hj⟩
    · have hopen := (hstep.open_of_appends happends.symm).1
      rw [(h.quiet hended).1] at hopen
      cases hopen
    · exact h.free hended j e hj

theorem Holds.acts (h : Holds o ls first g) {i : Nat} {c c' : Visitor} {l : Live} {new : List Stored}
    (hi : g.visitors i = some c) (hstep : c.Step i g.Free g.live l c' new) :
    Holds o ls first (g.acted i c' l new) := by
  obtain ⟨hseqs, hnext⟩ := hstep.seqs
  have hsound : (g.acted i c' l new).Ended ∨ (g.acted i c' l new).service.gone = false ∧
      (g.acted i c' l new).service.closers = [] ∧ Service.Sound o (g.acted i c' l new).service := by
    rcases h.sound with hended | ⟨hthere, hnobody, hsound⟩
    · exact .inl (Step.ended (.acts hi hstep) hended)
    · by_cases hanswered : ∃ delete answer, c' = .closer delete (.answered answer)
      · obtain ⟨delete, answer, rfl⟩ := hanswered
        exact .inl ⟨i, delete, answer, g.acted_self _ l new⟩
      · exact .inr ⟨hthere, hnobody, hstep.sound hsound hthere hnobody fun delete answer hc =>
          hanswered ⟨delete, answer, hc⟩⟩
  refine ⟨fun j c'' hj => ?_, h.free_acted hstep, hsound, ?_, ?_, ?_, ?_, h.told.acts hi hstep⟩
  · rcases of_update hj with ⟨-, rfl⟩ | ⟨-, hj⟩
    · exact hstep.fits (h.fits i c hi)
    · exact (h.fits j c'' hj).stays hstep.stays
  · rcases hstep.disk with ⟨hsame, hlen, -⟩ | ⟨e, rfl⟩ | ⟨delete, ready, answer, -, -, -, hspares⟩
    · exact Service.Parted.spares h.parted (Live.spares_of_eq hsame hlen)
    · rcases h.sound with hended | ⟨hthere, hnobody, hs⟩
      · exact absurd hi (h.free hended i e)
      · have hgoes : ∀ delete answer, c' ≠ .closer delete (.answered answer) := by
          rintro delete answer rfl
          cases hstep
        exact (hstep.sound hs hthere hnobody hgoes).parted hthere
    · exact Service.Parted.spares h.parted hspares
  · simp only [acted, h.lines, List.map_append, List.append_assoc]
  · simp only [acted]
    rw [List.map_append, h.seqs, hseqs, h.next, List.length_append, numbers_add]
  · simp only [acted]
    rw [hnext, h.next, List.length_append, after_after]

theorem Holds.works (h : Holds o ls first g) {v : Service} (hw : g.service.Works g.Free v) :
    Holds o ls first { g with service := v } := by
  obtain ⟨hlines, hgone, hclosers, hnext⟩ := hw.same
  refine ⟨fun i c hi => (h.fits i c hi).stays hw.stays, h.free, h.sound.imp id ?_, h.parted.spares hw.spares,
    hlines.trans h.lines, h.seqs, hnext.trans h.next, h.told⟩
  rintro ⟨hthere, hnobody, hsound⟩
  obtain ⟨a, hstep⟩ := hw.step
  exact ⟨hgone.trans hthere, hclosers.trans hnobody, hsound.step hstep⟩

theorem Holds.step (h : Holds o ls first g) (hstep : Step g g') : Holds o ls first g' := by
  cases hstep with
  | comes hnone hfresh => exact h.comes hnone hfresh
  | acts hi hc => exact h.acts hi hc
  | works hw => exact h.works hw

theorem Reaches.holds (h : Reaches g g') (hg : Holds o ls first g) : Holds o ls first g' := by
  induction h with
  | refl => exact hg
  | step _ hstep ih => exact ih.step hstep

/-! ### What each step writes -/

end Shared

/-- The lines in front of the end of the journal are the queue's, and those behind it are left. -/
theorem Service.kept_left {v : Service} {ls : List Bytes} {extra : Bytes} {head : Option Entry} {r : Nat}
    (hd : v.live.disk.Stands (joined ls ++ extra) head) (hj : v.live.queue.journal.At ls r) (hls : Unbroken ls) :
    v.kept = ls ∧ v.left = Lines.lines extra := by
  rw [kept, left, hd.log_eq, hj.len, List.take_left, List.drop_left, lines_joined hls]
  exact ⟨rfl, rfl⟩

/-- A visitor who has the journal puts the line of what it stores behind those of the queue. When it stores nothing,
it may leave its whole line there. -/
theorem Visitor.Step.kept {o : Service.Origin} {v : Service} {i : Nat} {free : Prop} {l : Live} {c' : Visitor}
    {new : List Stored} {e : Event} (h : (Visitor.producer e .appends).Step i free v.live l c' new)
    (hs : Service.Sound o v) (hthere : v.gone = false) :
    (∃ x, new = [x] ∧ Service.kept { v with live := l } = v.kept ++ [x.line] ∧
      Service.left { v with live := l } = []) ∨
    new = [] ∧ c' = .producer e (.answered none) ∧ Service.kept { v with live := l } = v.kept ∧
      (Service.left { v with live := l } = v.left ∨ Service.left { v with live := l } = [] ∨
        ∃ now, Service.left { v with live := l } = [Envelope.body v.live.queue.journal.nextSeq now e]) := by
  cases hs with
  | gone hgone =>
    rw [hthere] at hgone
    cases hgone
  | standing w _ hcore _ _ _ =>
    rw [hcore.kept_eq, hcore.left_eq]
    have hnew : ∀ now, Unbroken (w.lines ++ [Envelope.body v.live.queue.journal.nextSeq now e]) := fun now =>
      hcore.unbroken.append (unbroken_singleton (Envelope.newline_not_mem_body _ _ _))
    have hstored : ∀ {now : Time.Stamp} {j : Journal} {d : Disk},
        d.Stands (joined (w.lines ++ [Envelope.body v.live.queue.journal.nextSeq now e])) w.head →
        j.At (w.lines ++ [Envelope.body v.live.queue.journal.nextSeq now e]) w.line →
        Service.kept { v with live := ⟨{ v.live.queue with journal := j }, d⟩ } =
            w.lines ++ [Envelope.body v.live.queue.journal.nextSeq now e] ∧
          Service.left { v with live := ⟨{ v.live.queue with journal := j }, d⟩ } = [] := by
      intro now j d hd hj
      rw [← List.append_nil (joined _)] at hd
      exact Service.kept_left (v := { v with live := ⟨{ v.live.queue with journal := j }, d⟩ }) hd hj (hnew now)
    cases h with
    | @appends _ now j d seq _ happ =>
      left
      rcases hcore.journal.append_cases hcore.disk now e with
        ⟨d', cause, heq, -⟩ | ⟨j', d', hd, hj, -, -, ⟨heq, -⟩ | ⟨heq, -⟩⟩
      · rw [heq] at happ
        cases happ
      · rw [heq] at happ
        cases happ
        exact ⟨_, rfl, hstored hd hj⟩
      · rw [heq] at happ
        cases happ
    | @breaks _ now j d _ happ =>
      left
      rcases hcore.journal.append_cases hcore.disk now e with
        ⟨d', cause, heq, -⟩ | ⟨j', d', hd, hj, -, -, ⟨heq, -⟩ | ⟨heq, -⟩⟩
      · rw [heq] at happ
        cases happ
      · rw [heq] at happ
        cases happ
      · rw [heq] at happ
        cases happ
        exact ⟨_, rfl, hstored hd hj⟩
    | @refused _ now j d cause happ =>
      right
      rcases hcore.journal.append_cases hcore.disk now e with
        ⟨d', cause, heq, hd⟩ | ⟨j', d', -, -, -, -, ⟨heq, -⟩ | ⟨heq, -⟩⟩
      · rw [heq] at happ
        cases happ
        rw [← List.append_nil (joined _)] at hd
        obtain ⟨hkept, hleft⟩ := Service.kept_left
          (v := { v with live := ⟨{ v.live.queue with journal := v.live.queue.journal }, d⟩ }) hd hcore.journal
          hcore.unbroken
        exact ⟨rfl, rfl, hkept, .inr (.inl hleft)⟩
      · rw [heq] at happ
        cases happ
      · rw [heq] at happ
        cases happ
    | @refusedPartly _ now n k _ =>
      right
      have hlog := hcore.disk.log_eq
      obtain ⟨more, hd, hmore, -⟩ := hcore.journal.crash_append hcore.disk now e n k
      rw [hlog]
      obtain ⟨hkept, hleft⟩ := Service.kept_left
        (v := { v with live.disk := Effect.crash n k (v.live.queue.journal.appendEffects (joined w.lines ++ w.extra)
          (Envelope.line v.live.queue.journal.nextSeq now e)) v.live.disk }) hd hcore.journal hcore.unbroken
      refine ⟨rfl, rfl, hkept, ?_⟩
      rcases hmore with rfl | ⟨m, rfl⟩
      · exact .inl hleft
      · rcases Journal.At.lines_take_line v.live.queue.journal.nextSeq now e m with hnone | hone
        · exact .inr (.inl (hleft.trans hnone))
        · exact .inr (.inr ⟨now, hleft.trans hone⟩)

namespace Shared

variable {o : Service.Origin} {ls : List Bytes} {first : UInt64} {g g' : Shared}

/-- A step stores one event, whose line is then the last of the log; or it stores none, and leaves the lines of the
queue and what is behind them as they are, or empties the log, or leaves a line behind them that breaks off. -/
theorem Holds.writes (h : Holds o ls first g) (hstep : Step g g') :
    (∃ x, g'.stored = g.stored ++ [x] ∧ g'.service.kept = g.service.kept ++ [x.line] ∧ g'.service.left = []) ∨
    g'.stored = g.stored ∧
      (g'.service.kept = g.service.kept ∧ g'.service.left = g.service.left ∨
        g'.service.kept = [] ∧ g'.service.left = [] ∨
        g'.service.kept = g.service.kept ∧ ∃ i e, g.visitors i = some (.producer e .appends) ∧
          g'.visitors i = some (.producer e (.answered none)) ∧
          (g'.service.left = [] ∨ ∃ now, g'.service.left = [Envelope.body g.live.queue.journal.nextSeq now e])) := by
  have hspared : ∀ {v : Service}, g.live.Spares v.live →
      v.kept = g.service.kept ∧ v.left = g.service.left ∨ v.kept = [] ∧ v.left = [] := Service.kept_of_spares
  cases hstep with
  | comes => exact .inr ⟨rfl, .inl ⟨rfl, rfl⟩⟩
  | @acts i c c' l new hi hc =>
    rcases hc.disk with ⟨hsame, hlen, rfl⟩ | ⟨e, rfl⟩ | ⟨delete, ready, answer, -, -, rfl, hd⟩
    · exact .inr ⟨List.append_nil _, (hspared (Live.spares_of_eq hsame hlen)).imp_right .inl⟩
    · rcases h.sound with hended | ⟨hthere, -, hsound⟩
      · exact absurd hi (h.free hended i e)
      · rcases hc.kept hsound hthere with ⟨x, rfl, hkept, hleft⟩ | ⟨rfl, rfl, hkept, hleft⟩
        · exact .inl ⟨x, rfl, hkept, hleft⟩
        · refine .inr ⟨List.append_nil _, ?_⟩
          rcases hleft with hsame | hmore
          · exact .inl ⟨hkept, hsame⟩
          · exact .inr (.inr ⟨hkept, i, e, hi, g.acted_self _ l [], hmore⟩)
    · exact .inr ⟨List.append_nil _, (hspared hd).imp_right .inl⟩
  | works hw => exact .inr ⟨rfl, (hspared hw.spares).imp_right .inl⟩

/-- Until somebody has closed the queue its lines in the log are the last of those that were there and of those of
what has been stored. -/
theorem Holds.kept_suffix (h : Holds o ls first g) (hopen : ¬ g.Ended) :
    g.service.kept <:+ o.before ++ ls ++ g.stored.map Stored.line := by
  rcases h.sound with hended | ⟨hthere, -, hsound⟩
  · exact absurd hended hopen
  · cases hsound with
    | gone hgone =>
      rw [hthere] at hgone
      cases hgone
    | standing w _ hcore _ _ _ =>
      rw [List.append_assoc, ← h.lines, hcore.kept_eq]
      exact hcore.lines_suffix

/-! ### After closing -/

/-- Once somebody has closed the queue nothing is stored, and nothing is done to the disk but at the end of
another closing. -/
theorem Holds.disk_of_ended (h : Holds o ls first g) (hended : g.Ended) (hstep : Step g g') :
    g'.stored = g.stored ∧ (g'.live.disk = g.live.disk ∨ ∃ i delete ready answer,
      g.visitors i = some (.closer delete (.took ready)) ∧
      g'.visitors i = some (.closer delete (.answered answer))) := by
  cases hstep with
  | comes => exact ⟨rfl, .inl rfl⟩
  | @acts i c c' l new hi hc =>
    rcases hc.disk with ⟨hsame, -, rfl⟩ | ⟨e, rfl⟩ | ⟨delete, ready, answer, rfl, rfl, rfl, -⟩
    · exact ⟨List.append_nil _, .inl hsame⟩
    · exact absurd hi (h.free hended i e)
    · exact ⟨List.append_nil _, .inr ⟨i, delete, ready, answer, hi, g.acted_self _ l []⟩⟩
  | works hw => exact ⟨rfl, .inl (hw.disk_of_stopped (h.quiet hended).2)⟩

theorem Reaches.ended (h : Reaches g g') (hended : g.Ended) : g'.Ended := by
  induction h with
  | refl => exact hended
  | step _ hstep ih => exact hstep.ended ih

theorem Reaches.stored_of_ended (h : Reaches g g') (hg : Holds o ls first g) (hended : g.Ended) :
    g'.stored = g.stored := by
  induction h with
  | refl => rfl
  | step hrun hstep ih => exact ((hrun.holds hg).disk_of_ended (hrun.ended hended) hstep).1.trans ih

/-- A producer who comes to a queue that somebody has closed looks, and then has no number. -/
theorem Reaches.late (h : Reaches g g') (hg : Holds o ls first g) (hended : g.Ended) {i : Nat}
    (hi : g.visitors i = none) {e : Event} {stage : Storing} (hi' : g'.visitors i = some (.producer e stage)) :
    stage = .looks ∨ stage = .answered none := by
  induction h generalizing stage with
  | refl =>
    rw [hi] at hi'
    cases hi'
  | @step g₁ g₂ hrun hstep ih =>
    cases hstep with
    | @comes j c hnone hfresh =>
      rcases of_update hi' with ⟨-, rfl⟩ | ⟨-, hi'⟩
      · cases stage with
        | looks => exact .inl rfl
        | _ => exact hfresh.elim
      · exact ih hi'
    | @acts j c c' l new hj hc =>
      rcases of_update hi' with ⟨rfl, rfl⟩ | ⟨-, hi'⟩
      · have hclosed := ((hrun.holds hg).quiet (hrun.ended hended)).1
        cases hc with
        | looks =>
          rw [hclosed]
          exact .inr rfl
        | enters => exact absurd (ih hj) (by simp)
        | appends => exact absurd (ih hj) (by simp)
        | breaks | refused | refusedPartly => exact .inr rfl
        | wakes => exact absurd (ih hj) (by simp)
      · exact ih hi'
    | works => exact ih hi'

/-- Whoever looks whether the queue is closed, and it is, has no number. -/
theorem Step.refuses {i : Nat} {e : Event} (hclosed : g.live.queue.closed = true)
    (hi : g.visitors i = some (.producer e .looks)) :
    Step g (g.acted i (.producer e (.answered none)) g.live []) := by
  have hlooks := @Visitor.Step.looks i g.Free g.live e
  rw [hclosed, if_pos rfl] at hlooks
  exact .acts hi hlooks

/-- Where there is nothing nothing is made. -/
theorem Step.missing (h : Step g g') (hmissing : g.live.disk.place = .missing) : g'.live.disk.place = .missing := by
  cases h with
  | comes => exact hmissing
  | acts _ hc => exact hc.missing hmissing
  | works hw => exact hw.spares.missing hmissing

theorem Reaches.missing (h : Reaches g g') (hmissing : g.live.disk.place = .missing) :
    g'.live.disk.place = .missing := by
  induction h with
  | refl => exact hmissing
  | step _ hstep ih => exact hstep.missing ih

/-! ### A visitor who is alone -/

theorem Free.acted (h : g.Free) {i : Nat} {c : Visitor} (hc : ∀ e, c ≠ .producer e .appends) (l : Live)
    (new : List Stored) : (g.acted i c l new).Free := by
  intro j e hj
  rcases of_update hj with ⟨-, heq⟩ | ⟨-, hj⟩
  · exact hc e heq.symm
  · exact h j e hj

/-- A visitor who takes its steps one after the other has gone through them when it has taken the last. -/
theorem acted_acted (g : Shared) (i : Nat) (c c' : Visitor) (l l' : Live) (new new' : List Stored) :
    (g.acted i c l new).acted i c' l' new' = g.acted i c' l' (new ++ new') := by
  simp only [acted, Function.update_idem, List.map_append, List.append_assoc]

theorem come_acted (g : Shared) (i : Nat) (c c' : Visitor) (l : Live) (new : List Stored) :
    (g.come i c).acted i c' l new = g.acted i c' l new := by
  simp only [acted, come, Function.update_idem]

end Shared

/-- The number under which an event is stored, if it is. -/
def Live.stores (l : Live) (now : Time.Stamp) (e : Event) : List UInt64 :=
  match (l.append now e).2 with
  | .ok (some seq) => [seq]
  | .error .broken => [l.queue.journal.nextSeq]
  | _ => []

namespace Shared

variable {o : Service.Origin} {ls : List Bytes} {first : UInt64} {g g' : Shared}

/-- A producer who is alone stores its event as the queue does, and is told the same. -/
theorem exists_enqueue (g : Shared) (hfree : g.Free) {i : Nat} (hi : g.visitors i = none) {now : Time.Stamp}
    (hnow : now.Valid) (e : Event) :
    Reaches g (g.acted i (.producer e (.answered (g.live.enqueue now e).2)) (g.live.enqueue now e).1
      ((g.live.stores now e).map fun seq => ⟨i, seq, now, e⟩)) := by
  have hcomes : Reaches g (g.come i (.producer e .looks)) := .step .refl (.comes hi trivial)
  rw [Live.enqueue, Live.stores]
  cases hclosed : g.live.queue.closed with
  | true =>
    have hnone : g.live.append now e = (g.live, .ok none) := by rw [Live.append, if_pos hclosed]
    have hlast := hcomes.step (Step.refuses hclosed (come_self g _))
    rw [come_acted] at hlast
    rw [hnone]
    exact hlast
  | false =>
    have hlooks := @Visitor.Step.looks i (g.come i (.producer e .looks)).Free g.live e
    rw [hclosed, if_neg Bool.false_ne_true] at hlooks
    have hwaits := hcomes.step (.acts (come_self g _) hlooks)
    rw [come_acted] at hwaits
    have henters := @Visitor.Step.enters i (g.acted i (.producer e .waits) g.live []).Free g.live e
      (hfree.acted (fun _ hc => (by cases hc)) g.live [])
    rw [hclosed, if_neg Bool.false_ne_true] at henters
    have happends := hwaits.step (.acts (acted_self g _ _ _) henters)
    rw [acted_acted] at happends
    rcases heq : g.live.queue.journal.append now e g.live.disk with ⟨j, d, (cause | _) | seq⟩
    · have happend : g.live.append now e = (⟨{ g.live.queue with journal := j }, d⟩, .error (.error cause)) := by
        rw [Live.append, hclosed, if_neg Bool.false_ne_true, heq]
        rfl
      have hlast := happends.step (.acts (acted_self g _ _ _) (.refused heq))
      rw [acted_acted] at hlast
      rw [happend]
      exact hlast
    · have happend : g.live.append now e = (⟨{ g.live.queue with journal := j }, d⟩, .error .broken) := by
        rw [Live.append, hclosed, if_neg Bool.false_ne_true, heq]
        rfl
      have hlast := happends.step (.acts (acted_self g _ _ _) (.breaks hnow heq))
      rw [acted_acted] at hlast
      rw [happend]
      exact hlast
    · have happend : g.live.append now e = (⟨{ g.live.queue with journal := j }, d⟩, .ok (some seq)) := by
        rw [Live.append, hclosed, if_neg Bool.false_ne_true, heq]
        rfl
      have hstored := happends.step (.acts (acted_self g _ _ _) (.appends hnow heq))
      rw [acted_acted] at hstored
      have hlast := hstored.step (.acts (acted_self g _ _ _) .wakes)
      rw [acted_acted] at hlast
      rw [happend]
      exact hlast

/-- The pump takes its steps one after the other while no visitor has the journal. -/
theorem exists_reaches_steps (g : Shared) (hfree : g.Free) (n : Nat) :
    ∃ v, Reaches g { g with service := v } ∧ v.live = Live.steps n g.live := by
  induction n generalizing g with
  | zero => exact ⟨g.service, .refl, rfl⟩
  | succ n ih =>
    cases hstep : g.live.step? with
    | none => exact ⟨g.service, .refl, by rw [Live.steps, hstep]⟩
    | some l =>
      obtain ⟨hlive, -⟩ := Service.pumped_same g.service l
      obtain ⟨v, hrun, hv⟩ := ih { g with service := g.service.pumped l } hfree
      refine ⟨v, .trans (.step .refl (.works (.pumped (fun _ => hfree) hstep))) hrun, ?_⟩
      calc v.live = Live.steps n (g.service.pumped l).live := hv
        _ = Live.steps n l := by rw [hlive]
        _ = Live.steps (n + 1) g.live := by rw [Live.steps, hstep]

/-- Whoever closes the queue and is alone closes it as the queue does, and is told the same. -/
theorem exists_close (g : Shared) (hfree : g.Free) {i : Nat} (hi : g.visitors i = none) (delete : Bool) :
    ∃ g', Reaches g g' ∧ g'.live = (g.live.close delete).1 ∧
      g'.visitors = Function.update g.visitors i (some (.closer delete (.answered (g.live.close delete).2))) ∧
      g'.stored = g.stored := by
  have hcomes : Reaches g (g.come i (.closer delete .shuts)) := .step .refl (.comes hi trivial)
  have hshuts := hcomes.step (.acts (come_self g _) .shuts)
  rw [come_acted] at hshuts
  have hcancels := hshuts.step (.acts (acted_self g _ _ _) .cancels)
  rw [acted_acted] at hcancels
  -- closing has begun
  let g₁ := g.acted i (.closer delete .waits) g.live.beginClose []
  have hbegun : Reaches g g₁ := hcancels
  have hfree₁ : g₁.Free := hfree.acted (fun _ hc => (by cases hc)) _ _
  -- the pump stops
  obtain ⟨v, hrun, hlive⟩ := exists_reaches_steps g₁ hfree₁ 5
  let g₂ : Shared := { g₁ with service := v }
  have hpump : v.live = g.live.beginClose.awaitPump := hlive
  have hwaits : g₂.visitors i = some (.closer delete .waits) := acted_self g _ g.live.beginClose []
  have hfree₂ : g₂.Free := hfree₁
  have hstopped : v.live.queue.phase = .stopped := by
    have hended : g.live.beginClose.awaitPump.ended = true := Live.ended_awaitPump rfl
    rwa [← hpump, Live.ended, decide_eq_true_iff] at hended
  have htakes := (hbegun.trans hrun).step (.acts hwaits (.takes hstopped))
  have hends := htakes.step (.acts (acted_self g₂ _ _ _) (.ends (hfree₂.acted (fun _ hc => (by cases hc)) _ _)))
  rw [acted_acted] at hends
  have hclose : v.live.takeReady.endClose delete v.live.queue.ledger.ready = g.live.close delete := by
    rw [hpump]
    rfl
  refine ⟨_, hends, congrArg Prod.fst hclose, ?_, ?_⟩
  · show Function.update (Function.update g.visitors i _) i _ = _
    rw [Function.update_idem]
    exact congrArg (fun result => Function.update g.visitors i (some (.closer delete (.answered result))))
      (congrArg Prod.snd hclose)
  · show g.stored ++ [] ++ ([] ++ []) = g.stored
    simp only [List.append_nil]

/-! ### From opening on -/

/-- A queue that nobody has come to. -/
def start (l : Live) : Shared := { service := .start l }

section Opened

variable {place place' : Place} {f : Folder} {log : Bytes} {c : Cursor} (h : place.Finds f log c)
  {path : String} {capacity : Nat} {q : Queue} (hopen : Queue.open? path capacity place = (place', .ok q))

include h hopen

theorem holds_start : Holds (.found f log c) (Service.start ⟨q, ⟨place', none⟩⟩).lines q.journal.nextSeq
    (start ⟨q, ⟨place', none⟩⟩) where
  fits := fun _ _ hi => (by cases hi)
  free := fun _ _ _ hi => (by cases hi)
  sound := .inr ⟨rfl, rfl, Service.sound_start h hopen⟩
  parted := (Service.sound_start h hopen).parted rfl
  lines := (List.append_nil _).symm
  seqs := rfl
  next := (after_zero _).symm
  told := ⟨List.nodup_nil, fun x hx => (by cases hx), fun i seq e hi => (by cases hi)⟩

/-- The lines in front of the cursor and those to be handed out are the lines of the log. -/
theorem before_append_lines :
    (Service.Origin.found f log c).before ++ (Service.start ⟨q, ⟨place', none⟩⟩).lines = Lines.lines log := by
  obtain ⟨k, -, hstart, -⟩ := Journal.exists_startOffset log c
  rw [Service.lines_start h hopen, Service.Origin.found, hstart, lines_take_mark, lines_drop_mark,
    List.take_append_drop]

variable {g : Shared} (hg : Reaches (start ⟨q, ⟨place', none⟩⟩) g)

include hg

/-- A queue is opened on any folder, and any number of visitors come to store events and to close it, in any
order of their steps and of those of the pump and the consumers. What has been stored is numbered one by one up to
the greatest number, which comes again and again. Each visitor has stored one event at most. The visitors who are told
a number are those who have stored an event under another number than the greatest, each one event under that number;
whoever has stored one under the greatest is told that there is none. The numbers that are told increase.

The log has the lines of the queue, and behind them at most one that an append has left that broke off. Each stored
event is put behind the lines of the queue once, as one line, in the place of what is left there, and nothing else is
put there. Once somebody has closed the queue nothing more is stored, nothing is done to the disk but at the end of
another closing, and a producer who comes then is told that there is no number. Once there is no folder any more there
never will be. -/
theorem Reaches.agrees :
    g.stored.map Stored.seq = numbers q.journal.nextSeq g.stored.length ∧
    ((g.stored.map Stored.seq).Pairwise (· < ·) ↔ q.journal.nextSeq.toNat + g.stored.length ≤ 2 ^ 64) ∧
    ((g.stored.map Stored.seq).filter (· ≠ Journal.greatest)).Pairwise (· < ·) ∧
    (g.stored.map Stored.visitor).Nodup ∧
    (∀ i seq e, (∃ now, (⟨i, seq, now, e⟩ : Stored) ∈ g.stored) ∧ seq ≠ Journal.greatest ↔
      g.visitors i = some (.producer e (.stored seq)) ∨
        g.visitors i = some (.producer e (.answered (some seq)))) ∧
    (∀ x ∈ g.stored, x.seq = Journal.greatest →
      g.visitors x.visitor = some (.producer x.event (.answered none))) ∧
    (Lines.lines g.live.disk.log = g.service.kept ++ g.service.left ∧ g.service.left.length ≤ 1) ∧
    (∀ g', Step g g' →
      (∃ x, g'.stored = g.stored ++ [x] ∧ g'.service.kept = g.service.kept ++ [x.line] ∧ g'.service.left = []) ∨
      g'.stored = g.stored ∧
        (g'.service.kept = g.service.kept ∧ g'.service.left = g.service.left ∨
          g'.service.kept = [] ∧ g'.service.left = [] ∨
          g'.service.kept = g.service.kept ∧ ∃ i e, g.visitors i = some (.producer e .appends) ∧
            g'.visitors i = some (.producer e (.answered none)) ∧
            (g'.service.left = [] ∨ ∃ now, g'.service.left = [Envelope.body g.live.queue.journal.nextSeq now e]))) ∧
    (¬ g.Ended → g.service.kept <:+ Lines.lines log ++ g.stored.map Stored.line) ∧
    (g.Ended → ∀ g', Reaches g g' → g'.stored = g.stored ∧
      (∀ g'', Step g' g'' → g''.live.disk = g'.live.disk ∨ ∃ i delete ready answer,
        g'.visitors i = some (.closer delete (.took ready)) ∧
        g''.visitors i = some (.closer delete (.answered answer))) ∧
      ∀ i e stage, g.visitors i = none → g'.visitors i = some (.producer e stage) →
        stage = .answered none ∨
          stage = .looks ∧ Step g' (g'.acted i (.producer e (.answered none)) g'.live [])) ∧
    (g.live.disk.place = .missing → ∀ g', Reaches g g' → g'.live.disk.place = .missing) := by
  have hholds := hg.holds (holds_start h hopen)
  have hseqs := hholds.seqs
  refine ⟨hseqs, ?_, ?_, hholds.told.once, fun i seq e => ?_, fun x hx hlast => ?_,
    ⟨hholds.parted.lines, hholds.parted.left⟩, fun g' => hholds.writes, fun hnone => ?_,
    fun hended g' hrun => ⟨hrun.stored_of_ended hholds hended, fun g'' hstep => ?_, fun i e stage hi hi' => ?_⟩,
    fun hmissing g' hrun => hrun.missing hmissing⟩
  · rw [hseqs, pairwise_numbers_iff]
  · rw [hseqs]
    exact pairwise_numbers_filter _ _
  · rw [← Visitor.bind_number?]
    constructor
    · rintro ⟨⟨now, hmem⟩, hne⟩
      obtain ⟨c, hc, htells⟩ := hholds.told.tells _ hmem
      rw [Stored.Tells, if_neg hne] at htells
      rw [hc, Option.bind_some, htells]
    · intro hnumber
      obtain ⟨now, hmem⟩ := hholds.told.stored i seq e hnumber
      refine ⟨⟨now, hmem⟩, fun hlast => ?_⟩
      obtain ⟨c, hc, htells⟩ := hholds.told.tells _ hmem
      rw [Stored.Tells, if_pos hlast] at htells
      rw [hc, htells] at hnumber
      cases hnumber
  · obtain ⟨c, hc, htells⟩ := hholds.told.tells x hx
    rw [Stored.Tells, if_pos hlast] at htells
    rw [hc, htells]
  · rw [← before_append_lines h hopen]
    exact hholds.kept_suffix hnone
  · exact ((hrun.holds hholds).disk_of_ended (hrun.ended hended) hstep).2
  · rcases hrun.late hholds hended hi hi' with rfl | rfl
    · exact .inr ⟨rfl, Step.refuses ((hrun.holds hholds).quiet (hrun.ended hended)).1 hi'⟩
    · exact .inl rfl

end Opened

/-! ### At the greatest number -/

end Shared

/-- An event that comes when the greatest number is the next one is stored, and nobody is told. -/
theorem Live.enqueue_last {l : Live} {now : Time.Stamp} {e : Event} (hopen : l.queue.closed = false)
    (hnext : l.queue.journal.nextSeq = Journal.greatest) (hlen : l.disk.log.length ≤ l.queue.journal.len)
    (hroom : l.disk.log.length + (Envelope.line l.queue.journal.nextSeq now e).length ≤ maxFileSize) :
    l.enqueue now e =
      (⟨{ l.queue with
          journal := { l.queue.journal with
            len := l.queue.journal.len + (Envelope.line l.queue.journal.nextSeq now e).length } },
        l.disk.setLog (l.disk.log ++ Envelope.line l.queue.journal.nextSeq now e)⟩, none) ∧
      l.stores now e = [l.queue.journal.nextSeq] := by
  rw [enqueue, stores, append, hopen, if_neg Bool.false_ne_true, Journal.append_last hnext hlen hroom]
  exact ⟨rfl, rfl⟩

namespace Shared

/-- A folder with a log, and a cursor that says that the greatest number comes next. -/
def lastFolder (log : Option Entry) : Folder :=
  { log := log, head := some (.file (Cursor.bytes ⟨0, 0xFFFFFFFFFFFFFFFF⟩)) }

/-- The queue on it, with that much in the log. -/
def lastQueue (len : Nat) : Queue := .ofJournal ⟨⟨0, 0xFFFFFFFFFFFFFFFF⟩, 0, len, 0xFFFFFFFFFFFFFFFF⟩ 1

theorem finds_last : Place.Finds (.folder (lastFolder none)) (lastFolder (some (.file []))) []
    ⟨0, 0xFFFFFFFFFFFFFFFF⟩ := by
  refine ⟨⟨_, rfl, rfl⟩, ?_⟩
  rw [lastFolder, Cursor.ofEntry_bytes]
  rfl

theorem open_last : Queue.open? "q" 1 (.folder (lastFolder none)) =
    (.folder (lastFolder (some (.file []))), .ok (lastQueue 0)) := by
  rw [Queue.open?, finds_last.open_eq]
  rfl

/-- When it all happens. -/
def newYear : Time.Stamp := ⟨⟨2024, 1, 1⟩, 0, 0, 0, 123456789⟩

/-- The line of a key that is stored under the greatest number. -/
def lastLine (code : UInt8) : Bytes := Envelope.line 0xFFFFFFFFFFFFFFFF newYear (.key ⟨code, 0⟩)

theorem length_lastLine : (lastLine 1).length = 131 ∧ (lastLine 2).length = 131 := by decide +kernel

/-- The queue and its folder, when the log is this one. -/
def lastLive (log : Bytes) : Live := ⟨lastQueue log.length, ⟨.folder (lastFolder (some (.file log))), none⟩⟩

theorem enqueue_lastLive (log : Bytes) (code : UInt8) (hroom : (log ++ lastLine code).length ≤ maxFileSize) :
    (lastLive log).enqueue newYear (.key ⟨code, 0⟩) = (lastLive (log ++ lastLine code), none) ∧
      (lastLive log).stores newYear (.key ⟨code, 0⟩) = [0xFFFFFFFFFFFFFFFF] := by
  rw [List.length_append] at hroom
  have hlast := @Live.enqueue_last (lastLive log) newYear (.key ⟨code, 0⟩) rfl rfl (Nat.le_refl _) hroom
  have hafter : lastLive (log ++ lastLine code) = ⟨lastQueue (log.length + (lastLine code).length),
      ⟨.folder (lastFolder (some (.file (log ++ lastLine code)))), none⟩⟩ := by
    rw [lastLive, List.length_append]
  rw [hafter]
  exact hlast

/-- Two producers come to a folder whose cursor says that the greatest number comes next. Both events are stored under
it, and both producers are told that there is no number. -/
theorem agrees_at_greatest_number :
    let place : Place := .folder (lastFolder none)
    let f := lastFolder (some (.file []))
    place.Finds f [] ⟨0, 0xFFFFFFFFFFFFFFFF⟩ ∧ Queue.open? "q" 1 place = (.folder f, .ok (lastQueue 0)) ∧
    ∃ g, Reaches (start ⟨lastQueue 0, ⟨.folder f, none⟩⟩) g ∧
      g.stored = [⟨0, 0xFFFFFFFFFFFFFFFF, newYear, .key ⟨1, 0⟩⟩, ⟨1, 0xFFFFFFFFFFFFFFFF, newYear, .key ⟨2, 0⟩⟩] ∧
      g.visitors 0 = some (.producer (.key ⟨1, 0⟩) (.answered none)) ∧
      g.visitors 1 = some (.producer (.key ⟨2, 0⟩) (.answered none)) ∧
      ¬ (g.stored.map Stored.seq).Pairwise (· < ·) := by
  intro place f
  have hnow : newYear.Valid := by decide
  have hfree : (start (lastLive [])).Free := fun _ _ hi => (by cases hi)
  obtain ⟨henqueue, hstores⟩ := enqueue_lastLive [] 1 (by
    rw [List.nil_append, length_lastLine.1]
    decide)
  have hfirst := exists_enqueue (start (lastLive [])) hfree (i := 0) rfl hnow (.key ⟨1, 0⟩)
  rw [show (start (lastLive [])).live = lastLive [] from rfl, henqueue, hstores] at hfirst
  obtain ⟨henqueue', hstores'⟩ := enqueue_lastLive ([] ++ lastLine 1) 2 (by
    rw [List.nil_append, List.length_append, length_lastLine.1, length_lastLine.2]
    decide)
  have hfree' := hfree.acted (i := 0) (c := .producer (.key ⟨1, 0⟩) (.answered none)) (fun _ hc => (by cases hc))
    (lastLive ([] ++ lastLine 1)) ([0xFFFFFFFFFFFFFFFF].map fun seq => ⟨0, seq, newYear, .key ⟨1, 0⟩⟩)
  have hsecond := exists_enqueue _ hfree' (i := 1) rfl hnow (.key ⟨2, 0⟩)
  rw [show Shared.live _ = lastLive ([] ++ lastLine 1) from rfl, henqueue', hstores'] at hsecond
  have hboth := hfirst.trans hsecond
  obtain ⟨-, hincrease, -, -, -, hnone, -⟩ := Reaches.agrees finds_last open_last hboth
  refine ⟨finds_last, open_last, _, hboth, rfl, hnone ⟨0, _, _, _⟩ List.mem_cons_self rfl,
    hnone ⟨1, _, _, _⟩ (List.mem_cons_of_mem _ List.mem_cons_self) rfl, fun hpairwise => ?_⟩
  have hle : 0xFFFFFFFFFFFFFFFF + 2 ≤ 2 ^ 64 := hincrease.1 hpairwise
  exact absurd hle (by decide)

end Shared
end CecRelay
