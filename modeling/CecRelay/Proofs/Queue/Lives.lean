import CecRelay.Proofs.Queue.Running

/-!
# A queue through all its openings

A folder is opened, the queue on it works, and the process dies or closes the queue, any number of times
(`Life.Reached`). A `History` keeps which events have been stored in all that time, in order, and
which have been received. At any time the lines in front of which the next queue would start are those
of the last events stored, and all events before those have been received (`History.Covers`).

An append that breaks off may leave its whole line. The next append cuts it off; when the process dies first,
its event is one of those stored (`Life.left`).
-/

namespace CecRelay

open Lines

/-- A queue through its openings. -/
inductive Life
  /-- Nobody has it open; what stands at its path. -/
  | down (place : Place)
  /-- It is in service. -/
  | up (v : Service)

/-- What stands at the path. -/
def Life.place : Life → Place
  | .down place => place
  | .up v => v.live.disk.place

/-- The events whose lines are left behind those of the queue, by an append that has broken off. -/
def Life.left : Life → List (UInt64 × Event)
  | .down _ => []
  | .up v => v.left.filterMap Envelope.decode?

/-- What has happened in all openings. -/
structure History where
  /-- The events that have been accepted, or stored without anybody being told, and their numbers. -/
  accepted : List (UInt64 × Event) := []
  /-- The events that have been received, each with its position among those accepted. -/
  received : List (Nat × Event) := []

namespace History

/-- The history after a happening in service. The lines there are those of the last events accepted. -/
def add (h : History) (v : Service) : Happening → History
  | .silent => h
  | .accepted seq e | .untold seq e => { h with accepted := h.accepted ++ [(seq, e)] }
  | .received i e => { h with received := h.received ++ [(h.accepted.length - v.lines.length + i, e)] }

/-- The history with what is left behind the lines. -/
def adopt (h : History) (l : Life) : History := { h with accepted := h.accepted ++ l.left }

/-- These are lines of the last events accepted, and all events before those have been received. -/
structure Covers (h : History) (ls : List Bytes) : Prop where
  /-- The lines carry the last events. -/
  lines : ls.map Envelope.decode? <:+ h.accepted.map some
  /-- The others have been received. -/
  rest : ∀ n, n + ls.length < h.accepted.length → ∃ e, (n, e) ∈ h.received

/-- What has been received is what was accepted at that position. -/
def Faithful (h : History) : Prop :=
  ∀ n e, (n, e) ∈ h.received → (h.accepted[n]?).map Prod.snd = some e

theorem Covers.length_le {h : History} {ls : List Bytes} (hc : h.Covers ls) : ls.length ≤ h.accepted.length := by
  have hle := hc.lines.length_le
  rwa [List.length_map, List.length_map] at hle

section

variable {h : History} {ls : List Bytes}

theorem Faithful.accepted (hf : h.Faithful) (ps : List (UInt64 × Event)) :
    Faithful { h with accepted := h.accepted ++ ps } := by
  intro n e hmem
  obtain ⟨q, hq, rfl⟩ := Option.map_eq_some_iff.1 (hf n e hmem)
  have hlt := (List.getElem?_eq_some_iff.1 hq).1
  simp only [List.getElem?_append_left hlt, hq, Option.map_some]

theorem Faithful.received (hf : h.Faithful) {n : Nat} {e : Event}
    (hn : (h.accepted[n]?).map Prod.snd = some e) : Faithful { h with received := h.received ++ [(n, e)] } := by
  intro n' e' hmem
  rcases List.mem_append.1 hmem with hmem | hmem
  · exact hf n' e' hmem
  · cases List.mem_singleton.1 hmem
    exact hn

theorem Covers.accepted (hc : h.Covers ls) {line : Bytes} {p : UInt64 × Event}
    (hp : Envelope.decode? line = some p) :
    Covers { h with accepted := h.accepted ++ [p] } (ls ++ [line]) := by
  constructor
  · simp only [List.map_append, List.map_singleton, hp]
    exact List.suffix_append_self_iff.2 hc.lines
  · intro n hn
    simp only [List.length_append, List.length_singleton] at hn
    exact hc.rest n (by omega)

theorem Covers.received (hc : h.Covers ls) (x : Nat × Event) :
    Covers { h with received := h.received ++ [x] } ls := by
  refine ⟨hc.lines, fun n hn => ?_⟩
  obtain ⟨e, he⟩ := hc.rest n hn
  exact ⟨e, List.mem_append_left _ he⟩

end

end History

/-- The lines carry the last events, so each has its place among those. -/
theorem getElem?_of_decoded {ls : List Bytes} {ps : List (UInt64 × Event)}
    (h : ls.map Envelope.decode? <:+ ps.map some) {i : Nat} {line : Bytes} (hi : ls[i]? = some line) :
    ∃ p, ps[ps.length - ls.length + i]? = some p ∧ Envelope.decode? line = some p := by
  obtain ⟨rest, hrest⟩ := h
  have hlen := congrArg List.length hrest
  simp only [List.length_append, List.length_map] at hlen
  have hget : (ps.map some)[rest.length + i]? = some (Envelope.decode? line) := by
    rw [← hrest, List.getElem?_append_right (Nat.le_add_right _ _), Nat.add_sub_cancel_left, List.getElem?_map,
      hi, Option.map_some]
  have hsub : ps.length - ls.length = rest.length := by omega
  rw [List.getElem?_map] at hget
  obtain ⟨p, hp, heq⟩ := Option.map_eq_some_iff.1 hget
  exact ⟨p, by rwa [hsub], heq.symm⟩

namespace Life

/-- What a queue can come to, starting where there is nothing. -/
inductive Reached : Life → History → Prop
  /-- At first there is nothing. -/
  | bare {place : Place} : place.Bare → Reached (.down place) {}
  /-- It is opened. -/
  | opened {place place' : Place} {h : History} {path : String} {capacity : Nat} {q : Queue} :
    Reached (.down place) h → Queue.open? path capacity place = (place', .ok q) →
    Reached (.up (.start ⟨q, ⟨place', none⟩⟩)) h
  /-- Opening fails. -/
  | notOpened {place place' : Place} {h : History} {path : String} {capacity : Nat} {failure : Failure} :
    Reached (.down place) h → Queue.open? path capacity place = (place', .error failure) →
    Reached (.down place') h
  /-- The queue takes a step, other than to remove its folder. -/
  | stepped {v v' : Service} {h : History} {a : Happening} : Reached (.up v) h → Service.Step v a v' →
    v'.gone = false → Reached (.up v') (h.add v a)
  /-- The process dies, or leaves the queue. -/
  | died {v : Service} {h : History} : Reached (.up v) h → Reached (.down v.live.disk.place) (h.adopt (.up v))

/-- What holds of a queue and its history. While nobody has it open the cursor is a mark of the log.
While it is in service all that it has received is in the history. -/
def Holds : Life → History → Prop
  | .down place, h => h.Faithful ∧ ∃ f log c i, place.Finds f log c ∧ i ≤ (lines log).length ∧
      c.offset = mark (lines log) i ∧ (lines log).map Envelope.decode? <:+ h.accepted.map some ∧
      h.Covers ((lines log).drop i)
  | .up v, h => h.Faithful ∧ v.gone = false ∧ ∃ o, Service.Sound o v ∧ ¬ o.refused ∧
      (o.before ++ v.lines).map Envelope.decode? <:+ h.accepted.map some ∧ h.Covers v.lines ∧
      ∀ s, ∀ x ∈ v.got s, (h.accepted.length - v.lines.length + x.1, x.2) ∈ h.received

/-- Opening starts in front of the lines that are to be handed out. -/
theorem Holds.opened {place place' : Place} {h : History} (hd : Holds (.down place) h) {path : String}
    {capacity : Nat} {q : Queue} (hopen : Queue.open? path capacity place = (place', .ok q)) :
    Holds (.up (.start ⟨q, ⟨place', none⟩⟩)) h := by
  obtain ⟨hfaithful, f, log, c, i, hf, hi, hc, hlines, hcovers⟩ := hd
  have hstart := (Journal.startOffset_eq_iff log c).2 ⟨i, hi, hc⟩
  have hnew := Service.lines_start hf hopen
  rw [hstart, hc, lines_drop_mark] at hnew
  refine ⟨hfaithful, rfl, .found f log c, Service.sound_start hf hopen, fun hne => hne hstart, ?_, ?_, ?_⟩
  · simp only [Service.Origin.found, hstart, hc, lines_take_mark, hnew, List.take_append_drop]
    exact hlines
  · rw [hnew]
    exact hcovers
  · intro s x hx
    cases hx

/-- Opening that fails leaves what it has found. -/
theorem Holds.notOpened {place place' : Place} {h : History} (hd : Holds (.down place) h) {path : String}
    {capacity : Nat} {failure : Failure}
    (hopen : Queue.open? path capacity place = (place', .error failure)) : Holds (.down place') h := by
  obtain ⟨hfaithful, f, log, c, i, hf, hi, hc, hlines, hcovers⟩ := hd
  rw [Service.place_open hf hopen]
  refine ⟨hfaithful, _, complete log, c, i, ⟨⟨_, rfl, rfl⟩, hf.cursor⟩, ?_⟩
  rw [lines_complete]
  exact ⟨hi, hc, hlines, hcovers⟩

/-- What is left behind the lines can be read. -/
theorem map_left {o : Service.Origin} {v : Service} {w : Service.View} (h : Service.Standing o v w) :
    v.left.map Envelope.decode? = (Life.up v).left.map some := by
  rw [Life.left, h.left_eq]
  rcases h.extra.lines with hnone | ⟨now, e, hvalid, hone⟩
  · rw [hnone]
    rfl
  · have hdecode := Envelope.decode?_body v.live.queue.journal.nextSeq e hvalid
    rw [hone, List.map_singleton, List.filterMap_cons_some hdecode, hdecode]
    rfl

/-- Whenever the process dies, the cursor is in front of every line that has not been received. -/
theorem Holds.died {v : Service} {h : History} (hu : Holds (.up v) h) :
    Holds (.down v.live.disk.place) (h.adopt (.up v)) := by
  obtain ⟨hfaithful, hthere, o, hs, hnot, hlines, hcovers, hgot⟩ := hu
  cases hs with
  | gone hgone _ _ _ =>
    rw [hthere] at hgone
    cases hgone
  | standing w _ hcore hin hlanes _ =>
    obtain ⟨c, hc, ⟨i, hi, hmark⟩ | ⟨hrefused, -⟩⟩ := hcore.cursor
    · obtain ⟨f, hf, -⟩ := hcore.disk.finds hc
      have hleft := map_left hcore
      have hmap : (lines w.log).map Envelope.decode? <:+ (h.adopt (.up v)).accepted.map some := by
        rw [hcore.lines_log, List.map_append, hleft, History.adopt, List.map_append]
        exact List.suffix_append_self_iff.2 ((hcore.lines_suffix.map Envelope.decode?).trans hlines)
      have hle : i ≤ (lines w.log).length := by
        rw [hcore.lines_log, List.length_append]
        exact (hcore.le_lines hi).trans (Nat.le_add_right _ _)
      have hmark' : c.offset = mark (lines w.log) i := by
        rw [hcore.lines_log, mark_append_left (hcore.le_lines hi), hcore.mark_front hi, hmark]
      refine ⟨hfaithful.accepted _, f, w.log, c, i, hf, hle, hmark', hmap,
        ((List.drop_suffix i _).map _).trans hmap, fun n hn => ?_⟩
      have hleft' := congrArg List.length hleft
      rw [List.length_map, List.length_map] at hleft'
      rw [hcore.lines_log, List.drop_append_of_le_length (hcore.le_lines hi), Service.View.lines,
        List.drop_append_of_le_length hi, List.length_append, hleft'] at hn
      simp only [History.adopt, List.length_append] at hn
      rcases Nat.lt_or_ge (n + v.lines.length) h.accepted.length with hlt | hge
      · exact hcovers.rest n hlt
      · -- the line has been read since opening and is no longer in the ledger
        have hlen := hcovers.length_le
        have hwhole := congrArg List.length hcore.whole
        simp only [List.length_append] at hwhole
        obtain ⟨k, rfl⟩ : ∃ k, n = h.accepted.length - v.lines.length + k :=
          ⟨n - (h.accepted.length - v.lines.length), by omega⟩
        have hk : k < w.past.length := by omega
        have hline : v.lines[k]? = some w.past[k] := by
          rw [hcore.whole, List.getElem?_append_left hk, List.getElem?_eq_getElem hk]
        obtain ⟨⟨seq, e⟩, -, hdecode⟩ := getElem?_of_decoded hcovers.lines hline
        have hmem := mem_items (List.getElem?_eq_getElem hk) hdecode 0
        rw [Nat.zero_add] at hmem
        exact ⟨e, hgot e.stream (k, e) ((hcore.items_past_prefix hin hlanes e.stream).subset hmem)⟩
    · exact absurd hrefused hnot

/-- A step that shows nothing appends no line and receives nothing. -/
theorem silent_eq {v v' : Service} (h : Service.Step v .silent v') : v'.lines = v.lines ∧ v'.got = v.got := by
  cases h with
  | @pumped l _ =>
    obtain ⟨-, hgot, -, -, hlines⟩ := Service.pumped_same v l
    exact ⟨hlines, hgot⟩
  | _ => exact ⟨rfl, rfl⟩

/-- An event that is stored is the last one in the history. -/
theorem Holds.stored {v v' : Service} {h : History} (hu : Holds (.up v) h)
    (hsound : ∀ o, Service.Sound o v → Service.Sound o v') (hthere' : v'.gone = false) {seq : UInt64}
    {now : Time.Stamp} {e : Event} (hvalid : now.Valid) (hnew : v'.lines = v.lines ++ [Envelope.body seq now e])
    (hsame : v'.got = v.got) : Holds (.up v') { h with accepted := h.accepted ++ [(seq, e)] } := by
  obtain ⟨hfaithful, -, o, hs, hnot, hlines, hcovers, hgot⟩ := hu
  have hdecode := Envelope.decode?_body seq e hvalid
  have hsub : h.accepted.length + 1 - (v.lines.length + 1) = h.accepted.length - v.lines.length := by omega
  refine ⟨hfaithful.accepted _, hthere', o, hsound o hs, hnot, ?_, ?_, ?_⟩
  · simp only [hnew, ← List.append_assoc, List.map_append, List.map_singleton, hdecode]
    rw [← List.map_append]
    exact List.suffix_append_self_iff.2 hlines
  · rw [hnew]
    exact hcovers.accepted hdecode
  · simp only [hsame, hnew, List.length_append, List.length_singleton, hsub]
    exact hgot

/-- A step in service is told in the history. -/
theorem Holds.stepped {v v' : Service} {h : History} {a : Happening} (hu : Holds (.up v) h)
    (hstep : Service.Step v a v') (hthere' : v'.gone = false) : Holds (.up v') (h.add v a) := by
  have hsound : ∀ o, Service.Sound o v → Service.Sound o v' := fun o hs => hs.step hstep
  cases a with
  | silent =>
    obtain ⟨hfaithful, -, o, hs, hnot, hlines, hcovers, hgot⟩ := hu
    obtain ⟨hsame, hsame'⟩ := silent_eq hstep
    refine ⟨hfaithful, hthere', o, hsound o hs, hnot, ?_⟩
    rw [hsame, hsame']
    exact ⟨hlines, hcovers, hgot⟩
  | accepted seq e =>
    cases hstep with
    | accepted hvalid happ => exact hu.stored hsound hthere' hvalid rfl rfl
  | untold seq e =>
    cases hstep with
    | untold hvalid happ => exact hu.stored hsound hthere' hvalid rfl rfl
  | received i e =>
    obtain ⟨hfaithful, -, o, hs, hnot, hlines, hcovers, hgot⟩ := hu
    cases hstep with
    | @received s _ _ rest hheld =>
      -- what is held has been read from a line since opening
      have hitem : (i, e) ∈ items s 0 v.lines := by
        refine ((hs.lanes.taken s).trans (hs.handed s)).subset ?_
        rw [hheld]
        exact List.mem_append_right _ List.mem_cons_self
      obtain ⟨k, line, seq, hk, hline, hdecode⟩ := of_mem_items hitem
      rw [Nat.zero_add] at hk
      subst hk
      obtain ⟨p, hp, hp'⟩ := getElem?_of_decoded hcovers.lines hline
      rw [hdecode] at hp'
      cases hp'
      refine ⟨hfaithful.received (by rw [hp, Option.map_some]), hthere', o, hsound o hs, hnot, hlines,
        hcovers.received _, fun t x hx => ?_⟩
      by_cases hts : t = s
      · subst hts
        simp only [Function.update_self] at hx
        rcases List.mem_append.1 hx with hx | hx
        · exact List.mem_append_left _ (hgot t x hx)
        · cases List.mem_singleton.1 hx
          exact List.mem_append_right _ List.mem_cons_self
      · simp only [Function.update_of_ne hts] at hx
        exact List.mem_append_left _ (hgot t x hx)

/-- What holds of a queue and its history holds of all that can be reached. -/
theorem Reached.holds {l : Life} {h : History} (hl : Reached l h) : Holds l h := by
  induction hl with
  | bare hbare =>
    obtain ⟨f, hf⟩ := hbare.finds
    refine ⟨fun n e hmem => ?_, f, [], {}, 0, hf, Nat.zero_le _, (mark_zero _).symm, List.nil_suffix,
      List.nil_suffix, fun n hn => ?_⟩
    · cases hmem
    · cases hn
  | opened _ hopen ih => exact ih.opened hopen
  | notOpened _ hopen ih => exact ih.notOpened hopen
  | stepped _ hstep hthere ih => exact ih.stepped hstep hthere
  | died _ ih => exact ih.died

end Life
end CecRelay
