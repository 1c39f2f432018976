import CecRelay.Power.Monitor
import CecRelay.Proofs.Text.Search

/-!
# Looking back from a truth value

The reader of power signals goes through the lines of a monitor and keeps the member whose truth value it awaits. The
same can be said without it, by looking back from a line: each line has one class (`Classed`), and a line gives an
event exactly if it is a truth value and the last line before it that is no noise is a header of one of the two
members (`Answers`, `feedAll_eq_some_iff`). So a header has one event at most, and a header of another message keeps
the truth values behind it from those before it (`events_by_looking_back`).

The step lemma says what one more line does to what is awaited (`Awaits.succ_iff` beside `feedKind_awaited_iff`); the
induction over the lines is `awaitedAfter_take_iff`.
-/

namespace CecRelay.Power

open Text

variable {line : List Char} {lines : List (List Char)} {k : LineKind} {m m' : Member} {b b' : Bool} {e : PowerEvent}
  {i i' j n : Nat}

/-! ### The class of a line -/

/-- The mark of a member in a header. -/
def Member.mark : Member → List Char
  | .sleep => sleepMark
  | .shutdown => shutdownMark

/-- The mark of a member stands somewhere in a line. -/
def Marked (m : Member) (line : List Char) : Prop := m.mark <:+: trim line

/-- A line starts a message on the bus. -/
def Opens (line : List Char) : Prop := "signal ".toList <+: trim line ∨ "method ".toList <+: trim line

/-- A line is an argument that spells a truth value. -/
def Tells (b : Bool) (line : List Char) : Prop :=
  ∃ rest, trim line = "boolean ".toList ++ rest ∧ trim rest = (if b then "true" else "false").toList

/-- The class of a line. A mark counts before anything else, that of sleep before that of shutdown. -/
inductive Classed (line : List Char) : LineKind → Prop
  /-- It has the mark of sleep. -/
  | sleep : Marked .sleep line → Classed line (.header (some .sleep))
  /-- It has the mark of shutdown. -/
  | shutdown : ¬ Marked .sleep line → Marked .shutdown line → Classed line (.header (some .shutdown))
  /-- It starts another message. -/
  | other : (∀ m, ¬ Marked m line) → Opens line → Classed line (.header none)
  /-- It spells a truth value. -/
  | boolean {b : Bool} : (∀ m, ¬ Marked m line) → ¬ Opens line → Tells b line → Classed line (.boolean b)
  /-- It is none of these. -/
  | noise : (∀ m, ¬ Marked m line) → ¬ Opens line → (∀ b, ¬ Tells b line) → Classed line .noise

theorem truth?_eq_some_iff {s : List Char} :
    truth? s = some b ↔ s = (if b then "true" else "false").toList := by
  unfold truth?
  split
  · cases b <;> simp_all
  · split
    · cases b <;> simp_all
    · cases b <;> simp_all

theorem holds_sleepMark_iff : holds sleepMark (trim line) = true ↔ Marked .sleep line := holds_iff

theorem holds_shutdownMark_iff : holds shutdownMark (trim line) = true ↔ Marked .shutdown line := holds_iff

theorem opens_iff : (leads "signal " (trim line) || leads "method " (trim line)) = true ↔ Opens line := by
  rw [Bool.or_eq_true, leads, leads, leads_iff, leads_iff, Opens]

/-- The kind of a line that is no header says which truth value it spells, if it does. -/
theorem afterLead?_boolean_iff :
    (∃ rest, afterLead? "boolean ".toList (trim line) = some rest ∧ truth? (trim rest) = some b) ↔ Tells b line := by
  simp only [afterLead?_eq_some_iff, truth?_eq_some_iff, Tells]

theorem lineKind_of_no_header (hmarks : ∀ m, ¬ Marked m line) (hopens : ¬ Opens line) :
    lineKind line = (match afterLead? "boolean ".toList (trim line) with
      | some rest => ((truth? (trim rest)).map LineKind.boolean).getD .noise
      | none => .noise) := by
  have hsleep : ¬ holds sleepMark (trim line) = true := mt holds_sleepMark_iff.1 (hmarks .sleep)
  have hshutdown : ¬ holds shutdownMark (trim line) = true := mt holds_shutdownMark_iff.1 (hmarks .shutdown)
  have hother := mt opens_iff.1 hopens
  rw [lineKind, kindOfTrimmed]
  exact (if_neg hsleep).trans ((if_neg hshutdown).trans (if_neg hother))

/-- A line is read as its class says. -/
theorem Classed.lineKind_eq (h : Classed line k) : lineKind line = k := by
  cases h with
  | sleep hmark =>
    have hholds : holds sleepMark (trim line) = true := holds_sleepMark_iff.2 hmark
    rw [lineKind, kindOfTrimmed, if_pos hholds]
  | shutdown hsleep hmark =>
    have hnot : ¬ holds sleepMark (trim line) = true := mt holds_sleepMark_iff.1 hsleep
    have hholds : holds shutdownMark (trim line) = true := holds_shutdownMark_iff.2 hmark
    rw [lineKind, kindOfTrimmed, if_neg hnot, if_pos hholds]
  | other hmarks hopens =>
    have hsleep : ¬ holds sleepMark (trim line) = true := mt holds_sleepMark_iff.1 (hmarks .sleep)
    have hshutdown : ¬ holds shutdownMark (trim line) = true := mt holds_shutdownMark_iff.1 (hmarks .shutdown)
    rw [lineKind, kindOfTrimmed, if_neg hsleep, if_neg hshutdown, if_pos (opens_iff.2 hopens)]
  | boolean hmarks hopens htells =>
    obtain ⟨rest, hrest, htruth⟩ := afterLead?_boolean_iff.2 htells
    rw [lineKind_of_no_header hmarks hopens, hrest]
    simp [htruth]
  | noise hmarks hopens htells =>
    rw [lineKind_of_no_header hmarks hopens]
    cases hrest : afterLead? "boolean ".toList (trim line) with
    | none => rfl
    | some rest =>
      cases htruth : truth? (trim rest) with
      | none => simp [htruth]
      | some b => exact absurd (afterLead?_boolean_iff.1 ⟨rest, hrest, htruth⟩) (htells b)

/-- Every line has a class. -/
theorem exists_classed (line : List Char) : ∃ k, Classed line k := by
  by_cases hsleep : Marked .sleep line
  · exact ⟨_, .sleep hsleep⟩
  by_cases hshutdown : Marked .shutdown line
  · exact ⟨_, .shutdown hsleep hshutdown⟩
  have hmarks : ∀ m, ¬ Marked m line := by
    intro m
    cases m with
    | sleep => exact hsleep
    | shutdown => exact hshutdown
  by_cases hopens : Opens line
  · exact ⟨_, .other hmarks hopens⟩
  by_cases htells : ∃ b, Tells b line
  · obtain ⟨b, htells⟩ := htells
    exact ⟨_, .boolean hmarks hopens htells⟩
  · exact ⟨_, .noise hmarks hopens fun b hb => htells ⟨b, hb⟩⟩

theorem lineKind_eq_iff : lineKind line = k ↔ Classed line k := by
  constructor
  · rintro rfl
    obtain ⟨k, hk⟩ := exists_classed line
    rwa [hk.lineKind_eq]
  · intro h
    exact h.lineKind_eq

/-! ### The lines behind a header -/

/-- There is a line with this number, and it is such a line. -/
def At (lines : List (List Char)) (i : Nat) (P : List Char → Prop) : Prop := ∃ line, lines[i]? = some line ∧ P line

/-- The line with a number is of a class. -/
def KindAt (lines : List (List Char)) (i : Nat) (k : LineKind) : Prop := At lines i fun line => Classed line k

theorem kindAt_iff : KindAt lines i k ↔ lines[i]?.map lineKind = some k := by
  rw [Option.map_eq_some_iff]
  simp only [KindAt, At, lineKind_eq_iff]

theorem KindAt.unique {k' : LineKind} (h : KindAt lines i k) (h' : KindAt lines i k') : k = k' :=
  Option.some.inj ((kindAt_iff.1 h).symm.trans (kindAt_iff.1 h'))

theorem kindAt_of_lt (hi : i < lines.length) : KindAt lines i k ↔ lineKind lines[i] = k := by
  rw [kindAt_iff, List.getElem?_eq_getElem hi, Option.map_some, Option.some.injEq]

/-- The last line in front of line `i` that is no noise is line `j`, a header of `m`. -/
structure Awaits (lines : List (List Char)) (j i : Nat) (m : Member) : Prop where
  /-- It stands in front. -/
  lt : j < i
  /-- It is a header. -/
  header : KindAt lines j (.header (some m))
  /-- All that follows is noise. -/
  noise : ∀ n, j < n → n < i → KindAt lines n .noise

/-- Line `i` is a truth value, and the last line in front of it that is no noise is line `j`, a header of `m`. -/
structure Answers (lines : List (List Char)) (j i : Nat) (m : Member) (b : Bool) : Prop
    extends Awaits lines j i m where
  /-- The line is a truth value. -/
  truth : KindAt lines i (.boolean b)

/-- The event that a truth value makes of a member. -/
inductive Announces : Member → Bool → PowerEvent → Prop
  /-- The machine goes to sleep. -/
  | sleep : Announces .sleep true ⟨.sleep, true⟩
  /-- The machine has woken up. -/
  | resume : Announces .sleep false ⟨.resume, false⟩
  /-- The machine shuts down, or does not shut down after all. -/
  | shutdown (b : Bool) : Announces .shutdown b ⟨.shutdown, b⟩

theorem announces_iff : Announces m b e ↔ signalEvent m b = e := by
  constructor
  · intro h
    cases h <;> rfl
  · rintro rfl
    cases m with
    | sleep =>
      cases b with
      | true => exact .sleep
      | false => exact .resume
    | shutdown => exact .shutdown b

/-- What holds from one place on ends to hold at one place. -/
theorem end_unique {P : Nat → Prop} (hlt : j < i) (hall : ∀ n, j < n → n < i → P n) (hend : ¬ P i) (hlt' : j < i')
    (hall' : ∀ n, j < n → n < i' → P n) (hend' : ¬ P i') : i = i' := by
  rcases Nat.lt_trichotomy i i' with hless | heq | hless
  · exact absurd (hall' i hlt hless) hend
  · exact heq
  · exact absurd (hall i' hlt' hless) hend'

/-- A truth value is no noise. -/
theorem Answers.not_noise (h : Answers lines j i m b) : ¬ KindAt lines i .noise := by
  intro hnoise
  cases hnoise.unique h.truth

/-- A header has one truth value at most. -/
theorem Answers.unique (h : Answers lines j i m b) (h' : Answers lines j i' m' b') : i = i' :=
  end_unique h.lt h.noise h.not_noise h'.lt h'.noise h'.not_noise

/-! ### What is awaited -/

theorem feedKind_awaited_iff {awaited : Option Member} :
    (feedKind awaited k).1 = some m ↔ k = .header (some m) ∨ k = .noise ∧ awaited = some m := by
  cases k <;> simp [feedKind]

theorem feedKind_event_iff {awaited : Option Member} :
    (feedKind awaited k).2 = some e ↔ ∃ m b, awaited = some m ∧ k = .boolean b ∧ Announces m b e := by
  cases k <;> simp [feedKind, announces_iff, Option.map_eq_some_iff]

/-- After one more line a member is awaited if the line is its header, or if it is noise and the member was awaited. -/
theorem Awaits.succ_iff : (∃ j, Awaits lines j (i + 1) m) ↔
    KindAt lines i (.header (some m)) ∨ KindAt lines i .noise ∧ ∃ j, Awaits lines j i m := by
  constructor
  · rintro ⟨j, hlt, hheader, hnoise⟩
    rcases Nat.lt_succ_iff_lt_or_eq.1 hlt with hlt | rfl
    · exact .inr ⟨hnoise i hlt (Nat.lt_succ_self i), j, hlt, hheader,
        fun n hn hni => hnoise n hn (Nat.lt_succ_of_lt hni)⟩
    · exact .inl hheader
  · rintro (hheader | ⟨hlast, j, hlt, hheader, hnoise⟩)
    · exact ⟨i, Nat.lt_succ_self i, hheader, fun n hn hni => absurd (Nat.le_of_lt_succ hni) (Nat.not_le_of_lt hn)⟩
    · refine ⟨j, Nat.lt_succ_of_lt hlt, hheader, fun n hn hni => ?_⟩
      rcases Nat.lt_succ_iff_lt_or_eq.1 hni with hni | rfl
      · exact hnoise n hn hni
      · exact hlast

theorem awaitedAfter_take_succ (awaited : Option Member) (hi : i < lines.length) :
    awaitedAfter awaited (lines.take (i + 1)) = (feed (awaitedAfter awaited (lines.take i)) lines[i]).1 := by
  rw [awaitedAfter, awaitedAfter, List.take_add_one, List.getElem?_eq_getElem hi, List.foldl_append]
  rfl

/-- What the reader awaits in front of a line is what looking back from the line finds. -/
theorem awaitedAfter_take_iff (hi : i ≤ lines.length) :
    awaitedAfter none (lines.take i) = some m ↔ ∃ j, Awaits lines j i m := by
  induction i with
  | zero =>
    constructor
    · intro h
      cases h
    · rintro ⟨j, h⟩
      exact absurd h.lt (Nat.not_lt_zero j)
  | succ i ih =>
    rw [awaitedAfter_take_succ none hi, feed, feedKind_awaited_iff, ih (Nat.le_of_succ_le hi), Awaits.succ_iff,
      kindAt_of_lt hi, kindAt_of_lt hi]

theorem length_feedAll (awaited : Option Member) (lines : List (List Char)) :
    (feedAll awaited lines).length = lines.length := by
  induction lines generalizing awaited with
  | nil => rfl
  | cons line lines ih => exact congrArg (· + 1) (ih _)

/-- What a line gives depends on the line and on what is awaited in front of it. -/
theorem getElem?_feedAll (awaited : Option Member) (lines : List (List Char)) (i : Nat) :
    (feedAll awaited lines)[i]? = lines[i]?.map fun line => (feed (awaitedAfter awaited (lines.take i)) line).2 := by
  induction lines generalizing awaited i with
  | nil => rfl
  | cons line lines ih =>
    cases i with
    | zero => rfl
    | succ i => exact ih (feed awaited line).1 i

/-- A line gives an event exactly if it is a truth value and the last line in front of it that is no noise is a header
of one of the two members. -/
theorem feedAll_eq_some_iff :
    (feedAll none lines)[i]? = some (some e) ↔ ∃ j m b, Answers lines j i m b ∧ Announces m b e := by
  rw [getElem?_feedAll]
  by_cases hi : i < lines.length
  · rw [List.getElem?_eq_getElem hi, Option.map_some, Option.some.injEq, feed, feedKind_event_iff]
    simp only [awaitedAfter_take_iff (Nat.le_of_lt hi), ← kindAt_of_lt hi]
    constructor
    · rintro ⟨m, b, ⟨j, hawaits⟩, htruth, hannounces⟩
      exact ⟨j, m, b, ⟨hawaits, htruth⟩, hannounces⟩
    · rintro ⟨j, m, b, hanswers, hannounces⟩
      exact ⟨m, b, ⟨j, hanswers.toAwaits⟩, hanswers.truth, hannounces⟩
  · rw [List.getElem?_eq_none (Nat.le_of_not_lt hi)]
    constructor
    · intro h
      cases h
    · rintro ⟨j, m, b, hanswers, -⟩
      obtain ⟨line, hline, -⟩ := hanswers.truth
      exact absurd (List.getElem?_eq_some_iff.1 hline).1 hi

/-- Every line has one class. A fresh reader gives one answer to each line. The answer is an event exactly if the line
is a truth value and the last line in front of it that is no noise is a header of one of the two members, and then it
is what the truth value makes of this member. So a header has one event at most, and behind a header of another
message no line gives an event before there is a header of one of the two again. -/
theorem events_by_looking_back (lines : List (List Char)) :
    (∀ line, ∃ k, Classed line k ∧ ∀ k', Classed line k' → k' = k) ∧
      (feedAll none lines).length = lines.length ∧
      (∀ i e, (feedAll none lines)[i]? = some (some e) ↔ ∃ j m b, Answers lines j i m b ∧ Announces m b e) ∧
      (∀ j i i' m m' b b', Answers lines j i m b → Answers lines j i' m' b' → i = i') ∧
      ∀ n i, n < i → KindAt lines n (.header none) →
        (∀ n', n < n' → n' < i → ∀ m, ¬ KindAt lines n' (.header (some m))) →
        ∀ e, (feedAll none lines)[i]? ≠ some (some e) := by
  refine ⟨fun line => ?_, length_feedAll none lines, fun i e => feedAll_eq_some_iff,
    fun j i i' m m' b b' h h' => h.unique h', fun n i hlt hother hnone e hevent => ?_⟩
  · obtain ⟨k, hk⟩ := exists_classed line
    exact ⟨k, hk, fun k' hk' => hk'.lineKind_eq.symm.trans hk.lineKind_eq⟩
  · obtain ⟨j, m, b, hanswers, -⟩ := feedAll_eq_some_iff.1 hevent
    rcases Nat.lt_trichotomy j n with hjn | rfl | hnj
    · cases (hanswers.noise n hjn hlt).unique hother
    · cases hanswers.header.unique hother
    · exact hnone j hnj hanswers.lt m hanswers.header

end CecRelay.Power
