import CecRelay.Proofs.Power.LookBack

/-!
# Members with longer names

A monitor prints a message as a header that names its member, `member=PrepareForSleep`, and one line for each part of
its arguments. The events are for two signals (`Due`), but the reader looks for `member=` and the name of one of them
anywhere in a line, in front of any other test, and does not look at what follows. So it takes the header of every
member whose name only begins like one of the two for the header of this one, be it of a signal or of a call, and an
argument too that has such a text in it (`TakenFor`). The login manager has a member of this sort,
`PrepareForShutdownWithMetadata`, with a truth value as its first argument: a shutdown gives its event twice.

What the reader makes of a printed stream, and when that is for the two signals only, is said by
`events_of_signals_iff`.
-/

namespace CecRelay.Power

open Text

variable {line : List Char} {lines : List (List Char)} {m m' : Member} {b b' : Bool} {e : PowerEvent} {i i' j j' : Nat}

/-! ### Messages as they are printed -/

/-- The two sorts of messages that name a member. -/
inductive MessageSort
  /-- A signal. -/
  | signal
  /-- The call of a method. -/
  | method
  deriving DecidableEq, Repr

/-- How the header of a message starts. -/
def MessageSort.lead : MessageSort → List Char
  | .signal => "signal ".toList
  | .method => "method ".toList

/-- A character of an identifier. -/
def isWordChar (c : Char) : Bool := c.isAlphanum || c == '_'

/-- The mark in front of a member. -/
def memberMark : List Char := "member=".toList

/-- The name of a member. -/
def Member.name : Member → List Char
  | .sleep => "PrepareForSleep".toList
  | .shutdown => "PrepareForShutdown".toList

theorem Member.mark_eq (m : Member) : m.mark = memberMark ++ m.name := by
  cases m <;> rfl

/-- The header of a message. Its member is an identifier, and what is in the other fields does not look like a second
mark of a member: the names and paths of the bus have no equals sign. -/
structure Header where
  /-- The sort of the message. -/
  sort : MessageSort
  /-- The fields in front of the member. -/
  fields : List Char
  /-- The member. -/
  member : List Char
  /-- What follows the member, if anything does. -/
  rest : List Char
  /-- The member is an identifier. -/
  word : member ≠ [] ∧ ∀ c ∈ member, isWordChar c = true
  /-- The identifier ends there. -/
  ends : ∀ c ∈ rest.head?, isWordChar c = false
  /-- The mark of a member stands once. -/
  once : ∀ n < (sort.lead ++ fields ++ memberMark ++ (member ++ rest)).length,
    memberMark <+: (sort.lead ++ fields ++ memberMark ++ (member ++ rest)).drop n → n = (sort.lead ++ fields).length

/-- The line that is printed for a header. -/
def Header.text (h : Header) : List Char := h.sort.lead ++ h.fields ++ memberMark ++ (h.member ++ h.rest)

/-- A line of a stream as the monitor prints it. -/
inductive Printed (line : List Char) : Prop
  /-- It is a header. -/
  | header (h : Header) : line = h.text → Printed line
  /-- It starts a reply, which names no member. -/
  | reply : Opens line → ¬ memberMark <:+: line → Printed line
  /-- It is an argument. -/
  | argument : ¬ Opens line → Printed line

/-- A line is the header of the signal of a member. -/
def Names (m : Member) (line : List Char) : Prop := ∃ h : Header, line = h.text ∧ h.sort = .signal ∧ h.member = m.name

/-- A line is an argument other than a truth value. -/
def Plain (line : List Char) : Prop := ¬ Opens line ∧ ∀ b, ¬ Tells b line

/-- Line `j` is the header of the signal of a member and line `i` its truth value. -/
structure Due (lines : List (List Char)) (j i : Nat) (m : Member) (b : Bool) : Prop where
  /-- The header comes first. -/
  lt : j < i
  /-- It is that of the signal. -/
  signal : At lines j (Names m)
  /-- Between them are arguments. -/
  arguments : ∀ n, j < n → n < i → At lines n Plain
  /-- The truth value is the first among the arguments. -/
  truth : At lines i (Tells b)

/-! ### What the reader takes for a header -/

/-- The reader takes a line for the header of a member. -/
inductive TakenFor (m : Member) (line : List Char) : Prop
  /-- It is a header, of any sort, and the name of its member begins with that of this one. -/
  | header (h : Header) : line = h.text → m.name <+: h.member → TakenFor m line
  /-- It is an argument with the mark of the member in it. -/
  | argument : ¬ Opens line → Marked m line → (m = .shutdown → ¬ Marked .sleep line) → TakenFor m line

/-- The reader takes line `j` for the header of a member, and line `i` is the next truth value. -/
structure Taken (lines : List (List Char)) (j i : Nat) (m : Member) (b : Bool) : Prop where
  /-- The header comes first. -/
  lt : j < i
  /-- It is taken for that of the member. -/
  header : At lines j (TakenFor m)
  /-- Between them are arguments, none of which is taken for a header. -/
  arguments : ∀ n, j < n → n < i → At lines n fun line => Plain line ∧ ∀ m, ¬ Marked m line
  /-- The truth value. -/
  truth : At lines i (Tells b)

/-- Line `j` belongs to the signal of a member: it is its header, or one of its arguments in front of the truth
value. -/
def Belongs (lines : List (List Char)) (j : Nat) (m : Member) : Prop :=
  ∃ j' ≤ j, At lines j' (Names m) ∧ ∀ n, j' < n → n ≤ j → At lines n Plain

theorem MessageSort.head_lead (sort : MessageSort) : ∀ c ∈ sort.lead.head?, isBlank c = false := by
  intro c hc
  cases sort with
  | signal =>
    cases hc
    rfl
  | method =>
    cases hc
    rfl

theorem Member.mark_visible (m : Member) : m.mark.any isBlank = false := by
  cases m <;> decide

theorem Member.name_word (m : Member) : m.name.all isWordChar = true := by
  cases m <;> decide

theorem marked_iff : Marked m line ↔ m.mark <:+: line := by
  rw [Marked]
  refine infix_trim_iff fun c hc => ?_
  exact Bool.eq_false_iff.2 (List.any_eq_false.1 m.mark_visible c hc)

theorem Marked.memberMark (h : Marked m line) : memberMark <:+: line := by
  have hmark := marked_iff.1 h
  rw [Member.mark_eq] at hmark
  exact (List.prefix_append _ m.name).isInfix.trans hmark

/-- A word that stands at the start of another one with something else behind it is the start of the other one. -/
theorem prefix_of_word {name member rest : List Char} (h : name <+: member ++ rest)
    (hname : ∀ c ∈ name, isWordChar c = true) (hrest : ∀ c ∈ rest.head?, isWordChar c = false) : name <+: member := by
  rcases List.prefix_or_prefix_of_prefix h (List.prefix_append member rest) with hshort | ⟨more, hmore⟩
  · exact hshort
  cases more with
  | nil =>
    rw [List.append_nil] at hmore
    exact hmore ▸ List.prefix_rfl
  | cons c more =>
    -- the name would go on behind the member
    rw [← hmore, List.prefix_append_right_inj] at h
    obtain ⟨behind, hbehind⟩ := h
    have hword := hname c (hmore ▸ List.mem_append_right member List.mem_cons_self)
    rw [hrest c (hbehind ▸ rfl)] at hword
    cases hword

namespace Header

variable (h : Header)

/-- What stands behind a mark of a member is the member of the header, and what follows that. -/
theorem behind_mark {before behind : List Char} (hcut : h.text = before ++ (memberMark ++ behind)) :
    h.member ++ h.rest = behind := by
  have hmark : memberMark <+: h.text.drop before.length := by
    rw [hcut, List.drop_left]
    exact List.prefix_append _ _
  have hlt : before.length < h.text.length := by
    rw [hcut, List.length_append]
    exact Nat.lt_add_of_pos_right (List.length_pos_of_ne_nil (List.append_ne_nil_of_left_ne_nil (by decide) _))
  have hlength := h.once before.length hlt hmark
  rw [text, List.append_assoc] at hcut
  exact List.append_cancel_left (List.append_inj hcut hlength.symm).2

/-- A header has the mark of a member exactly if the name of its own member begins with that of this one. -/
theorem marked_iff : Marked m h.text ↔ m.name <+: h.member := by
  rw [Power.marked_iff, Member.mark_eq]
  constructor
  · rintro ⟨before, behind, heq⟩
    rw [List.append_assoc, List.append_assoc] at heq
    exact prefix_of_word ⟨behind, (h.behind_mark heq.symm).symm⟩ (List.all_eq_true.1 m.name_word) h.ends
  · rintro ⟨more, hmore⟩
    refine ⟨h.sort.lead ++ h.fields, more ++ h.rest, ?_⟩
    rw [text, ← hmore]
    simp only [List.append_assoc]

/-- A line names one member. -/
theorem member_unique {h' : Header} (heq : h.text = h'.text) : h.member = h'.member := by
  have hcut : h.text = (h'.sort.lead ++ h'.fields) ++ (memberMark ++ (h'.member ++ h'.rest)) := by
    rw [heq, text, List.append_assoc]
  have hbehind := h.behind_mark hcut
  have hle : h.member <+: h'.member := prefix_of_word ⟨h.rest, hbehind⟩ h.word.2 h'.ends
  have hge : h'.member <+: h.member := prefix_of_word ⟨h'.rest, hbehind.symm⟩ h'.word.2 h.ends
  exact hle.eq_of_length_le hge.length_le

theorem opens : Opens h.text := by
  have hmember : 'm' ∈ h.fields ++ memberMark ++ (h.member ++ h.rest) :=
    List.mem_append_left _ (List.mem_append_right _ (by decide))
  have hline : h.text = h.sort.lead ++ (h.fields ++ memberMark ++ (h.member ++ h.rest)) := by
    simp only [text, List.append_assoc]
  have hlead : h.sort.lead <+: trim h.text := by
    rw [hline]
    exact prefix_trim_append h.sort.head_lead hmember (by decide)
  cases hsort : h.sort with
  | signal =>
    rw [hsort] at hlead
    exact .inl hlead
  | method =>
    rw [hsort] at hlead
    exact .inr hlead

/-- No member begins with both names. -/
theorem not_marked_both (hshutdown : Marked .shutdown h.text) : ¬ Marked .sleep h.text := by
  intro hsleep
  rcases List.prefix_or_prefix_of_prefix (h.marked_iff.1 hsleep) (h.marked_iff.1 hshutdown) with hpre | hpre
  · exact absurd hpre (by decide)
  · exact absurd hpre (by decide)

end Header

/-! ### Classes of printed lines -/

theorem classed_header_iff :
    Classed line (.header (some m)) ↔ Marked m line ∧ (m = .shutdown → ¬ Marked .sleep line) := by
  constructor
  · intro h
    cases h with
    | sleep hmark => exact ⟨hmark, fun heq => by cases heq⟩
    | shutdown hsleep hmark => exact ⟨hmark, fun _ => hsleep⟩
  · rintro ⟨hmark, hsleep⟩
    cases m with
    | sleep => exact .sleep hmark
    | shutdown => exact .shutdown (hsleep rfl) hmark

theorem Printed.classed_iff (h : Printed line) : Classed line (.header (some m)) ↔ TakenFor m line := by
  rw [classed_header_iff]
  constructor
  · rintro ⟨hmark, hsleep⟩
    cases h with
    | header head heq => exact .header head heq (head.marked_iff.1 (heq ▸ hmark))
    | reply _ hnone => exact absurd hmark.memberMark hnone
    | argument hopens => exact .argument hopens hmark hsleep
  · intro htaken
    cases htaken with
    | header head heq hname =>
      subst heq
      refine ⟨head.marked_iff.2 hname, ?_⟩
      rintro rfl
      exact head.not_marked_both (head.marked_iff.2 hname)
    | argument _ hmark hsleep => exact ⟨hmark, hsleep⟩

/-- A line that spells a truth value has no mark and starts no message. -/
theorem Tells.plain (h : Tells b line) : (∀ m, ¬ Marked m line) ∧ ¬ Opens line := by
  obtain ⟨rest, hline, hrest⟩ := h
  constructor
  · intro m hmark
    have hletter : 'P' ∈ trim line := hmark.subset (by cases m <;> decide)
    obtain ⟨front, behind, heq, hfront, hbehind⟩ := exists_trim rest
    rw [hline, heq, hrest] at hletter
    simp only [List.mem_append] at hletter
    rcases hletter with hletter | (hletter | hletter) | hletter
    · exact absurd hletter (by decide)
    · exact absurd (hfront _ hletter) (by decide)
    · cases b <;> exact absurd hletter (by decide)
    · exact absurd (hbehind _ hletter) (by decide)
  · rw [Opens, hline]
    rintro (hlead | hlead)
    · exact absurd (List.cons_prefix_cons.1 hlead).1 (by decide)
    · exact absurd (List.cons_prefix_cons.1 hlead).1 (by decide)

theorem classed_boolean_iff : Classed line (.boolean b) ↔ Tells b line := by
  constructor
  · intro h
    cases h with
    | boolean _ _ htells => exact htells
  · intro h
    exact .boolean h.plain.1 h.plain.2 h

theorem classed_noise_iff : Classed line .noise ↔ Plain line ∧ ∀ m, ¬ Marked m line := by
  constructor
  · intro h
    cases h with
    | noise hmarks hopens htells => exact ⟨⟨hopens, htells⟩, hmarks⟩
  · rintro ⟨⟨hopens, htells⟩, hmarks⟩
    exact .noise hmarks hopens htells

theorem answers_iff (hprinted : ∀ line ∈ lines, Printed line) : Answers lines j i m b ↔ Taken lines j i m b := by
  have hheader : KindAt lines j (.header (some m)) ↔ At lines j (TakenFor m) := by
    refine exists_congr fun line => and_congr_right fun hline => ?_
    exact (hprinted line (List.mem_of_getElem? hline)).classed_iff
  have hnoise : ∀ n, KindAt lines n .noise ↔ At lines n fun line => Plain line ∧ ∀ m, ¬ Marked m line :=
    fun n => exists_congr fun line => and_congr_right fun _ => classed_noise_iff
  have htruth : KindAt lines i (.boolean b) ↔ At lines i (Tells b) :=
    exists_congr fun line => and_congr_right fun _ => classed_boolean_iff
  constructor
  · rintro ⟨⟨hlt, hhead, hbetween⟩, hlast⟩
    exact ⟨hlt, hheader.1 hhead, fun n hn hni => (hnoise n).1 (hbetween n hn hni), htruth.1 hlast⟩
  · rintro ⟨hlt, hhead, hbetween, hlast⟩
    exact ⟨⟨hlt, hheader.2 hhead, fun n hn hni => (hnoise n).2 (hbetween n hn hni)⟩, htruth.2 hlast⟩

/-! ### Whose truth value it is -/

theorem At.mono {P Q : List Char → Prop} (h : At lines i P) (himp : ∀ line ∈ lines, P line → Q line) :
    At lines i Q := by
  obtain ⟨line, hline, hP⟩ := h
  exact ⟨line, hline, himp line (List.mem_of_getElem? hline) hP⟩

theorem At.unique {P Q : List Char → Prop} (h : At lines i P) (h' : At lines i Q) : ∃ line, P line ∧ Q line := by
  obtain ⟨line, hline, hP⟩ := h
  obtain ⟨line', hline', hQ⟩ := h'
  obtain rfl := Option.some.inj (hline.symm.trans hline')
  exact ⟨line, hP, hQ⟩

/-- A truth value is no other argument. -/
theorem Due.not_plain (h : Due lines j i m b) : ¬ At lines i Plain := by
  intro hplain
  obtain ⟨line, hnot, htells⟩ := hplain.unique h.truth
  exact hnot.2 b htells

/-- A signal has one truth value at most. -/
theorem Due.unique (h : Due lines j i m b) (h' : Due lines j i' m' b') : i = i' :=
  end_unique h.lt h.arguments h.not_plain h'.lt h'.arguments h'.not_plain

theorem Names.opens (h : Names m line) : Opens line := by
  obtain ⟨header, rfl, -, -⟩ := h
  exact header.opens

theorem Names.takenFor (h : Names m line) : TakenFor m line := by
  obtain ⟨header, heq, -, hname⟩ := h
  exact .header header heq (hname ▸ List.prefix_rfl)

theorem Announces.unique (h : Announces m b e) (h' : Announces m' b' e) : m = m' ∧ b = b' := by
  cases h <;> cases h' <;> exact ⟨rfl, rfl⟩

/-- The truth value behind a line that is taken for the header of a member is due to the signal of this member
exactly if the line belongs to it. -/
theorem Taken.due_iff (h : Taken lines j i m b) : (∃ j', Due lines j' i m b) ↔ Belongs lines j m := by
  constructor
  · rintro ⟨j', hdue⟩
    have hle : j' ≤ j := by
      by_contra hgt
      obtain ⟨line, hplain, hnames⟩ := (h.arguments j' (Nat.lt_of_not_le hgt) hdue.lt).unique hdue.signal
      exact hplain.1.1 hnames.opens
    exact ⟨j', hle, hdue.signal, fun n hn hnj => hdue.arguments n hn (Nat.lt_of_le_of_lt hnj h.lt)⟩
  · rintro ⟨j', hle, hsignal, harguments⟩
    refine ⟨j', Nat.lt_of_le_of_lt hle h.lt, hsignal, fun n hn hni => ?_, h.truth⟩
    rcases Nat.lt_or_ge j n with hlt | hge
    · exact (h.arguments n hlt hni).mono fun _ _ hplain => hplain.1
    · exact harguments n hn hge

/-- Where only the headers of the two signals are taken for such, a truth value is taken for that of a signal exactly
if it is due to it. -/
theorem taken_iff_due (honly : ∀ line ∈ lines, ∀ m, TakenFor m line → Names m line) :
    Taken lines j i m b ↔ Due lines j i m b := by
  constructor
  · rintro ⟨hlt, hheader, harguments, htruth⟩
    exact ⟨hlt, hheader.mono fun line hmem => honly line hmem m,
      fun n hn hni => (harguments n hn hni).mono fun _ _ hplain => hplain.1, htruth⟩
  · rintro ⟨hlt, hsignal, harguments, htruth⟩
    refine ⟨hlt, hsignal.mono fun _ _ => Names.takenFor, fun n hn hni => ?_, htruth⟩
    refine (harguments n hn hni).mono fun line hmem hplain => ⟨hplain, fun m' hmark => ?_⟩
    -- an argument with a mark would be taken for a header, and that of a signal starts a message
    by_cases hsleep : Marked .sleep line
    · exact hplain.1 (honly line hmem .sleep (.argument hplain.1 hsleep fun heq => by cases heq)).opens
    · exact hplain.1 (honly line hmem m' (.argument hplain.1 hmark fun _ => hsleep)).opens

/-- From a printed stream a fresh reader makes an event of each truth value whose last header, as far as the reader
takes lines for headers, is that of a member: one whose name begins with that of the member, of a signal or a call, or
an argument with the mark of the member in it. A signal has one truth value at most that is due to it. The events are
all for the two signals and their own truth values exactly if each of these lines belongs to the signal of its member;
and if none but the headers of the two signals are such lines, then the events are those that are due. -/
theorem events_of_signals_iff (hprinted : ∀ line ∈ lines, Printed line) :
    (∀ i e, (feedAll none lines)[i]? = some (some e) ↔ ∃ j m b, Taken lines j i m b ∧ Announces m b e) ∧
      (∀ j i i' m m' b b', Due lines j i m b → Due lines j i' m' b' → i = i') ∧
      ((∀ i e, (feedAll none lines)[i]? = some (some e) → ∃ j m b, Due lines j i m b ∧ Announces m b e) ↔
        ∀ j i m b, Taken lines j i m b → Belongs lines j m) ∧
      ((∀ line ∈ lines, ∀ m, TakenFor m line → Names m line) →
        ∀ i e, (feedAll none lines)[i]? = some (some e) ↔ ∃ j m b, Due lines j i m b ∧ Announces m b e) := by
  have hevents : ∀ i e, (feedAll none lines)[i]? = some (some e) ↔
      ∃ j m b, Taken lines j i m b ∧ Announces m b e := by
    intro i e
    simp only [feedAll_eq_some_iff, answers_iff hprinted]
  refine ⟨hevents, fun j i i' m m' b b' h h' => h.unique h', ?_, fun honly i e => ?_⟩
  · constructor
    · intro hdue j i m b htaken
      have hannounces : Announces m b (signalEvent m b) := announces_iff.2 rfl
      obtain ⟨j', m', b', hdue', hannounces'⟩ := hdue i _ ((hevents i _).2 ⟨j, m, b, htaken, hannounces⟩)
      obtain ⟨rfl, rfl⟩ := hannounces.unique hannounces'
      exact htaken.due_iff.1 ⟨j', hdue'⟩
    · intro hbelongs i e hevent
      obtain ⟨j, m, b, htaken, hannounces⟩ := (hevents i e).1 hevent
      obtain ⟨j', hdue⟩ := htaken.due_iff.2 (hbelongs j i m b htaken)
      exact ⟨j', m, b, hdue, hannounces⟩
  · simp only [hevents, taken_iff_due honly]

/-- The header of the signal that announces a shutdown with some details. -/
def metadataHeader : Header where
  sort := .signal
  fields := "sender=:1.3 path=/org/freedesktop/login1; ".toList
  member := "PrepareForShutdownWithMetadata".toList
  rest := []
  word := ⟨by decide, List.all_eq_true.1 (by decide)⟩
  ends := fun _ hc => by cases hc
  once := by decide +kernel

/-- The truth value of this signal gives an event, though no signal of the two has been printed. -/
theorem shutdown_with_metadata :
    (∀ line ∈ [metadataHeader.text, "   boolean true".toList], Printed line) ∧
      (feedAll none [metadataHeader.text, "   boolean true".toList])[1]? = some (some ⟨.shutdown, true⟩) ∧
      ¬ ∀ i e, (feedAll none [metadataHeader.text, "   boolean true".toList])[i]? = some (some e) →
        ∃ j m b, Due [metadataHeader.text, "   boolean true".toList] j i m b ∧ Announces m b e := by
  have htells : Tells true "   boolean true".toList := ⟨"true".toList, by decide, by decide⟩
  have hprinted : ∀ line ∈ [metadataHeader.text, "   boolean true".toList], Printed line := by
    intro line hline
    simp only [List.mem_cons, List.not_mem_nil, or_false] at hline
    rcases hline with rfl | rfl
    · exact .header metadataHeader rfl
    · exact .argument htells.plain.2
  have htaken : Taken [metadataHeader.text, "   boolean true".toList] 0 1 .shutdown true :=
    ⟨Nat.zero_lt_one, ⟨_, rfl, .header metadataHeader rfl (by decide)⟩, fun n hn hni => by omega,
      ⟨_, rfl, htells⟩⟩
  obtain ⟨hevents, -, hdue, -⟩ := events_of_signals_iff hprinted
  refine ⟨hprinted, (hevents 1 _).2 ⟨0, .shutdown, true, htaken, .shutdown true⟩, fun hall => ?_⟩
  obtain ⟨j, hj, ⟨line, hline, h, rfl, -, hname⟩, -⟩ := hdue.1 hall 0 1 .shutdown true htaken
  obtain rfl : j = 0 := Nat.le_zero.1 hj
  have hmember := metadataHeader.member_unique (Option.some.inj hline)
  rw [hname] at hmember
  exact absurd hmember (by decide)

end CecRelay.Power
