import CecRelay.Adapter.KeyLine
import CecRelay.Dispatch.Stage
import CecRelay.Proofs.Text.Numeral
import CecRelay.Proofs.Text.Search

/-!
# What a key line says

A key line is read behind its first marker, that of a press if there is one (`Marked`). The code of the key stands in
brackets, in hexadecimal (`Group`), and a release tells the time that the key was held (`TellsHold`).

The reader looks at the first brackets only. The names of some keys have brackets of their own, `F1 (blue)`; behind
such a name it does not find the code, and the key is lost. It finds the first code in brackets in every other text:
exactly if the first opening bracket belongs to a code, or there is no code (`code_of_line`).

A press and a release differ in the hold time alone, which a press does not have. So a release that tells no time, or
the time zero, is a press for whoever receives it, and its code goes to the key handler a second time
(`release_of_line`).
-/

namespace CecRelay.KeyLine

open Text

variable {line rest s : List Char} {code other : UInt8} {d : UInt32} {k : KeyPress}

/-- What is read of a line: the text behind the first marker of a press, or, without one, of a release. -/
inductive Marked (line rest : List Char) : Prop
  /-- The line tells of a press. -/
  | press {before : List Char} : FirstOf pressMarker line before rest → Marked line rest
  /-- The line tells of a release. -/
  | release {before : List Char} : ¬ pressMarker <:+: line → FirstOf releaseMarker line before rest → Marked line rest

/-- Behind `before` stands a group, brackets around a code in hexadecimal. -/
def Group (s before : List Char) (code : UInt8) : Prop :=
  ∃ inside after, s = before ++ '(' :: (inside ++ ')' :: after) ∧ IsNumeral 16 code.toNat (trim inside)

/-- The first group of a text has this code. -/
def FirstGroup (s : List Char) (code : UInt8) : Prop :=
  ∃ before, Group s before code ∧ ∀ front other, Group s front other → before.length ≤ front.length

/-- Behind its first marker of a duration a text tells, up to its end, a number of milliseconds. -/
def TellsHold (s : List Char) (d : UInt32) : Prop :=
  ∃ before field number, FirstOf durationMarker s before field ∧ trim field = number ++ ['m', 's'] ∧
    IsNumeral 10 d.toNat (trim number)

/-! ### Codes -/

theorem bracketed?_eq_some_iff {inside : List Char} : bracketed? s = some inside ↔
    ∃ before after, s = before ++ '(' :: (inside ++ ')' :: after) ∧ '(' ∉ before ∧ ')' ∉ inside := by
  simp only [bracketed?, Option.bind_eq_bind, Option.bind_eq_some_iff, Prod.exists, cutAt?_eq_some_iff]
  constructor
  · rintro ⟨before, behind, ⟨rfl, hopen⟩, inside', after, ⟨rfl, hclose⟩, heq⟩
    cases heq
    exact ⟨before, after, rfl, hopen, hclose⟩
  · rintro ⟨before, after, rfl, hopen, hclose⟩
    exact ⟨before, _, ⟨rfl, hopen⟩, inside, after, ⟨rfl, hclose⟩, rfl⟩

/-- No numeral has a closing bracket in it, with blanks around it or not. -/
theorem close_not_mem {n : Nat} {inside : List Char} (h : IsNumeral 16 n (trim inside)) : ')' ∉ inside := by
  have hnumeral : ')' ∉ trim inside := by
    intro hmem
    rcases h.of_mem hmem with heq | hdigit
    · exact absurd heq (by decide)
    · exact absurd hdigit (by decide)
  obtain ⟨front, behind, heq, hfront, hbehind⟩ := exists_trim inside
  rw [heq, List.mem_append, List.mem_append]
  rintro ((hmem | hmem) | hmem)
  · exact absurd (hfront _ hmem) (by decide)
  · exact hnumeral hmem
  · exact absurd (hbehind _ hmem) (by decide)

/-- The code that is read is that of a group at the first opening bracket. -/
theorem code?_eq_some_iff : code? s = some code ↔ ∃ before, Group s before code ∧ '(' ∉ before := by
  simp only [code?, Option.bind_eq_bind, Option.bind_eq_some_iff, bracketed?_eq_some_iff, readByte_eq_some_iff]
  constructor
  · rintro ⟨inside, ⟨before, after, heq, hopen, -⟩, hcode⟩
    exact ⟨before, ⟨inside, after, heq, hcode⟩, hopen⟩
  · rintro ⟨before, ⟨inside, after, heq, hcode⟩, hopen⟩
    exact ⟨inside, ⟨before, after, heq, hopen, close_not_mem hcode⟩, hcode⟩

namespace Group

variable {before front : List Char}

/-- A group is where an opening bracket is, and its code can be read from there. -/
theorem code?_drop (h : Group s before code) :
    (s.drop before.length).head? = some '(' ∧ code? (s.drop before.length) = some code := by
  obtain ⟨inside, after, rfl, hcode⟩ := h
  rw [List.drop_left]
  exact ⟨rfl, code?_eq_some_iff.2 ⟨[], ⟨inside, after, rfl, hcode⟩, List.not_mem_nil⟩⟩

/-- In one place stands one code. -/
theorem unique (h : Group s before code) (h' : Group s front other) (hlength : before.length = front.length) :
    code = other := by
  have hcode := h.code?_drop.2
  rw [hlength, h'.code?_drop.2] at hcode
  exact (Option.some.inj hcode).symm

/-- No group stands in front of the first opening bracket. -/
theorem length_le (h : Group s before code) (hopen : '(' ∉ before) (h' : Group s front other) :
    before.length ≤ front.length := by
  obtain ⟨inside, after, heq, -⟩ := h
  obtain ⟨inside', after', heq', -⟩ := h'
  by_contra hlt
  have hbefore : before <+: s := ⟨_, heq.symm⟩
  have hfront : front ++ ['('] <+: s := ⟨inside' ++ ')' :: after', by rw [heq', List.append_assoc]; rfl⟩
  have hless : (front ++ ['(']).length ≤ before.length := by
    rw [List.length_append, List.length_singleton]
    omega
  have hmem := (List.prefix_of_prefix_length_le hfront hbefore hless).subset
  exact hopen (hmem (List.mem_append_right front (List.mem_singleton_self _)))

end Group

/-- Where there is a group there is a first one. -/
theorem exists_firstGroup {before : List Char} (h : Group s before code) : ∃ code, FirstGroup s code := by
  classical
  have hsome : ∃ n front other, Group s front other ∧ front.length = n := ⟨_, before, code, h, rfl⟩
  obtain ⟨front, other, hgroup, hlength⟩ := Nat.find_spec hsome
  refine ⟨other, front, hgroup, fun front' other' hgroup' => ?_⟩
  rw [hlength]
  exact Nat.find_min' hsome ⟨front', other', hgroup', rfl⟩

/-- The code of the first group is read from every text that has no group, or that has one at its first opening
bracket, and from no other. -/
theorem code?_eq_firstGroup_iff : (∀ code, code? s = some code ↔ FirstGroup s code) ↔
    ((∃ before code, Group s before code) → ∃ before code, Group s before code ∧ '(' ∉ before) := by
  constructor
  · rintro hall ⟨before, code, hgroup⟩
    obtain ⟨first, hfirst⟩ := exists_firstGroup hgroup
    obtain ⟨front, hfront, hopen⟩ := code?_eq_some_iff.1 ((hall first).2 hfirst)
    exact ⟨front, first, hfront, hopen⟩
  · intro hopens code
    constructor
    · intro hcode
      obtain ⟨before, hgroup, hopen⟩ := code?_eq_some_iff.1 hcode
      exact ⟨before, hgroup, fun front other h => hgroup.length_le hopen h⟩
    · rintro ⟨before, hgroup, hfirst⟩
      obtain ⟨front, other, hgroup', hopen⟩ := hopens ⟨before, code, hgroup⟩
      have hlength := Nat.le_antisymm (hfirst front other hgroup') (hgroup'.length_le hopen hgroup)
      obtain rfl := hgroup.unique hgroup' hlength
      exact code?_eq_some_iff.2 ⟨front, hgroup', hopen⟩

/-! ### Lines -/

/-- The code of a line is the code of the text behind the marker. -/
theorem Marked.code_read? (h : Marked line rest) : (read? line).map KeyPress.code = code? rest := by
  cases h with
  | @press before hfirst =>
    have hafter : after? pressMarker line = some rest := after?_eq_some_iff.2 ⟨before, hfirst⟩
    simp only [read?, hafter]
    cases code? rest <;> rfl
  | @release before hpress hfirst =>
    have hafter : after? releaseMarker line = some rest := after?_eq_some_iff.2 ⟨before, hfirst⟩
    simp only [read?, after?_eq_none_iff.2 hpress, hafter, Option.bind_eq_bind, Option.bind_some]
    cases code? rest <;> rfl

/-- Behind its marker a key line has the code that stands, in brackets, at the first opening bracket, and is the line
of a key exactly if one does. That is the code of its first group exactly if there is no group, or there is one at the
first opening bracket; else the line has a group and is the line of no key. -/
theorem code_of_line (h : Marked line rest) :
    (∀ code, (read? line).map KeyPress.code = some code ↔ ∃ before, Group rest before code ∧ '(' ∉ before) ∧
      ((∀ code, (read? line).map KeyPress.code = some code ↔ FirstGroup rest code) ↔
        ((∃ before code, Group rest before code) → ∃ before code, Group rest before code ∧ '(' ∉ before)) := by
  rw [h.code_read?]
  exact ⟨fun code => code?_eq_some_iff, code?_eq_firstGroup_iff⟩

/-- The blue key has a name with brackets of its own, and the line of its press is the line of no key. -/
theorem blue_key_unread :
    Marked "key pressed: F1 (blue) (71)".toList "F1 (blue) (71)".toList ∧
      FirstGroup "F1 (blue) (71)".toList 0x71 ∧ read? "key pressed: F1 (blue) (71)".toList = none ∧
      ¬ ∀ code, (read? "key pressed: F1 (blue) (71)".toList).map KeyPress.code = some code ↔
        FirstGroup "F1 (blue) (71)".toList code := by
  have hmarked : Marked "key pressed: F1 (blue) (71)".toList "F1 (blue) (71)".toList := .press (FirstOf.nil_iff.2 rfl)
  have hgroup : Group "F1 (blue) (71)".toList "F1 (blue) ".toList 0x71 :=
    ⟨"71".toList, [], rfl, readByte_eq_some_iff.1 (by decide)⟩
  have hnone : read? "key pressed: F1 (blue) (71)".toList = none := by decide
  have hearlier : ∀ n < 10, ¬ (("F1 (blue) (71)".toList.drop n).head? = some '(' ∧
      (code? ("F1 (blue) (71)".toList.drop n)).isSome = true) := by decide
  obtain ⟨hcode, hfirst⟩ := code_of_line hmarked
  refine ⟨hmarked, ⟨_, hgroup, fun front other h => ?_⟩, hnone, fun hall => ?_⟩
  · by_contra hlt
    obtain ⟨hopen, hread⟩ := h.code?_drop
    exact hearlier front.length (Nat.lt_of_not_le hlt) ⟨hopen, Option.isSome_iff_exists.2 ⟨other, hread⟩⟩
  · obtain ⟨before, code, hopens⟩ := hfirst.1 hall ⟨_, _, hgroup⟩
    have hread := (hcode code).2 ⟨before, hopens⟩
    rw [hnone] at hread
    cases hread

/-! ### Hold times -/

theorem hold?_eq_some_iff : hold? s = some d ↔ TellsHold s d := by
  simp only [hold?, Option.bind_eq_bind, Option.bind_eq_some_iff, after?_eq_some_iff, beforeTail?_eq_some_iff,
    readUInt32_eq_some_iff, TellsHold]
  constructor
  · rintro ⟨field, ⟨before, hfirst⟩, number, hunit, hnumber⟩
    exact ⟨before, field, number, hfirst, hunit, hnumber⟩
  · rintro ⟨before, field, number, hfirst, hunit, hnumber⟩
    exact ⟨field, ⟨before, hfirst⟩, number, hunit, hnumber⟩

/-- The key of a line without a marker of a press: the code behind the marker of a release, and the hold time, or
zero if none can be read. -/
theorem read?_release (hpress : ¬ pressMarker <:+: line) (hread : read? line = some k) :
    ∃ before rest, FirstOf releaseMarker line before rest ∧ code? rest = some k.code ∧
      k.holdMillis = (hold? rest).getD 0 := by
  simp only [read?, after?_eq_none_iff.2 hpress, Option.bind_eq_bind, Option.bind_eq_some_iff,
    after?_eq_some_iff] at hread
  obtain ⟨rest, ⟨before, hfirst⟩, code, hcode, heq⟩ := hread
  cases heq
  exact ⟨before, rest, hfirst, hcode, rfl⟩

theorem getD_hold?_ne_zero_iff : (hold? s).getD 0 ≠ 0 ↔ ∃ d, TellsHold s d ∧ d ≠ 0 := by
  simp only [← hold?_eq_some_iff]
  cases hold? s <;> simp

theorem isRelease_iff : k.isRelease = true ↔ k.holdMillis ≠ 0 := by
  rw [KeyPress.isRelease, bne_iff_ne]

/-- A line without a marker of a press is read as a key by its marker of a release. The key has the hold time that the
text behind the marker tells, and none if it tells none. It is a release exactly if the text tells a time other than
zero: exactly then the relay does not pass its code on to the key handler, and otherwise it passes the code on as that
of a press. -/
theorem release_of_line (hpress : ¬ pressMarker <:+: line) (hread : read? line = some k) :
    ∃ before rest, FirstOf releaseMarker line before rest ∧
      (∀ d, TellsHold rest d → k.holdMillis = d) ∧ ((∀ d, ¬ TellsHold rest d) → k.holdMillis = 0) ∧
      (k.isRelease = true ↔ ∃ d, TellsHold rest d ∧ d ≠ 0) ∧
      ∀ (σ : Type) (r : Relay σ) (live : Live),
        ((r.takeKey k live).pressed = r.pressed ↔ ∃ d, TellsHold rest d ∧ d ≠ 0) ∧
        ((¬ ∃ d, TellsHold rest d ∧ d ≠ 0) → (r.takeKey k live).pressed = r.pressed ++ [k.code]) := by
  obtain ⟨before, rest, hfirst, -, hhold⟩ := read?_release hpress hread
  have hrelease : k.isRelease = true ↔ ∃ d, TellsHold rest d ∧ d ≠ 0 := by
    rw [isRelease_iff, hhold, getD_hold?_ne_zero_iff]
  refine ⟨before, rest, hfirst, fun d htells => ?_, fun hnone => ?_, hrelease, fun σ r live => ?_⟩
  · rw [hhold, hold?_eq_some_iff.2 htells, Option.getD_some]
  · cases htells : hold? rest with
    | none => rw [hhold, htells, Option.getD_none]
    | some d => exact absurd (hold?_eq_some_iff.1 htells) (hnone d)
  · rw [← hrelease]
    by_cases hk : k.isRelease = true
    · simp [Relay.takeKey, Relay.codesOf, hk]
    · simp [Relay.takeKey, Relay.codesOf, hk]

/-- The time of a release with something behind it is not read: the release is taken for a press, and the code is
passed on. -/
theorem release_with_trailing_text :
    ¬ pressMarker <:+: "key released: up (1) D:120ms current(ff)".toList ∧
      read? "key released: up (1) D:120ms current(ff)".toList = some ⟨1, 0⟩ ∧
      (⟨1, 0⟩ : KeyPress).isRelease = false ∧
      ∀ (σ : Type) (r : Relay σ) (live : Live), (r.takeKey ⟨1, 0⟩ live).pressed = r.pressed ++ [1] := by
  have hpress : ¬ pressMarker <:+: "key released: up (1) D:120ms current(ff)".toList := by
    rw [← holds_iff]
    decide
  have hread : read? "key released: up (1) D:120ms current(ff)".toList = some ⟨1, 0⟩ := by decide
  obtain ⟨before, rest, -, -, -, hrelease, hpassed⟩ := release_of_line hpress hread
  have hnone : ¬ ∃ d, TellsHold rest d ∧ d ≠ 0 := fun hsome => absurd (hrelease.2 hsome) (by decide)
  exact ⟨hpress, hread, rfl, fun σ r live => (hpassed σ r live).2 hnone⟩

end CecRelay.KeyLine
