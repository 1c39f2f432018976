import CecRelay.Proofs.Adapter.KeyLine
import CecRelay.Proofs.Text.Decimal

/-!
# Reading back the lines of keys

The program that drives the adapter writes a key as its name and, in brackets, its code, behind the marker of a press
or of a release; a release tells the hold time at its end (`pressLine`, `releaseLine`). Whatever stands in front of the
marker, the line is read back to the code and the hold time, unless the name gets in the way.

No marker reaches across the first character of another one, as that character stands nowhere else in a marker
(`FirstOf.of_not_infix`). But there is one more place where a marker can end: the blank between a name and its
brackets. A release of a key whose name ends in the marker of a press, less this blank, is a line of a press, and
without its hold time it is read (`reports_read`).
-/

namespace CecRelay.KeyLine

open Text

variable {before name inside rest s : List Char} {code : UInt8} {d : UInt32} {c : Char}

/-! ### The form of the lines -/

/-- There is no marker in a text. -/
def Unmarked (s : List Char) : Prop := ¬ pressMarker <:+: s ∧ ¬ releaseMarker <:+: s

/-- A text that a key may have as its name. -/
structure IsName (s : List Char) : Prop where
  /-- There is no marker in it. -/
  unmarked : Unmarked s
  /-- Nor an opening bracket. -/
  bracket : '(' ∉ s
  /-- Nor the marker of a duration. -/
  duration : ¬ durationMarker <:+: s

instance : Decidable (Unmarked s) :=
  decidable_of_iff (holds pressMarker s = false ∧ holds releaseMarker s = false) <| by
    rw [Unmarked, ← holds_iff, ← holds_iff, Bool.not_eq_true, Bool.not_eq_true]

instance : Decidable (IsName s) :=
  decidable_of_iff (Unmarked s ∧ '(' ∉ s ∧ holds durationMarker s = false) <| by
    rw [← Bool.not_eq_true, holds_iff]
    exact ⟨fun h => ⟨h.1, h.2.1, h.2.2⟩, fun h => ⟨h.unmarked, h.bracket, h.duration⟩⟩

/-- A code is written in hexadecimal, in either case, with zeros in front and spaces around it or without. -/
def Spells (code : UInt8) (s : List Char) : Prop :=
  ∃ front zeros figures behind,
    s = List.replicate front ' ' ++ (List.replicate zeros '0' ++ figures) ++ List.replicate behind ' ' ∧
      figures.map Char.toLower = Nat.toDigits 16 code.toNat

/-- A name, the brackets and what stands behind them. -/
def named (name inside rest : List Char) : List Char := name ++ ' ' :: '(' :: (inside ++ ')' :: rest)

/-- How a line tells the hold time. -/
def holdField (d : UInt32) : List Char := ' ' :: (durationMarker ++ (Nat.toDigits 10 d.toNat ++ ['m', 's']))

/-- The line of a press, with anything behind the brackets. -/
def pressLine (before name inside rest : List Char) : List Char := before ++ pressMarker ++ named name inside rest

/-- The line of a release. -/
def releaseLine (before name inside : List Char) (d : UInt32) : List Char :=
  before ++ releaseMarker ++ named name inside (holdField d)

/-! ### Codes and hold times -/

theorem Spells.figures (h : Spells code s) : ∃ front figures behind,
    s = List.replicate front ' ' ++ figures ++ List.replicate behind ' ' ∧ Figures 16 code.toNat figures := by
  obtain ⟨front, zeros, figures, behind, hs, hcase⟩ := h
  have hfigures : Figures 16 code.toNat figures := Figures.toLower_iff.1 (hcase ▸ figures_hex code.toNat)
  exact ⟨front, _, behind, hs, hfigures.zeros (by decide) zeros⟩

/-- There are spaces and digits in a code that is written. -/
theorem Spells.of_mem (h : Spells code s) (hc : c ∈ s) : c = ' ' ∨ (digitValue? 16 c).isSome = true := by
  obtain ⟨front, figures, behind, rfl, hfigures⟩ := h.figures
  rcases List.mem_append.1 hc with hc | hc
  · rcases List.mem_append.1 hc with hc | hc
    · exact .inl (List.mem_replicate.1 hc).2
    · exact .inr (hfigures.isSome_of_mem hc)
  · exact .inl (List.mem_replicate.1 hc).2

theorem Spells.isNumeral (h : Spells code s) : IsNumeral 16 code.toNat (trim s) := by
  obtain ⟨front, figures, behind, rfl, hfigures⟩ := h.figures
  have hspace : ∀ {n : Nat}, ∀ e ∈ List.replicate n ' ', isBlank e = true := by
    intro n e he
    rw [(List.mem_replicate.1 he).2]
    rfl
  have hdigit : ∀ e ∈ figures, isBlank e = false := fun e he => isBlank_of_digitValue? (hfigures.isSome_of_mem he)
  rw [trim_append hspace hspace (fun e he => hdigit e (List.mem_of_mem_head? he))
    fun e he => hdigit e (List.mem_of_mem_getLast? he)]
  exact .inl hfigures

/-- The code is read from its brackets if the name has none. -/
theorem code?_named (hname : '(' ∉ name) (h : Spells code inside) : code? (named name inside rest) = some code := by
  refine code?_eq_some_iff.2 ⟨name ++ [' '], ⟨inside, rest, ?_, h.isNumeral⟩, ?_⟩
  · rw [named, List.append_assoc, List.singleton_append]
  · rw [List.mem_append, List.mem_singleton, not_or]
    exact ⟨hname, by decide⟩

/-- The hold time is read from its field if there is no marker of a duration in the name. -/
theorem hold?_named (hname : ¬ durationMarker <:+: name) (h : Spells code inside) :
    hold? (named name inside (holdField d)) = some d := by
  have hnumeral : IsNumeral 10 d.toNat (Nat.toDigits 10 d.toNat) :=
    (readNumeral_eq_ok_iff.1 (readNumeral_toDigits (Nat.le_refl d.toNat))).2
  have hdigit : ∀ e ∈ Nat.toDigits 10 d.toNat, isDigit e = true := fun e he => isDigit_of_mem_toDigits he
  -- no colon stands in front of the field but in the name
  have hfront : ¬ durationMarker <:+: name ++ ' ' :: '(' :: (inside ++ [')', ' ']) := by
    rw [durationMarker, infix_append_cons_iff (by decide)]
    rintro (hin | hin)
    · exact hname hin
    · have hcolon : ':' ∈ '(' :: (inside ++ [')', ' ']) := hin.subset (by decide)
      simp only [List.mem_cons, List.mem_append, List.not_mem_nil, or_false, Char.reduceEq, false_or] at hcolon
      rcases h.of_mem hcolon with heq | hsome
      · exact absurd heq (by decide)
      · exact absurd hsome (by decide)
  refine hold?_eq_some_iff.2 ⟨name ++ ' ' :: '(' :: (inside ++ [')', ' ']), Nat.toDigits 10 d.toNat ++ ['m', 's'],
    Nat.toDigits 10 d.toNat, ?_, ?_, ?_⟩
  · have hfirst := @FirstOf.of_not_infix [':'] _ (Nat.toDigits 10 d.toNat ++ ['m', 's']) 'D' (by decide) hfront
    have hline : named name inside (holdField d) = name ++ ' ' :: '(' :: (inside ++ [')', ' ']) ++ ['D', ':'] ++
        (Nat.toDigits 10 d.toNat ++ ['m', 's']) := by
      simp [named, holdField, durationMarker]
    rw [hline]
    exact hfirst
  · have hplain : ∀ e ∈ Nat.toDigits 10 d.toNat ++ ['m', 's'], isBlank e = false := by
      intro e he
      rcases List.mem_append.1 he with he | he
      · exact isBlank_of_isDigit (hdigit e he)
      · have hunit : e = 'm' ∨ e = 's' := by simpa using he
        rcases hunit with rfl | rfl <;> rfl
    exact trim_of_not_blank hplain
  · rw [trim_of_isDigit hdigit]
    exact hnumeral

/-! ### Markers -/

/-- If there is no marker of a press in front of a marker of a release, there is one in the line exactly if there is one
behind it. -/
theorem infix_behind_release (hbefore : ¬ pressMarker <:+: before) :
    pressMarker <:+: before ++ releaseMarker ++ s ↔ pressMarker <:+: s := by
  have hpress : pressMarker = 'k' :: "ey pressed: ".toList := rfl
  have hrelease : releaseMarker ++ s = 'k' :: ("ey released: ".toList ++ s) := rfl
  have hlead : ¬ pressMarker <+: releaseMarker ++ s := fun h =>
    absurd (List.prefix_of_prefix_length_le h (List.prefix_append releaseMarker s) (by decide)) (by decide)
  rw [hrelease] at hlead
  rw [List.append_assoc, hrelease, hpress, infix_append_cons_self_iff (by decide) (hpress ▸ hbefore), ← hpress,
    List.infix_cons_iff, or_iff_right hlead, hpress, infix_append_iff_of_not_mem (by decide)]

/-- A marker of a press in the line of a release is one that ends in the blank behind the name. -/
theorem infix_releaseLine_iff (hbefore : ¬ pressMarker <:+: before) (hname : ¬ pressMarker <:+: name)
    (h : Spells code inside) : pressMarker <:+: releaseLine before name inside d ↔ "key pressed:".toList <:+ name := by
  have hpress : pressMarker = "key pressed:".toList ++ [' '] := rfl
  -- behind the opening bracket there is no letter of the marker
  have hbehind : ¬ pressMarker <:+: inside ++ ')' :: holdField d := by
    intro hin
    have hk : 'k' ∈ inside ++ ')' :: holdField d := hin.subset (by decide)
    simp only [holdField, durationMarker, List.mem_append, List.mem_cons, List.not_mem_nil, or_false, Char.reduceEq,
      false_or] at hk
    rcases hk with hk | hk
    · rcases h.of_mem hk with heq | hsome
      · exact absurd heq (by decide)
      · exact absurd hsome (by decide)
    · exact absurd (isDigit_of_mem_toDigits hk) (by decide)
  have hsplit : named name inside (holdField d) = name ++ [' '] ++ '(' :: (inside ++ ')' :: holdField d) := by
    rw [named, List.append_assoc, List.singleton_append]
  rw [releaseLine, infix_behind_release hbefore, hsplit, infix_append_cons_iff (by decide), or_iff_left hbehind,
    List.infix_concat_iff, or_iff_left hname, hpress, List.suffix_append_self_iff]

/-! ### Lines -/

theorem read?_of_press (hfirst : FirstOf pressMarker s before rest) (hcode : code? rest = some code) :
    read? s = some ⟨code, 0⟩ := by
  have hafter : after? pressMarker s = some rest := after?_eq_some_iff.2 ⟨before, hfirst⟩
  simp only [read?, hafter, hcode]
  rfl

theorem read?_pressLine (hbefore : Unmarked before) (hname : IsName name) (h : Spells code inside) :
    read? (pressLine before name inside rest) = some ⟨code, 0⟩ :=
  read?_of_press (FirstOf.of_not_infix (c := 'k') (by decide) hbefore.1) (code?_named hname.bracket h)

theorem read?_releaseLine (hbefore : Unmarked before) (hname : IsName name) (h : Spells code inside)
    (hend : ¬ "key pressed:".toList <:+ name) : read? (releaseLine before name inside d) = some ⟨code, d⟩ := by
  have hpress : after? pressMarker (releaseLine before name inside d) = none :=
    after?_eq_none_iff.2 (mt (infix_releaseLine_iff hbefore.1 hname.unmarked.1 h).1 hend)
  have hafter : after? releaseMarker (releaseLine before name inside d) = some (named name inside (holdField d)) :=
    after?_eq_some_iff.2 ⟨before, FirstOf.of_not_infix (c := 'k') (by decide) hbefore.2⟩
  simp only [read?, hpress, hafter, Option.bind_eq_bind, Option.bind_some, code?_named hname.bracket h,
    hold?_named hname.duration h, Option.getD_some, Option.pure_def]

/-- With a name that ends in the marker of a press, less its blank, the line of a release is that of a press. -/
theorem read?_releaseLine_pressed (hbefore : Unmarked before) (hname : IsName name) (h : Spells code inside)
    (hend : "key pressed:".toList <:+ name) : read? (releaseLine before name inside d) = some ⟨code, 0⟩ := by
  obtain ⟨front, rfl⟩ := hend
  have hfront : ¬ pressMarker <:+: before ++ releaseMarker ++ front := by
    rw [infix_behind_release hbefore.1]
    exact fun hin => hname.unmarked.1 (hin.trans (List.prefix_append front _).isInfix)
  have hline : releaseLine before (front ++ "key pressed:".toList) inside d =
      before ++ releaseMarker ++ front ++ pressMarker ++ '(' :: (inside ++ ')' :: holdField d) := by
    have hpress : pressMarker = "key pressed:".toList ++ [' '] := rfl
    rw [releaseLine, named, hpress]
    simp only [List.append_assoc, List.singleton_append]
  have hcode : code? ('(' :: (inside ++ ')' :: holdField d)) = some code :=
    code?_eq_some_iff.2 ⟨[], ⟨inside, holdField d, rfl, h.isNumeral⟩, List.not_mem_nil⟩
  rw [hline]
  exact read?_of_press (FirstOf.of_not_infix (c := 'k') (by decide) hfront) hcode

/-- A line without a marker is the line of no key. The line of a press is read back to the code, and to a hold time of
zero. The line of a release is read back to the code and the hold time, exactly if the hold time is zero or the name
does not end in the marker of a press, less its blank. -/
theorem reports_read :
    (∀ line, Unmarked line → read? line = none) ∧
      ∀ before name inside rest code d, Unmarked before → IsName name → Spells code inside →
        read? (pressLine before name inside rest) = some ⟨code, 0⟩ ∧
        (read? (releaseLine before name inside d) = some ⟨code, d⟩ ↔ d = 0 ∨ ¬ "key pressed:".toList <:+ name) := by
  refine ⟨fun line h => ?_, fun before name inside rest code d hbefore hname h =>
    ⟨read?_pressLine hbefore hname h, ?_⟩⟩
  · simp only [read?, after?_eq_none_iff.2 h.1, after?_eq_none_iff.2 h.2, Option.bind_eq_bind, Option.bind_none]
  · by_cases hend : "key pressed:".toList <:+ name
    · have hzero : read? (releaseLine before name inside d) = some ⟨code, d⟩ ↔ d = 0 := by
        rw [read?_releaseLine_pressed hbefore hname h hend, Option.some.injEq, KeyPress.mk.injEq,
          and_iff_right rfl, eq_comm]
      rw [hzero, or_iff_left (not_not_intro hend)]
    · exact iff_of_true (read?_releaseLine hbefore hname h hend) (.inr hend)

/-- The greatest hold time is read back, with letters of both cases in the code. -/
theorem reports_read_greatest_hold :
    Unmarked "DEBUG: ".toList ∧ IsName "up".toList ∧ Spells 0xab " 0aB".toList ∧
      read? "DEBUG: key released: up ( 0aB) D:4294967295ms".toList = some ⟨0xab, 4294967295⟩ := by
  have hbefore : Unmarked "DEBUG: ".toList := by decide
  have hname : IsName "up".toList := by decide
  have hcode : Spells 0xab " 0aB".toList := ⟨1, 1, "aB".toList, 0, by decide, by decide⟩
  have hend : ¬ "key pressed:".toList <:+ "up".toList := by decide
  have hread := (reports_read.2 _ _ _ [] _ 4294967295 hbefore hname hcode).2.2 (.inr hend)
  exact ⟨hbefore, hname, hcode, hread⟩

/-- A key with the marker of a press, less its blank, as its name: its release is read as a press, without the hold
time. -/
theorem release_read_as_press :
    Unmarked [] ∧ IsName "key pressed:".toList ∧ Spells 1 "1".toList ∧
      releaseLine [] "key pressed:".toList "1".toList 5 = "key released: key pressed: (1) D:5ms".toList ∧
      read? "key released: key pressed: (1) D:5ms".toList = some ⟨1, 0⟩ ∧
      ¬ ∀ before name inside code d, Unmarked before → IsName name → Spells code inside →
        read? (releaseLine before name inside d) = some ⟨code, d⟩ := by
  have hbefore : Unmarked [] := by decide
  have hname : IsName "key pressed:".toList := by decide
  have hcode : Spells 1 "1".toList := ⟨0, 0, "1".toList, 0, by decide, by decide⟩
  have hline : releaseLine [] "key pressed:".toList "1".toList 5 = "key released: key pressed: (1) D:5ms".toList := by
    decide
  have hread : read? "key released: key pressed: (1) D:5ms".toList = some ⟨1, 0⟩ := by decide
  refine ⟨hbefore, hname, hcode, hline, hread, fun hall => ?_⟩
  have hheld := hall _ _ _ _ 5 hbefore hname hcode
  rw [hline, hread] at hheld
  exact absurd hheld (by decide)

end CecRelay.KeyLine
