import CecRelay.Text.Numeral
import Mathlib.Data.Nat.Digits.Defs
import Mathlib.Tactic.IntervalCases
import Mathlib.Tactic.Ring

/-!
# Numerals and their values

The digits of a text have a value: the last of them counts once, and each of the others as often more as the radix
says (`Figures`). A numeral is such a text, with or without a plus sign in front (`IsNumeral`). The reader of unsigned
numbers takes exactly the numerals for numbers up to its bound (`readNumeral_eq_ok_iff`): it stops at the first digit
that passes the bound, but then the whole text passes it too. What is written in hexadecimal is a numeral for the number
that is written (`figures_hex`).
-/

namespace CecRelay.Text

variable {radix max n : Nat} {s : List Char} {ds : List Nat}

/-- A text is made of digits with these values. -/
def Digits (radix : Nat) (s : List Char) (ds : List Nat) : Prop := s.map (digitValue? radix) = ds.map some

/-- A text is made of digits, at least one, that have this value together. -/
def Figures (radix n : Nat) (s : List Char) : Prop :=
  s ≠ [] ∧ ∃ ds, Digits radix s ds ∧ Nat.ofDigits radix ds.reverse = n

/-- A text is a numeral for a number. -/
def IsNumeral (radix n : Nat) (s : List Char) : Prop :=
  Figures radix n s ∨ ∃ figures, s = '+' :: figures ∧ Figures radix n figures

/-! ### Digits -/

theorem Digits.nil_iff : Digits radix [] ds ↔ ds = [] := by
  rw [Digits, List.map_nil, eq_comm, List.map_eq_nil_iff]

theorem Digits.cons_iff {c : Char} :
    Digits radix (c :: s) ds ↔ ∃ d rest, digitValue? radix c = some d ∧ Digits radix s rest ∧ ds = d :: rest := by
  rw [Digits, List.map_cons, eq_comm, List.map_eq_cons_iff]
  constructor
  · rintro ⟨d, rest, rfl, hd, hrest⟩
    exact ⟨d, rest, hd.symm, hrest.symm, rfl⟩
  · rintro ⟨d, rest, hd, hrest, rfl⟩
    exact ⟨d, rest, rfl, hd.symm, hrest.symm⟩

theorem lt_of_digitValue? {c : Char} {d : Nat} (h : digitValue? radix c = some d) : d < radix := by
  simp only [digitValue?, Option.ite_none_right_eq_some, Option.some.injEq] at h
  obtain ⟨hless, rfl⟩ := h
  exact hless

/-- A sign is no digit. -/
theorem digitValue?_plus (radix : Nat) : digitValue? radix '+' = none := by
  simp [digitValue?]

/-- All characters of figures are digits. -/
theorem Figures.isSome_of_mem {c : Char} (h : Figures radix n s) (hc : c ∈ s) :
    (digitValue? radix c).isSome = true := by
  obtain ⟨-, ds, hds, -⟩ := h
  have hdigit : digitValue? radix c ∈ ds.map some := hds ▸ List.mem_map_of_mem hc
  obtain ⟨d, -, hd⟩ := List.mem_map.1 hdigit
  rw [← hd, Option.isSome_some]

theorem not_figures_plus : ¬ Figures radix n ('+' :: s) := by
  intro h
  have hdigit := h.isSome_of_mem List.mem_cons_self
  rw [digitValue?_plus] at hdigit
  cases hdigit

/-- A digit in front counts more by a power of the radix. -/
theorem ofDigits_reverse_cons (radix d : Nat) (ds : List Nat) :
    Nat.ofDigits radix (d :: ds).reverse = d * radix ^ ds.length + Nat.ofDigits radix ds.reverse := by
  rw [List.reverse_cons, Nat.ofDigits_append, Nat.ofDigits_singleton, List.length_reverse]
  ring

/-- All characters of a numeral are digits but for the sign. -/
theorem IsNumeral.of_mem {c : Char} (h : IsNumeral radix n s) (hc : c ∈ s) :
    c = '+' ∨ (digitValue? radix c).isSome = true := by
  rcases h with h | ⟨figures, rfl, h⟩
  · exact .inr (h.isSome_of_mem hc)
  · exact (List.mem_cons.1 hc).imp id h.isSome_of_mem

/-! ### Figures put together -/

/-- A letter has the same value in either case. -/
theorem digitValue?_toLower (radix : Nat) (c : Char) : digitValue? radix c.toLower = digitValue? radix c := by
  by_cases hc : 'A' ≤ c ∧ c ≤ 'Z'
  · obtain ⟨n, hn⟩ : ∃ n, c.toNat = n := ⟨_, rfl⟩
    have hback : c = Char.ofNat n := by rw [← hn, Char.ofNat_toNat]
    have hlow : 65 ≤ n := hn ▸ hc.1
    have hhigh : n ≤ 90 := hn ▸ hc.2
    subst hback
    interval_cases n <;> rfl
  · have hsame : c.toLower = c := dif_neg hc
    rw [hsame]

/-- A digit behind figures counts once, and they count more by the radix. -/
theorem Figures.concat {c : Char} {d : Nat} (h : Figures radix n s) (hc : digitValue? radix c = some d) :
    Figures radix (n * radix + d) (s ++ [c]) := by
  obtain ⟨-, ds, hds, rfl⟩ := h
  refine ⟨List.append_ne_nil_of_right_ne_nil s (List.cons_ne_nil c []), ds ++ [d], ?_, ?_⟩
  · rw [Digits, List.map_append, List.map_append, hds, List.map_singleton, List.map_singleton, hc]
  · rw [List.reverse_append, List.reverse_singleton, List.singleton_append, Nat.ofDigits_cons]
    ring

theorem Figures.singleton {c : Char} (hc : digitValue? radix c = some n) : Figures radix n [c] :=
  ⟨List.cons_ne_nil c [], [n], Digits.cons_iff.2 ⟨n, [], hc, Digits.nil_iff.2 rfl, rfl⟩, by simp⟩

/-- Zeros in front do not count. -/
theorem Figures.zeros (hradix : 0 < radix) (h : Figures radix n s) (k : Nat) :
    Figures radix n (List.replicate k '0' ++ s) := by
  induction k with
  | zero => exact h
  | succ k ih =>
    obtain ⟨-, ds, hds, hn⟩ := ih
    have hzero : digitValue? radix '0' = some 0 := by
      rw [digitValue?]
      exact if_pos hradix
    refine ⟨List.cons_ne_nil _ _, 0 :: ds, Digits.cons_iff.2 ⟨0, ds, hzero, hds, rfl⟩, ?_⟩
    rw [ofDigits_reverse_cons, Nat.zero_mul, Nat.zero_add, hn]

/-- The case of letters makes no difference. -/
theorem Figures.toLower_iff : Figures radix n (s.map Char.toLower) ↔ Figures radix n s := by
  have hcase : digitValue? radix ∘ Char.toLower = digitValue? radix := funext (digitValue?_toLower radix)
  rw [Figures, Figures, ne_eq, List.map_eq_nil_iff]
  simp only [Digits, List.map_map, hcase, ne_eq]

/-- A number written in hexadecimal has its own value. -/
theorem figures_hex (n : Nat) : Figures 16 n (Nat.toDigits 16 n) := by
  have hdigit : ∀ d < 16, digitValue? 16 (Nat.digitChar d) = some d := by decide
  induction n using Nat.strongRecOn with
  | ind n ih =>
    rcases Nat.lt_or_ge n 16 with hlt | hge
    · rw [Nat.toDigits_of_lt_base hlt]
      exact .singleton (hdigit n hlt)
    · rw [Nat.toDigits_of_base_le (by decide) hge]
      have hwhole := (ih (n / 16) (by omega)).concat (hdigit (n % 16) (Nat.mod_lt n (by decide)))
      rwa [Nat.div_add_mod'] at hwhole

/-! ### Reading -/

/-- Digits are read, after a value that is within the bound, to what they make of it, if that is within the bound. -/
theorem readDigits_eq_ok_iff {value : Nat} (hvalue : value ≤ max) :
    readDigits radix max value s = .ok n ↔
      n ≤ max ∧ ∃ ds, Digits radix s ds ∧ value * radix ^ ds.length + Nat.ofDigits radix ds.reverse = n := by
  induction s generalizing value with
  | nil =>
    simp only [readDigits, Except.ok.injEq, Digits.nil_iff]
    constructor
    · rintro rfl
      exact ⟨hvalue, [], rfl, by simp⟩
    · rintro ⟨-, ds, rfl, rfl⟩
      simp
  | cons c s ih =>
    cases hc : digitValue? radix c with
    | none => simp [readDigits, hc, Digits.cons_iff]
    | some d =>
      have hone : ∀ ds, value * radix ^ (d :: ds).length + Nat.ofDigits radix (d :: ds).reverse =
          (value * radix + d) * radix ^ ds.length + Nat.ofDigits radix ds.reverse := by
        intro ds
        rw [ofDigits_reverse_cons, List.length_cons, Nat.pow_succ]
        ring
      have hdigits : (∃ ds, Digits radix (c :: s) ds ∧
            value * radix ^ ds.length + Nat.ofDigits radix ds.reverse = n) ↔
          ∃ ds, Digits radix s ds ∧ (value * radix + d) * radix ^ ds.length + Nat.ofDigits radix ds.reverse = n := by
        constructor
        · rintro ⟨ds, hds, rfl⟩
          obtain ⟨d', rest, hd, hrest, rfl⟩ := Digits.cons_iff.1 hds
          obtain rfl := Option.some.inj (hc.symm.trans hd)
          exact ⟨rest, hrest, (hone rest).symm⟩
        · rintro ⟨ds, hds, rfl⟩
          exact ⟨d :: ds, Digits.cons_iff.2 ⟨d, ds, hc, hds, rfl⟩, hone ds⟩
      simp only [readDigits, hc, hdigits]
      by_cases hfits : value * radix + d ≤ max
      · rw [if_pos hfits]
        exact ih hfits
      · rw [if_neg hfits]
        constructor
        · intro h
          cases h
        · rintro ⟨hn, ds, -, rfl⟩
          -- more digits do not bring the value back under the bound
          have hradix : 0 < radix := Nat.zero_lt_of_lt (lt_of_digitValue? hc)
          have hgrows : value * radix + d ≤ (value * radix + d) * radix ^ ds.length :=
            Nat.le_mul_of_pos_right _ (Nat.pow_pos hradix)
          omega

theorem readDigits_zero_iff (hs : s ≠ []) : readDigits radix max 0 s = .ok n ↔ n ≤ max ∧ Figures radix n s := by
  rw [readDigits_eq_ok_iff (Nat.zero_le max), Figures]
  simp [hs]

/-- The numbers that are read are those of numerals, up to the bound. -/
theorem readNumeral_eq_ok_iff : readNumeral radix max s = .ok n ↔ n ≤ max ∧ IsNumeral radix n s := by
  have hnil : ¬ Figures radix n [] := fun h => h.1 rfl
  unfold readNumeral
  split
  · simp [IsNumeral, hnil]
  · have hsign : ¬ Figures radix n ['+'] := not_figures_plus
    simp [IsNumeral, hnil, hsign]
  next figures hmore =>
    have hne : figures ≠ [] := by
      rintro rfl
      exact hmore rfl
    rw [readDigits_zero_iff hne]
    simp [IsNumeral, not_figures_plus]
  next hne _ hsigned =>
    have hnot : ¬ ∃ figures, s = '+' :: figures ∧ Figures radix n figures := by
      rintro ⟨figures, hs, -⟩
      exact hsigned figures hs
    rw [readDigits_zero_iff hne]
    simp [IsNumeral, hnot]

section Words

variable {α : Type} {ofNat : Nat → α} {toNat : α → Nat}

/-- A word of some width is read from the numerals for its value, if the bound is the greatest value of the width. -/
theorem word_eq_some_iff (hfits : ∀ n ≤ max, toNat (ofNat n) = n) (hback : ∀ a, ofNat (toNat a) = a)
    (hbound : ∀ a, toNat a ≤ max) {a : α} :
    ((readNumeral radix max s).map ofNat).toOption = some a ↔ IsNumeral radix (toNat a) s := by
  constructor
  · intro h
    cases hread : readNumeral radix max s with
    | error fault =>
      rw [hread] at h
      cases h
    | ok n =>
      rw [hread] at h
      obtain rfl : ofNat n = a := Option.some.inj h
      obtain ⟨hn, hnumeral⟩ := readNumeral_eq_ok_iff.1 hread
      rwa [hfits n hn]
  · intro h
    rw [readNumeral_eq_ok_iff.2 ⟨hbound a, h⟩]
    exact congrArg some (hback a)

theorem readByte_eq_some_iff {code : UInt8} :
    (readByte radix s).toOption = some code ↔ IsNumeral radix code.toNat s :=
  word_eq_some_iff (fun _ hn => UInt8.toNat_ofNat_of_lt' (Nat.lt_succ_of_le hn)) (fun _ => UInt8.ofNat_toNat)
    fun code => Nat.le_of_lt_succ code.toNat_lt

theorem readUInt16_eq_some_iff {number : UInt16} :
    (readUInt16 s).toOption = some number ↔ IsNumeral 10 number.toNat s :=
  word_eq_some_iff (fun _ hn => UInt16.toNat_ofNat_of_lt' (Nat.lt_succ_of_le hn)) (fun _ => UInt16.ofNat_toNat)
    fun number => Nat.le_of_lt_succ number.toNat_lt

theorem readUInt32_eq_some_iff {number : UInt32} :
    (readUInt32 s).toOption = some number ↔ IsNumeral 10 number.toNat s :=
  word_eq_some_iff (fun _ hn => UInt32.toNat_ofNat_of_lt' (Nat.lt_succ_of_le hn)) (fun _ => UInt32.ofNat_toNat)
    fun number => Nat.le_of_lt_succ number.toNat_lt

end Words

end CecRelay.Text
