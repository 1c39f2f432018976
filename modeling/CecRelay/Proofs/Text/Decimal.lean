import CecRelay.Proofs.Text.Ascii
import CecRelay.Proofs.Text.Numeral
import CecRelay.Text.Blank
import Mathlib.Tactic.IntervalCases

/-!
# Decimal digits

A number written in decimal reads back (`decimalValue_toDigits`, `decimalValue_padded`), starts with
no zero unless it is zero, and takes no more digits than its size asks for.
-/

namespace CecRelay.Text

theorem isDigit_eq (c : Char) : isDigit c = c.isDigit := by
  rw [Bool.eq_iff_iff, isDigit_iff, isDigit, Bool.and_eq_true, decide_eq_true_eq, decide_eq_true_eq]
  exact Iff.rfl

theorem isDigit_of_mem_toDigits {n : Nat} {c : Char} (h : c ∈ Nat.toDigits 10 n) : isDigit c = true := by
  rw [isDigit_eq]
  exact Nat.isDigit_of_mem_toDigits (by decide) (by decide) h

theorem isBlank_of_isDigit {c : Char} (h : isDigit c = true) : isBlank c = false := by
  rw [isDigit_eq, isDigit_iff] at h
  simp only [isBlank, Bool.or_eq_false_iff, Bool.and_eq_false_iff, decide_eq_false_iff_not, beq_eq_false_iff_ne]
  omega

/-- A digit of any radix is no blank. -/
theorem isBlank_of_digitValue? {radix : Nat} {c : Char} (h : (digitValue? radix c).isSome = true) :
    isBlank c = false := by
  have hrange : 48 ≤ c.toNat ∧ c.toNat ≤ 122 := by
    by_contra hout
    have hdigit : ¬ ('0' ≤ c ∧ c ≤ '9') := fun hin => hout ⟨hin.1, Nat.le_trans hin.2 (by decide)⟩
    have hlower : ¬ ('a' ≤ c ∧ c ≤ 'z') := fun hin => hout ⟨Nat.le_trans (by decide) hin.1, hin.2⟩
    have hupper : ¬ ('A' ≤ c ∧ c ≤ 'Z') := fun hin =>
      hout ⟨Nat.le_trans (by decide) hin.1, Nat.le_trans hin.2 (by decide)⟩
    rw [digitValue?, if_neg hdigit, if_neg hlower, if_neg hupper, if_neg (Nat.lt_irrefl radix)] at h
    cases h
  simp only [isBlank, Bool.or_eq_false_iff, Bool.and_eq_false_iff, decide_eq_false_iff_not, beq_eq_false_iff_ne]
  omega

/-- There are no blanks in a numeral. -/
theorem IsNumeral.isBlank_of_mem {radix n : Nat} {s : List Char} {c : Char} (h : IsNumeral radix n s) (hc : c ∈ s) :
    isBlank c = false := by
  rcases IsNumeral.of_mem h hc with rfl | hdigit
  · rfl
  · exact isBlank_of_digitValue? hdigit

theorem decimalValue_eq (s : List Char) : decimalValue s = Nat.ofDigitChars 10 s 0 := by
  have hf : (fun (value : Nat) (c : Char) => value * 10 + (c.toNat - '0'.toNat)) =
      fun value c => 10 * value + (c.toNat - '0'.toNat) := by
    funext value c
    rw [Nat.mul_comm]
  rw [decimalValue, hf, Nat.ofDigitChars]

/-- The decimal digits of a number read back. -/
theorem decimalValue_toDigits (n : Nat) : decimalValue (Nat.toDigits 10 n) = n := by
  rw [decimalValue_eq, Nat.ofDigitChars_ten_toDigits]

/-- Only zero starts with a zero. -/
theorem head?_toDigits {n : Nat} (h : 0 < n) : (Nat.toDigits 10 n).head? ≠ some '0' := by
  induction n using Nat.strongRecOn with
  | ind n ih =>
    rcases Nat.lt_or_ge n 10 with hlt | hge
    · rw [Nat.toDigits_of_lt_base hlt]
      interval_cases n <;> decide
    · rw [Nat.toDigits_of_base_le (by decide) hge, List.head?_append_of_ne_nil _ Nat.toDigits_ne_nil]
      exact ih (n / 10) (by omega) (by omega)

theorem length_toDigits_le {n k : Nat} (hk : 0 < k) (h : n < 10 ^ k) :
    (Nat.toDigits 10 n).length ≤ k := (Nat.length_toDigits_le_iff (by decide) hk).2 h

/-! ### Padded numbers -/

theorem toList_padded (width n : Nat) : (padded width n).toList =
    List.replicate (width - (Nat.toDigits 10 n).length) '0' ++ Nat.toDigits 10 n := by
  rw [padded, String.toList_ofList]

theorem isDigit_of_mem_padded {width n : Nat} {c : Char} (h : c ∈ (padded width n).toList) :
    isDigit c = true := by
  rw [toList_padded] at h
  rcases List.mem_append.1 h with h | h
  · rw [(List.mem_replicate.1 h).2]
    rfl
  · exact isDigit_of_mem_toDigits h

theorem length_padded {width n : Nat} (hw : 0 < width) (h : n < 10 ^ width) :
    (padded width n).toList.length = width := by
  have := length_toDigits_le hw h
  rw [toList_padded, List.length_append, List.length_replicate]
  omega

theorem padded_ne_nil (width n : Nat) : (padded width n).toList ≠ [] := by
  rw [toList_padded]
  exact List.append_ne_nil_of_right_ne_nil _ Nat.toDigits_ne_nil

theorem decimalValue_replicate_append (k : Nat) (s : List Char) :
    decimalValue (List.replicate k '0' ++ s) = decimalValue s := by
  induction k with
  | zero => rfl
  | succ k ih => rw [List.replicate_succ, List.cons_append, ← ih]; rfl

/-- The zeros in front do not count. -/
theorem decimalValue_padded (width n : Nat) : decimalValue (padded width n).toList = n := by
  rw [toList_padded, decimalValue_replicate_append, decimalValue_toDigits]


/-! ### Reading a number that has been written -/

theorem digitValue?_of_isDigit {c : Char} (h : isDigit c = true) :
    digitValue? 10 c = some (c.toNat - '0'.toNat) := by
  have hrange : '0' ≤ c ∧ c ≤ '9' := by
    simpa only [isDigit, Bool.and_eq_true, decide_eq_true_eq] using h
  rw [isDigit_eq, isDigit_iff] at h
  have hless : c.toNat - '0'.toNat < 10 := by
    have hzero : '0'.toNat = 48 := rfl
    omega
  rw [digitValue?, if_pos hrange]
  exact if_pos hless

/-- The value of decimal digits that come after a value. -/
def decimalAfter (value : Nat) (s : List Char) : Nat :=
  s.foldl (fun value c => value * 10 + (c.toNat - '0'.toNat)) value

theorem decimalAfter_cons (value : Nat) (c : Char) (s : List Char) :
    decimalAfter value (c :: s) = decimalAfter (value * 10 + (c.toNat - '0'.toNat)) s := by
  rw [decimalAfter, List.foldl_cons, decimalAfter]

/-- A value only grows with the digits that come after it. -/
theorem le_decimalAfter (value : Nat) (s : List Char) : value ≤ decimalAfter value s := by
  induction s generalizing value with
  | nil => exact Nat.le_refl value
  | cons c s ih =>
    have hgrows : ∀ d : Nat, value ≤ value * 10 + d := by
      intro d
      omega
    rw [decimalAfter_cons]
    exact Nat.le_trans (hgrows _) (ih _)

theorem readDigits_of_isDigit {s : List Char} {max value : Nat} (hs : ∀ c ∈ s, isDigit c = true)
    (hle : decimalAfter value s ≤ max) : readDigits 10 max value s = .ok (decimalAfter value s) := by
  induction s generalizing value with
  | nil => rfl
  | cons c s ih =>
    rw [decimalAfter_cons] at hle ⊢
    have hfits : value * 10 + (c.toNat - '0'.toNat) ≤ max := Nat.le_trans (le_decimalAfter _ s) hle
    rw [readDigits, digitValue?_of_isDigit (hs c List.mem_cons_self)]
    simp only [hfits, if_true]
    exact ih (fun c hc => hs c (List.mem_cons_of_mem _ hc)) hle

theorem readNumeral_toDigits {n max : Nat} (h : n ≤ max) : readNumeral 10 max (Nat.toDigits 10 n) = .ok n := by
  have hvalue : decimalAfter 0 (Nat.toDigits 10 n) = n := decimalValue_toDigits n
  have hread := readDigits_of_isDigit (fun c => isDigit_of_mem_toDigits) (hvalue.trans_le h)
  rw [hvalue] at hread
  -- without a sign a numeral is figures and nothing else
  obtain ⟨-, hfigures⟩ := (readDigits_zero_iff Nat.toDigits_ne_nil).1 hread
  exact readNumeral_eq_ok_iff.2 ⟨h, .inl hfigures⟩

theorem trim_of_isDigit {s : List Char} (h : ∀ c ∈ s, isDigit c = true) : trim s = s :=
  trim_of_not_blank fun c hc => isBlank_of_isDigit (h c hc)

/-- A number of thirty-two bits reads back from its text, whatever is trimmed from that. -/
theorem readUInt32_toString (n : UInt32) : readUInt32 (trim (toString n).toList) = .ok n := by
  have htext : (toString n).toList = Nat.toDigits 10 n.toNat := by
    show (Nat.repr n.toNat).toList = _
    rw [Nat.repr, String.toList_ofList]
  rw [htext, trim_of_isDigit fun c => isDigit_of_mem_toDigits, readUInt32,
    readNumeral_toDigits (Nat.le_of_lt_succ n.toNat_lt)]
  show Except.ok (UInt32.ofNat n.toNat) = _
  rw [UInt32.ofNat_toNat]

end CecRelay.Text
