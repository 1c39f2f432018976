import CecRelay.Proofs.Text.Decimal
import CecRelay.Time.Stamp

/-!
# Stamps read back

The text of a stamp that a clock can show stands for that stamp (`ofString?_text`). Each part of the
text is read by its own reader, which takes exactly that part and leaves the rest: a number that
fills its width, a fraction in front of the zone, a year in front of its mark.
-/

namespace CecRelay.Time.Stamp

open Text

/-- A stamp that a clock can show: a day of the calendar and a time of the day. -/
def Valid (t : Stamp) : Prop :=
  t.day.valid = true ∧ t.hour < 24 ∧ t.minute < 60 ∧ t.second ≤ 60 ∧ t.nanos < 1000000000

instance (t : Stamp) : Decidable t.Valid := inferInstanceAs (Decidable (_ ∧ _))

/-! ### Parts of the text -/

/-- A run of digits is taken whole when it fills the width or something else follows. -/
theorem digits_append {width : Nat} {run rest : List Char} (hrun : ∀ c ∈ run, isDigit c = true)
    (hlen : run.length ≤ width)
    (hrest : run.length = width ∨ ∀ c, rest.head? = some c → isDigit c = false) :
    digits width (run ++ rest) = (run, rest) := by
  have htake : (rest.take (width - run.length)).takeWhile isDigit = [] := by
    rcases hrest with hfull | hhead
    · simp [hfull]
    · cases rest with
      | nil => simp
      | cons c rest =>
        cases width - run.length with
        | zero => simp
        | succ k => simp [hhead c rfl]
  have hw : ((run ++ rest).take width).takeWhile isDigit = run := by
    rw [List.take_append, List.take_of_length_le hlen, List.takeWhile_append_of_pos hrun, htake,
      List.append_nil]
  simp only [digits, hw, List.drop_left]

/-- Nothing is blank in front of a run of digits. -/
theorem trimStart_digits {run : List Char} (hne : run ≠ []) (hrun : ∀ c ∈ run, isDigit c = true)
    (rest : List Char) : trimStart (run ++ rest) = run ++ rest := by
  obtain ⟨c, run, rfl⟩ := List.exists_cons_of_ne_nil hne
  exact trimStart_cons_of_not_blank (isBlank_of_isDigit (hrun c List.mem_cons_self))

theorem number?_append {width : Nat} {run rest : List Char} (hne : run ≠ [])
    (hrun : ∀ c ∈ run, isDigit c = true) (hlen : run.length ≤ width)
    (hrest : run.length = width ∨ ∀ c, rest.head? = some c → isDigit c = false) :
    number? width (run ++ rest) = some (decimalValue run, rest) := by
  rw [number?, trimStart_digits hne hrun, digits_append hrun hlen hrest]
  cases run with
  | nil => exact absurd rfl hne
  | cons c run => rfl

theorem number?_padded {width n : Nat} (hw : 0 < width) (h : n < 10 ^ width) (rest : List Char) :
    number? width ((padded width n).toList ++ rest) = some (n, rest) := by
  have hlen := length_padded hw h
  rw [number?_append (padded_ne_nil width n) (fun _ hc => isDigit_of_mem_padded hc) hlen.le (.inl hlen),
    decimalValue_padded]

theorem field?_padded {low high n : Nat} (hl : low ≤ n) (hh : n ≤ high) (h : n < 100)
    (rest : List Char) : field? low high ((padded 2 n).toList ++ rest) = some (n, rest) := by
  have hr : number? 2 ((padded 2 n).toList ++ rest) = some (n, rest) := number?_padded (by decide) h rest
  simp [field?, hr, hl, hh]

theorem mark?_cons {c : Char} (h : isBlank c = false) (s : List Char) : mark? c (c :: s) = some s := by
  rw [mark?, trimStart_cons_of_not_blank h]
  exact if_pos rfl

/-- A year without a sign has four digits. -/
theorem year?_padded {n : Nat} (h : n < 10000) (rest : List Char) :
    year? ((padded 4 n).toList ++ rest) = some (Int.ofNat n, rest) := by
  obtain ⟨c, run, hrun⟩ := List.exists_cons_of_ne_nil (padded_ne_nil 4 n)
  have hdigit : isDigit c = true := isDigit_of_mem_padded (by rw [hrun]; exact List.mem_cons_self)
  have hread : number? 4 ((padded 4 n).toList ++ rest) = some (n, rest) :=
    number?_padded (by decide) h rest
  have htrim := trimStart_digits (padded_ne_nil 4 n) (fun _ hc => isDigit_of_mem_padded hc) rest
  rw [year?, htrim]
  rw [hrun, List.cons_append] at hread ⊢
  split
  next heq =>
    rw [(List.cons.inj heq).1] at hdigit
    exact absurd hdigit (by decide)
  next heq =>
    rw [(List.cons.inj heq).1] at hdigit
    exact absurd hdigit (by decide)
  next => rw [hread]; rfl

theorem signed_padded (sign : Int → Int) (n : Nat) (rest : List Char) :
    year?.signed sign ((padded 4 n).toList ++ '-' :: rest) =
      some (sign (Int.ofNat n), '-' :: rest) := by
  have hd : digits ((padded 4 n).toList ++ '-' :: rest).length ((padded 4 n).toList ++ '-' :: rest) =
      ((padded 4 n).toList, '-' :: rest) :=
    digits_append (fun _ hc => isDigit_of_mem_padded hc) (by simp) (.inr fun c hc => by cases hc; rfl)
  obtain ⟨c, run, hrun⟩ := List.exists_cons_of_ne_nil (padded_ne_nil 4 n)
  have hv := decimalValue_padded 4 n
  rw [year?.signed, hd, hrun] at *
  simp only [hv]

/-- The year is read up to the mark behind it. -/
theorem year?_yearText (year : Int) (rest : List Char) :
    year? ((yearText year).toList ++ '-' :: rest) = some (year, '-' :: rest) := by
  rw [yearText]
  split
  next h =>
    rw [year?_padded (by omega), Int.ofNat_eq_natCast, Int.toNat_of_nonneg h.1]
  next h =>
    split
    next h0 =>
      have hs : ("+" ++ padded 4 year.toNat).toList ++ '-' :: rest =
          '+' :: ((padded 4 year.toNat).toList ++ '-' :: rest) := by simp
      have hy : year? ('+' :: ((padded 4 year.toNat).toList ++ '-' :: rest)) =
          year?.signed id ((padded 4 year.toNat).toList ++ '-' :: rest) := rfl
      rw [hs, hy, signed_padded, id, Int.ofNat_eq_natCast, Int.toNat_of_nonneg h0]
    next h0 =>
      have hs : ("-" ++ padded 4 year.natAbs).toList ++ '-' :: rest =
          '-' :: ((padded 4 year.natAbs).toList ++ '-' :: rest) := by simp
      have hy : year? ('-' :: ((padded 4 year.natAbs).toList ++ '-' :: rest)) =
          year?.signed (- ·) ((padded 4 year.natAbs).toList ++ '-' :: rest) := rfl
      have hn : -Int.ofNat year.natAbs = year := by rw [Int.ofNat_eq_natCast]; omega
      rw [hs, hy, signed_padded, hn]

/-- A fraction of three, six or nine digits is read up to the zone. -/
theorem fraction?_digits {k n : Nat} (hk : 0 < k) (hk9 : k ≤ 9) (h : n < 10 ^ k) (rest : List Char)
    (hrest : ∀ c, rest.head? = some c → isDigit c = false) :
    fraction? ('.' :: ((padded k n).toList ++ rest)) = some (n * 10 ^ (9 - k), rest) := by
  have hlen := length_padded hk h
  have hd : digits 9 ((padded k n).toList ++ rest) = ((padded k n).toList, rest) :=
    digits_append (fun _ hc => isDigit_of_mem_padded hc) (by omega) (.inr hrest)
  have hdrop : rest.dropWhile isDigit = rest := by
    cases rest with
    | nil => rfl
    | cons c rest => simp [hrest c rfl]
  have hv := decimalValue_padded k n
  obtain ⟨c, run, hrun⟩ := List.exists_cons_of_ne_nil (padded_ne_nil k n)
  rw [hrun] at hlen hd hv
  rw [fraction?, hrun, hd]
  simp only [hv, hlen, hdrop]
  rfl

/-- A group of digits is written when what it leaves out is zero. -/
theorem fraction?_group {k nanos : Nat} (hk : 0 < k) (hk9 : k ≤ 9)
    (h : nanos / 10 ^ (9 - k) < 10 ^ k) (h0 : nanos % 10 ^ (9 - k) = 0) (rest : List Char) :
    fraction? (("." ++ padded k (nanos / 10 ^ (9 - k))).toList ++ 'Z' :: rest) =
      some (nanos, 'Z' :: rest) := by
  have hs : ("." ++ padded k (nanos / 10 ^ (9 - k))).toList ++ 'Z' :: rest =
      '.' :: ((padded k (nanos / 10 ^ (9 - k))).toList ++ 'Z' :: rest) := by simp
  rw [hs, fraction?_digits hk hk9 h _ fun c hc => by cases hc; rfl,
    Nat.div_mul_cancel (Nat.dvd_of_mod_eq_zero h0)]

theorem fraction?_fractionText {nanos : Nat} (h : nanos < 1000000000) (rest : List Char) :
    fraction? ((fractionText nanos).toList ++ 'Z' :: rest) = some (nanos, 'Z' :: rest) := by
  rw [fractionText]
  split
  next h0 => rw [h0]; rfl
  next h0 =>
    split
    next h6 => exact fraction?_group (k := 3) (by decide) (by decide) (by omega) h6 rest
    next h6 =>
      split
      next h3 => exact fraction?_group (k := 6) (by decide) (by decide) (by omega) h3 rest
      next h3 =>
        have h9 := @fraction?_group 9 nanos (by decide) (by decide) (by omega) (Nat.mod_one _) rest
        rwa [Nat.sub_self, Nat.pow_zero, Nat.div_one] at h9

/-- A stamp on the clock of UTC is not moved. -/
theorem earlier?_zero {t : Stamp} (h : t.Valid) : earlier? t 0 = some t := by
  obtain ⟨hday, hhour, hminute, -, -⟩ := h
  have hclock : ((60 * t.hour + t.minute : Int) - 0) = ((60 * t.hour + t.minute : Nat) : Int) := by
    omega
  have hmod : (((60 * t.hour + t.minute : Nat) : Int) % (24 * 60)).toNat = 60 * t.hour + t.minute := by
    omega
  have hh : (60 * t.hour + t.minute) / 60 = t.hour := by omega
  have hm : (60 * t.hour + t.minute) % 60 = t.minute := by omega
  have hlow : ¬ ((60 * t.hour + t.minute : Nat) : Int) < 0 := by omega
  have hhigh : ¬ (24 * 60 : Int) ≤ ((60 * t.hour + t.minute : Nat) : Int) := by omega
  simp only [earlier?, hclock, hmod, hh, hm, if_neg hlow, if_neg hhigh, hday, if_true]

theorem daysIn_le (year : Int) (month : Nat) : daysIn year month ≤ 31 := by
  unfold daysIn
  split <;> try split
  all_goals omega

/-- The text of a stamp stands for that stamp. -/
theorem ofString?_text {t : Stamp} (h : t.Valid) : ofString? t.text = some t := by
  obtain ⟨hday, hhour, hminute, hsecond, hnanos⟩ := h
  have hd := hday
  simp only [Day.valid, Bool.and_eq_true, decide_eq_true_eq] at hd
  obtain ⟨⟨⟨-, hm1⟩, hm12⟩, hd1⟩ := hd.1
  have hd31 := hd.2.trans (daysIn_le t.day.year t.day.month)
  have htext : t.text.toList = (yearText t.day.year).toList ++ '-' :: ((padded 2 t.day.month).toList ++
      '-' :: ((padded 2 t.day.day).toList ++ 'T' :: ((padded 2 t.hour).toList ++
      ':' :: ((padded 2 t.minute).toList ++ ':' :: ((padded 2 t.second).toList ++
      ((fractionText t.nanos).toList ++ 'Z' :: [])))))) := by
    simp [text]
  rw [ofString?, read?, htext, year?_yearText]
  simp only [Option.bind_eq_bind, Option.bind_some, mark?_cons (c := '-') rfl, mark?_cons (c := ':') rfl,
    field?_padded hm1 hm12 (by omega), field?_padded hd1 hd31 (by omega), separator?,
    field?_padded (Nat.zero_le _) (by omega : t.hour ≤ 23) (by omega),
    field?_padded (Nat.zero_le _) (by omega : t.minute ≤ 59) (by omega),
    field?_padded (Nat.zero_le _) hsecond (by omega), fraction?_fractionText hnanos]
  have hoffset : offset? (trimStart ['Z']) = some (0, []) := rfl
  simp only [hoffset, Option.bind_some]
  rw [if_pos ⟨rfl, hday⟩]
  exact earlier?_zero ⟨hday, hhour, hminute, hsecond, hnanos⟩

end CecRelay.Time.Stamp
