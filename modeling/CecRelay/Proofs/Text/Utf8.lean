import CecRelay.Proofs.Text.Ascii

/-!
# Text in UTF-8

Every text is read back from its bytes (`decode?_encode`). A character has one to four bytes: the first says how
many, and each of the others carries six bits (`tail?_ofNat`). There is one lemma for each number of bytes, which
says what reading them gives, and the character is put together from its bits again (`decode?_char`). Nothing else is
read: bytes that give a text are the bytes of this text (`decode?_eq_some_iff`).
-/

namespace CecRelay.Utf8

theorem toNat_byte {n : Nat} (h : n < 256) : (UInt8.ofNat n).toNat = n := UInt8.toNat_ofNat_of_lt' h

/-- Six bits are carried by a byte that continues a character. -/
theorem tail?_ofNat {n : Nat} (h : n < 64) : tail? (UInt8.ofNat (n + 128)) = some n := by
  have hn : (UInt8.ofNat (n + 128)).toNat = n + 128 := toNat_byte (by omega)
  have hlow : (0x80 : UInt8) ≤ UInt8.ofNat (n + 128) := by
    rw [UInt8.le_iff_toNat_le, hn]
    exact Nat.le_add_left 128 n
  have hhigh : UInt8.ofNat (n + 128) ≤ 0xBF := by
    rw [UInt8.le_iff_toNat_le, hn]
    show n + 128 ≤ 191
    omega
  rw [tail?, if_pos ⟨hlow, hhigh⟩, hn, Nat.add_sub_cancel]

/-! ### Characters of more than one byte -/

section Bytes

variable {a b c d : UInt8} {y z w : Nat} (r : Bytes)

theorem decode?_two (hlow : 0xC2 ≤ a.toNat) (hhigh : a.toNat < 0xE0) (hb : tail? b = some y) :
    decode? (a :: b :: r) = (decode? r).map (Char.ofNat ((a.toNat - 0xC0) * 64 + y) :: ·) := by
  have h1 : ¬ a < 0x80 := by rw [UInt8.lt_iff_toNat_lt]; show ¬ a.toNat < 128; omega
  have h2 : ¬ a < 0xC2 := by rw [UInt8.lt_iff_toNat_lt]; show ¬ a.toNat < 194; omega
  have h3 : a < 0xE0 := by rw [UInt8.lt_iff_toNat_lt]; exact hhigh
  rw [decode?.eq_def]
  simp only [h1, h2, h3, hb, if_false, if_true]

theorem decode?_three (hlow : 0xE0 ≤ a.toNat) (hhigh : a.toNat < 0xF0) (hb : tail? b = some y)
    (hc : tail? c = some z) (hlong : 0x800 ≤ ((a.toNat - 0xE0) * 64 + y) * 64 + z)
    (hpair : ¬ (0xD800 ≤ ((a.toNat - 0xE0) * 64 + y) * 64 + z ∧ ((a.toNat - 0xE0) * 64 + y) * 64 + z ≤ 0xDFFF)) :
    decode? (a :: b :: c :: r) =
      (decode? r).map (Char.ofNat (((a.toNat - 0xE0) * 64 + y) * 64 + z) :: ·) := by
  have h1 : ¬ a < 0x80 := by rw [UInt8.lt_iff_toNat_lt]; show ¬ a.toNat < 128; omega
  have h2 : ¬ a < 0xC2 := by rw [UInt8.lt_iff_toNat_lt]; show ¬ a.toNat < 194; omega
  have h3 : ¬ a < 0xE0 := by rw [UInt8.lt_iff_toNat_lt]; exact Nat.not_lt.2 hlow
  have h4 : a < 0xF0 := by rw [UInt8.lt_iff_toNat_lt]; exact hhigh
  have hfits := not_or.2 ⟨Nat.not_lt.2 hlong, hpair⟩
  rw [decode?.eq_def]
  simp only [h1, h2, h3, h4, hb, hc, if_false, if_true, if_neg hfits]

theorem decode?_four (hlow : 0xF0 ≤ a.toNat) (hhigh : a.toNat ≤ 0xF4) (hb : tail? b = some y)
    (hc : tail? c = some z) (hd : tail? d = some w)
    (hlong : 0x10000 ≤ (((a.toNat - 0xF0) * 64 + y) * 64 + z) * 64 + w)
    (hlast : (((a.toNat - 0xF0) * 64 + y) * 64 + z) * 64 + w ≤ 0x10FFFF) :
    decode? (a :: b :: c :: d :: r) =
      (decode? r).map (Char.ofNat ((((a.toNat - 0xF0) * 64 + y) * 64 + z) * 64 + w) :: ·) := by
  have h1 : ¬ a < 0x80 := by rw [UInt8.lt_iff_toNat_lt]; show ¬ a.toNat < 128; omega
  have h2 : ¬ a < 0xC2 := by rw [UInt8.lt_iff_toNat_lt]; show ¬ a.toNat < 194; omega
  have h3 : ¬ a < 0xE0 := by rw [UInt8.lt_iff_toNat_lt]; show ¬ a.toNat < 224; omega
  have h4 : ¬ a < 0xF0 := by rw [UInt8.lt_iff_toNat_lt]; exact Nat.not_lt.2 hlow
  have h5 : ¬ a > 0xF4 := by rw [gt_iff_lt, UInt8.lt_iff_toNat_lt]; exact Nat.not_lt.2 hhigh
  have hfits := not_or.2 ⟨h5, not_or.2 ⟨Nat.not_lt.2 hlong, Nat.not_lt.2 hlast⟩⟩
  rw [decode?.eq_def]
  simp only [h1, h2, h3, h4, hb, hc, hd, if_false, if_neg hfits]

end Bytes

/-! ### Every character -/

/-- A character is read back from its bytes. -/
theorem decode?_char (c : Char) (r : Bytes) :
    decode? (String.utf8EncodeChar c ++ r) = (decode? r).map (c :: ·) := by
  obtain ⟨v, hv⟩ : ∃ v, c.val.toNat = v := ⟨_, rfl⟩
  have hback : Char.ofNat v = c := by rw [← hv]; exact Char.ofNat_toNat c
  have hvalid : v < 0xD800 ∨ 0xDFFF < v ∧ v < 0x110000 := hv ▸ c.valid
  rw [String.utf8EncodeChar]
  simp only [hv]
  split
  next hone =>
    have ha : (UInt8.ofNat v).toNat = v := toNat_byte (by omega)
    have hlt : UInt8.ofNat v < 0x80 := by
      rw [UInt8.lt_iff_toNat_lt, ha]
      exact Nat.lt_succ_of_le hone
    rw [List.singleton_append, decode?_cons_ascii hlt, ha, hback]
  next hone =>
    split
    next htwo =>
      have ha : (UInt8.ofNat (v / 64 % 32 + 192)).toNat = v / 64 + 192 := by
        rw [toNat_byte (by omega)]
        omega
      have hbits : (v / 64 + 192 - 0xC0) * 64 + v % 64 = v := by omega
      rw [List.cons_append, List.singleton_append, decode?_two r (by omega) (by omega)
        (tail?_ofNat (Nat.mod_lt v (by decide))), ha, hbits, hback]
    next htwo =>
      split
      next hthree =>
        have ha : (UInt8.ofNat (v / 4096 % 16 + 224)).toNat = v / 4096 + 224 := by
          rw [toNat_byte (by omega)]
          omega
        have hbits : ((v / 4096 + 224 - 0xE0) * 64 + v / 64 % 64) * 64 + v % 64 = v := by omega
        have hread := decode?_three r (a := UInt8.ofNat (v / 4096 % 16 + 224)) (by omega) (by omega)
          (tail?_ofNat (Nat.mod_lt (v / 64) (by decide))) (tail?_ofNat (Nat.mod_lt v (by decide)))
        rw [ha, hbits, hback] at hread
        exact hread (by omega) (by omega)
      next hthree =>
        have ha : (UInt8.ofNat (v / 262144 % 8 + 240)).toNat = v / 262144 + 240 := by
          rw [toNat_byte (by omega)]
          omega
        have hbits : (((v / 262144 + 240 - 0xF0) * 64 + v / 4096 % 64) * 64 + v / 64 % 64) * 64 + v % 64 = v := by
          omega
        have hread := decode?_four r (a := UInt8.ofNat (v / 262144 % 8 + 240)) (by omega) (by omega)
          (tail?_ofNat (Nat.mod_lt (v / 4096) (by decide))) (tail?_ofNat (Nat.mod_lt (v / 64) (by decide)))
          (tail?_ofNat (Nat.mod_lt v (by decide)))
        rw [ha, hbits, hback] at hread
        exact hread (by omega) (by omega)

/-- Every text is read back from its bytes. -/
theorem decode?_encode (s : List Char) : decode? (encode s) = some s := by
  induction s with
  | nil => rfl
  | cons c s ih =>
    rw [encode, List.flatMap_cons, decode?_char, ← encode, ih]
    rfl

theorem decode?_ofString (s : String) : decode? (ofString s) = some s.toList := by
  rw [ofString_eq_encode, decode?_encode]

theorem toString?_encode (s : List Char) : toString? (encode s) = some (String.ofList s) := by
  rw [toString?, decode?_encode]
  rfl

/-! ### Nothing but text -/

/-- A byte that continues a character carries six bits, and is made of them. -/
theorem tail?_eq_some_iff {b : UInt8} {n : Nat} : tail? b = some n ↔ n < 64 ∧ b = UInt8.ofNat (n + 128) := by
  constructor
  · intro h
    rw [tail?, Option.ite_none_right_eq_some, Option.some.injEq, UInt8.le_iff_toNat_le, UInt8.le_iff_toNat_le] at h
    obtain ⟨⟨hlow, hhigh⟩, rfl⟩ := h
    have hlow : 128 ≤ b.toNat := hlow
    have hhigh : b.toNat ≤ 191 := hhigh
    refine ⟨by omega, ?_⟩
    rw [Nat.sub_add_cancel hlow, UInt8.ofNat_toNat]
  · rintro ⟨hn, rfl⟩
    exact tail?_ofNat hn

/-- The bytes of the character with a number, by the size of the number. -/
theorem encodeChar_ofNat {v : Nat} (h : v.isValidChar) : String.utf8EncodeChar (Char.ofNat v) =
    if v ≤ 0x7F then [UInt8.ofNat v]
    else if v ≤ 0x7FF then [UInt8.ofNat (v / 64 % 32 + 192), UInt8.ofNat (v % 64 + 128)]
    else if v ≤ 0xFFFF then
      [UInt8.ofNat (v / 4096 % 16 + 224), UInt8.ofNat (v / 64 % 64 + 128), UInt8.ofNat (v % 64 + 128)]
    else
      [UInt8.ofNat (v / 262144 % 8 + 240), UInt8.ofNat (v / 4096 % 64 + 128), UInt8.ofNat (v / 64 % 64 + 128),
        UInt8.ofNat (v % 64 + 128)] := by
  have hv : (Char.ofNat v).val.toNat = v := by
    rw [Char.ofNat, dif_pos h]
    rfl
  rw [String.utf8EncodeChar]
  simp only [hv]

section Bytes

variable {a b c d : UInt8} {y z w : Nat}

theorem encodeChar_one (ha : a < 0x80) : String.utf8EncodeChar (Char.ofNat a.toNat) = [a] := by
  have ha : a.toNat < 128 := ha
  rw [encodeChar_ofNat (.inl (by omega)), if_pos (by omega), UInt8.ofNat_toNat]

theorem encodeChar_two (hlow : ¬ a < 0xC2) (hhigh : a < 0xE0) (hb : tail? b = some y) :
    String.utf8EncodeChar (Char.ofNat ((a.toNat - 0xC0) * 64 + y)) = [a, b] := by
  have hlow : 194 ≤ a.toNat := Nat.not_lt.1 hlow
  have hhigh : a.toNat < 224 := hhigh
  obtain ⟨hy, rfl⟩ := tail?_eq_some_iff.1 hb
  obtain ⟨v, hv⟩ : ∃ v, (a.toNat - 0xC0) * 64 + y = v := ⟨_, rfl⟩
  have ha : v / 64 % 32 + 192 = a.toNat := by omega
  have hb : v % 64 = y := by omega
  rw [hv, encodeChar_ofNat (.inl (by omega)), if_neg (by omega), if_pos (by omega), ha, hb, UInt8.ofNat_toNat]

theorem encodeChar_three (hlow : ¬ a < 0xE0) (hhigh : a < 0xF0) (hb : tail? b = some y) (hc : tail? c = some z)
    (hfits : ¬ (((a.toNat - 0xE0) * 64 + y) * 64 + z < 0x800 ∨
      0xD800 ≤ ((a.toNat - 0xE0) * 64 + y) * 64 + z ∧ ((a.toNat - 0xE0) * 64 + y) * 64 + z ≤ 0xDFFF)) :
    String.utf8EncodeChar (Char.ofNat (((a.toNat - 0xE0) * 64 + y) * 64 + z)) = [a, b, c] := by
  have hlow : 224 ≤ a.toNat := Nat.not_lt.1 hlow
  have hhigh : a.toNat < 240 := hhigh
  obtain ⟨hy, rfl⟩ := tail?_eq_some_iff.1 hb
  obtain ⟨hz, rfl⟩ := tail?_eq_some_iff.1 hc
  obtain ⟨v, hv⟩ : ∃ v, ((a.toNat - 0xE0) * 64 + y) * 64 + z = v := ⟨_, rfl⟩
  rw [hv] at hfits
  have hvalid : v.isValidChar := by
    show v < 0xD800 ∨ 0xDFFF < v ∧ v < 0x110000
    omega
  have ha : v / 4096 % 16 + 224 = a.toNat := by omega
  have hb : v / 64 % 64 = y := by omega
  have hc : v % 64 = z := by omega
  rw [hv, encodeChar_ofNat hvalid, if_neg (by omega), if_neg (by omega), if_pos (by omega), ha, hb, hc,
    UInt8.ofNat_toNat]

theorem encodeChar_four (hlow : ¬ a < 0xF0) (hb : tail? b = some y) (hc : tail? c = some z) (hd : tail? d = some w)
    (hfits : ¬ (a > 0xF4 ∨ (((a.toNat - 0xF0) * 64 + y) * 64 + z) * 64 + w < 0x10000 ∨
      0x10FFFF < (((a.toNat - 0xF0) * 64 + y) * 64 + z) * 64 + w)) :
    String.utf8EncodeChar (Char.ofNat ((((a.toNat - 0xF0) * 64 + y) * 64 + z) * 64 + w)) = [a, b, c, d] := by
  have hlow : 240 ≤ a.toNat := Nat.not_lt.1 hlow
  have hhigh : a.toNat ≤ 244 := Nat.not_lt.1 (mt Or.inl hfits)
  obtain ⟨hy, rfl⟩ := tail?_eq_some_iff.1 hb
  obtain ⟨hz, rfl⟩ := tail?_eq_some_iff.1 hc
  obtain ⟨hw, rfl⟩ := tail?_eq_some_iff.1 hd
  obtain ⟨v, hv⟩ : ∃ v, (((a.toNat - 0xF0) * 64 + y) * 64 + z) * 64 + w = v := ⟨_, rfl⟩
  rw [hv] at hfits
  have hvalid : v.isValidChar := by
    show v < 0xD800 ∨ 0xDFFF < v ∧ v < 0x110000
    omega
  have ha : v / 262144 % 8 + 240 = a.toNat := by omega
  have hb : v / 4096 % 64 = y := by omega
  have hc : v / 64 % 64 = z := by omega
  have hd : v % 64 = w := by omega
  rw [hv, encodeChar_ofNat hvalid, if_neg (by omega), if_neg (by omega), if_neg (by omega), ha, hb, hc, hd,
    UInt8.ofNat_toNat]

end Bytes

/-- The bytes that are read as a text are the bytes of this text. -/
theorem decode?_eq_some_iff {b : Bytes} {s : List Char} : decode? b = some s ↔ b = encode s := by
  -- the first character gives back its bytes, and the others give back theirs
  have hcons : ∀ {c front rest s}, String.utf8EncodeChar c = front → (∀ t, decode? rest = some t → rest = encode t) →
      (decode? rest).map (c :: ·) = some s → front ++ rest = encode s := by
    rintro c _ rest _ rfl hrest hmap
    obtain ⟨t, ht, rfl⟩ := Option.map_eq_some_iff.1 hmap
    rw [hrest t ht]
    rfl
  constructor
  · intro h
    fun_induction decode? b generalizing s
    case case1 =>
      cases h
      rfl
    case case2 ha ih => exact hcons (encodeChar_one ha) (fun _ => ih) h
    case case6 hlow _ _ _ hb hhigh ih => exact hcons (encodeChar_two hlow hhigh hb) (fun _ => ih) h
    case case10 hb hlow _ _ _ hc hhigh _ hfits ih =>
      exact hcons (encodeChar_three hlow hhigh hb hc hfits) (fun _ => ih) h
    case case14 hb _ _ _ hc hlow _ _ _ hd _ hfits ih =>
      exact hcons (encodeChar_four hlow hb hc hd hfits) (fun _ => ih) h
    -- in all other cases nothing is read
    all_goals cases h
  · rintro rfl
    exact decode?_encode s

theorem exists_decode?_iff {b : Bytes} : (∃ s, decode? b = some s) ↔ ∃ text, b = ofString text := by
  simp only [decode?_eq_some_iff, ofString_eq_encode]
  constructor
  · rintro ⟨s, h⟩
    exact ⟨String.ofList s, by rw [String.toList_ofList, h]⟩
  · rintro ⟨text, h⟩
    exact ⟨text.toList, h⟩

end CecRelay.Utf8
