import CecRelay.Proofs.Text.Utf8
import Mathlib.Data.String.Basic

/-!
# The order of bytes

Texts compare by code points as their bytes in UTF-8 do (`ofString_lt_iff`). The first byte of a character grows with
the number of its bytes, and characters of equally many bytes compare from the first of them on
(`encodeChar_append_lt`).
-/

namespace CecRelay.Utf8

/-- A byte that is no greater leaves it to what follows. -/
theorem cons_lt_cons {m n : Nat} {x y : Bytes} (hn : n < 256) (hle : m ≤ n) (h : m = n → x < y) :
    UInt8.ofNat m :: x < UInt8.ofNat n :: y := by
  rw [List.cons_lt_cons_iff, UInt8.lt_iff_toNat_lt, toNat_byte hn, toNat_byte (Nat.lt_of_le_of_lt hle hn)]
  rcases Nat.lt_or_eq_of_le hle with hlt | rfl
  · exact .inl hlt
  · exact .inr ⟨rfl, h rfl⟩

/-- The first byte of a character. -/
def lead (v : Nat) : Nat :=
  if v ≤ 0x7F then v
  else if v ≤ 0x7FF then v / 64 % 32 + 192
  else if v ≤ 0xFFFF then v / 4096 % 16 + 224
  else v / 262144 % 8 + 240

/-- The bytes of a character behind the first. -/
def trail (v : Nat) : Bytes :=
  if v ≤ 0x7F then []
  else if v ≤ 0x7FF then [UInt8.ofNat (v % 64 + 128)]
  else if v ≤ 0xFFFF then [UInt8.ofNat (v / 64 % 64 + 128), UInt8.ofNat (v % 64 + 128)]
  else [UInt8.ofNat (v / 4096 % 64 + 128), UInt8.ofNat (v / 64 % 64 + 128), UInt8.ofNat (v % 64 + 128)]

theorem encodeChar_eq (c : Char) :
    String.utf8EncodeChar c = UInt8.ofNat (lead c.val.toNat) :: trail c.val.toNat := by
  rw [String.utf8EncodeChar, lead, trail]
  split_ifs
  · rfl
  · rfl
  · rfl
  · rfl

variable {v w : Nat}

theorem lead_lt (hw : w < 0x110000) : lead w < 256 := by
  rw [lead]
  split_ifs <;> omega

theorem lead_mono (h : v < w) (hw : w < 0x110000) : lead v ≤ lead w := by
  rw [lead, lead]
  split_ifs <;> omega

/-- Characters with the same first byte have equally many bytes. -/
theorem same_length_of_lead_eq (h : v < w) (hw : w < 0x110000) (hlead : lead v = lead w) :
    (v ≤ 0x7F ↔ w ≤ 0x7F) ∧ (v ≤ 0x7FF ↔ w ≤ 0x7FF) ∧ (v ≤ 0xFFFF ↔ w ≤ 0xFFFF) := by
  rw [lead, lead] at hlead
  split_ifs at hlead <;> omega

/-- Behind the same first byte the bytes of a smaller character are smaller. -/
theorem trail_append_lt (h : v < w) (hw : w < 0x110000) (hlead : lead v = lead w) (x y : Bytes) :
    trail v ++ x < trail w ++ y := by
  obtain ⟨hone, htwo, hthree⟩ := same_length_of_lead_eq h hw hlead
  rw [lead, lead] at hlead
  rw [trail, trail]
  simp only [hone, htwo, hthree] at hlead ⊢
  split_ifs at hlead ⊢
  · omega
  · exact cons_lt_cons (by omega) (by omega) fun _ => by omega
  · exact cons_lt_cons (by omega) (by omega) fun _ => cons_lt_cons (by omega) (by omega) fun _ => by omega
  · exact cons_lt_cons (by omega) (by omega) fun _ => cons_lt_cons (by omega) (by omega) fun _ =>
      cons_lt_cons (by omega) (by omega) fun _ => by omega

/-- The bytes of a smaller character are smaller, whatever follows. -/
theorem encodeChar_append_lt {c d : Char} (h : c < d) (x y : Bytes) :
    String.utf8EncodeChar c ++ x < String.utf8EncodeChar d ++ y := by
  have hlt : c.val.toNat < d.val.toNat := h
  have hd : d.val.toNat < 0x110000 := by
    rcases d.valid with hvalid | ⟨-, hvalid⟩
    · omega
    · exact hvalid
  rw [encodeChar_eq, encodeChar_eq]
  exact cons_lt_cons (lead_lt hd) (lead_mono hlt hd) fun hlead => trail_append_lt hlt hd hlead x y

/-- The bytes of a smaller text are smaller. -/
theorem encode_lt {s t : List Char} (h : s < t) : encode s < encode t := by
  induction s generalizing t with
  | nil =>
    cases t with
    | nil => exact absurd h (List.lt_irrefl _)
    | cons d t =>
      obtain ⟨b, rest, heq⟩ := List.exists_cons_of_ne_nil (List.append_ne_nil_of_left_ne_nil
        (List.ne_nil_of_length_pos (String.length_utf8EncodeChar d ▸ d.utf8Size_pos)) (encode t))
      rw [encode, encode, List.flatMap_nil, List.flatMap_cons, ← encode, heq]
      exact List.nil_lt_cons b rest
  | cons c s ih =>
    cases t with
    | nil => exact absurd h (List.not_lt_nil _)
    | cons d t =>
      rw [encode, encode, List.flatMap_cons, List.flatMap_cons, ← encode, ← encode]
      rcases List.cons_lt_cons_iff.1 h with hlt | ⟨rfl, hrest⟩
      · exact encodeChar_append_lt hlt _ _
      · exact List.append_left_lt (ih hrest)

/-- Texts compare as their bytes do. -/
theorem ofString_lt_iff {s t : String} : ofString s < ofString t ↔ s < t := by
  have hmono : ∀ {s t : String}, s < t → ofString s < ofString t := by
    intro s t h
    rw [ofString_eq_encode, ofString_eq_encode]
    exact encode_lt (String.lt_iff_toList_lt.1 h)
  refine ⟨fun h => ?_, hmono⟩
  rcases lt_trichotomy s t with hlt | rfl | hgt
  · exact hlt
  · exact absurd h (List.lt_irrefl _)
  · exact absurd (hmono hgt) (List.lt_asymm h)

end CecRelay.Utf8
