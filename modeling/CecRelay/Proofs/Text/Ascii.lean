import CecRelay.Queue.Lines
import CecRelay.Text.Numeral
import CecRelay.Text.Utf8
import Mathlib.Data.List.Basic

/-!
# Text in ASCII as bytes

The bytes of a string are its characters one after the other (`ofString_eq_encode`), and a character
of ASCII is one byte. What the relay writes into its files is visible ASCII (`Visible`): none of its
bytes closes a line (`newline_not_mem_encode`). A visible text without quotes and backslashes is
`Plain`: it stands in a string as it is.
-/

namespace CecRelay

namespace Utf8

theorem toList_loop (bs : ByteArray) (i : Nat) (r : List UInt8) :
    ByteArray.toList.loop bs i r = r.reverse ++ bs.data.toList.drop i := by
  fun_induction ByteArray.toList.loop bs i r with
  | case1 i r hi ih =>
    have hi' : i < bs.data.toList.length := hi
    have hget : bs.get! i = bs.data.toList[i] := by
      simp only [ByteArray.get!, Array.getElem_toList]
      exact getElem!_pos bs.data i hi
    rw [ih, hget, List.drop_eq_getElem_cons hi', List.reverse_cons, List.append_assoc,
      List.singleton_append]
  | case2 i r hi =>
    have hi' : bs.data.toList.length ≤ i := Nat.le_of_not_lt hi
    rw [List.drop_of_length_le hi', List.append_nil]

theorem toList_eq (bs : ByteArray) : bs.toList = bs.data.toList := by
  rw [ByteArray.toList, toList_loop]
  rfl

/-- The bytes of a string are its characters one after the other. -/
theorem ofString_eq_encode (s : String) : ofString s = encode s.toList := by
  rw [ofString, toList_eq, String.toUTF8_eq_toByteArray, ← String.utf8Encode_toList, List.utf8Encode,
    List.toList_data_toByteArray, encode]

@[simp] theorem encode_nil : encode [] = [] := rfl

@[simp] theorem encode_append (s t : List Char) : encode (s ++ t) = encode s ++ encode t := by
  simp [encode]

/-- A character of ASCII is one byte. -/
theorem encode_cons_ascii {c : Char} (h : c.toNat < 0x80) (s : List Char) :
    encode (c :: s) = UInt8.ofNat c.toNat :: encode s := by
  have hc : c.val.toNat ≤ 0x7F := Nat.le_of_lt_succ h
  have he : String.utf8EncodeChar c = [UInt8.ofNat c.toNat] := if_pos hc
  rw [encode, List.flatMap_cons, he]
  rfl

end Utf8

namespace Text

/-- A character of ASCII that is no control character. -/
def Visible (c : Char) : Prop := 0x20 ≤ c.toNat ∧ c.toNat < 0x7F

/-- A visible character that stands in a string as it is. -/
def Plain (c : Char) : Prop := Visible c ∧ c ≠ '"' ∧ c ≠ '\\'

instance (c : Char) : Decidable (Visible c) := inferInstanceAs (Decidable (_ ∧ _))

instance (c : Char) : Decidable (Plain c) := inferInstanceAs (Decidable (_ ∧ _))

-- Texts are looked at character by character; the instance found otherwise goes through all characters.
instance (s : List Char) : Decidable (∀ c ∈ s, Visible c) := List.decidableBAll Visible s

instance (s : List Char) : Decidable (∀ c ∈ s, Plain c) := List.decidableBAll Plain s

theorem Visible.lt {c : Char} (h : Visible c) : c.toNat < 0x80 := Nat.lt_succ_of_lt h.2

theorem Plain.visible {s : List Char} (h : ∀ c ∈ s, Plain c) : ∀ c ∈ s, Visible c :=
  fun c hc => (h c hc).1

/-- The byte of a visible character is its code. -/
theorem Visible.toNat_byte {c : Char} (h : Visible c) : (UInt8.ofNat c.toNat).toNat = c.toNat :=
  UInt8.toNat_ofNat_of_lt' (Nat.lt_trans h.2 (by decide))

/-- A visible character is known by its byte. -/
theorem Visible.byte_inj {c d : Char} (hc : Visible c) (hd : Visible d)
    (h : UInt8.ofNat c.toNat = UInt8.ofNat d.toNat) : c = d := by
  have hn := congrArg UInt8.toNat h
  rw [hc.toNat_byte, hd.toNat_byte] at hn
  exact Char.toNat_inj.1 hn

theorem isDigit_iff {c : Char} : c.isDigit = true ↔ 48 ≤ c.toNat ∧ c.toNat ≤ 57 := by
  simp only [Char.isDigit, Bool.and_eq_true, decide_eq_true_eq, ge_iff_le, UInt32.le_iff_toNat_le]
  exact Iff.rfl

theorem plain_of_isDigit {c : Char} (h : c.isDigit = true) : Plain c := by
  obtain ⟨h1, h2⟩ := isDigit_iff.1 h
  refine ⟨⟨by omega, by omega⟩, ?_, ?_⟩
  · rintro rfl
    exact absurd h1 (by decide)
  · rintro rfl
    exact absurd h2 (by decide)

theorem plain_toDigits {n : Nat} : ∀ c ∈ Nat.toDigits 10 n, Plain c :=
  fun _ hc => plain_of_isDigit (Nat.isDigit_of_mem_toDigits (by decide) (by decide) hc)

end Text

namespace Utf8

open Text

/-- No byte of visible text closes a line. -/
theorem newline_not_mem_encode {s : List Char} (h : ∀ c ∈ s, Visible c) : newline ∉ encode s := by
  induction s with
  | nil => simp
  | cons c s ih =>
    have hc : Visible c := h c List.mem_cons_self
    rw [encode_cons_ascii hc.lt, List.mem_cons, not_or]
    refine ⟨fun heq => ?_, ih fun d hd => h d (List.mem_cons_of_mem _ hd)⟩
    have h1 : newline.toNat = c.toNat := by rw [heq, hc.toNat_byte]
    have h2 : newline.toNat = 0x0A := rfl
    have h3 := hc.1
    omega

end Utf8

end CecRelay
