import CecRelay.Proofs.Json.Writing
import CecRelay.Queue.Cursor

/-!
# Cursors read back

A cursor's file is read back as that cursor. An offset past sixty-four bits is no cursor, and its file
counts as the cursor at the start (`Cursor.ofEntry_bytes`).
-/

namespace CecRelay

open Json Text

/-- A number of sixty-four bits is read as itself. -/
theorem Json.Numeral.number?_ofNat {n : Nat} (h : n < 0x10000000000000000) :
    (Numeral.ofNat n).number? = some (.nat n) := by
  have hv := decimalValue_toDigits n
  rw [decimalValue] at hv
  have hvalue : ((Nat.toDigits 10 n).map fun c => c.toNat - 0x30).foldl
      (fun value d => value * 10 + d) 0 = n := by
    rw [List.foldl_map]
    exact hv
  simp [Numeral.number?, Numeral.ofNat, hvalue, h]

theorem Shape.nat?_numeral (max n : Nat) :
    Shape.nat? max (Doc.number (.ofNat n)) = if n ≤ max then some n else none := by
  simp [Shape.nat?, HasShape.shape]

namespace Cursor

/-- The members of a cursor's file. -/
def parts (c : Cursor) : List Part :=
  [⟨"offset", toString c.offset, .number (.ofNat c.offset)⟩,
    ⟨"next_seq", toString c.nextSeq, .number (.ofNat c.nextSeq.toNat)⟩]

theorem good_parts (c : Cursor) : ∀ p ∈ c.parts, p.Good := by
  intro p hp
  simp only [parts, List.mem_cons, List.not_mem_nil, or_false] at hp
  rcases hp with rfl | rfl
  · exact Part.good (by decide) (Writes.nat _)
  · exact Part.good (by decide) (Writes.nat _)

theorem print_eq (c : Cursor) : c.print = recordText c.parts := by
  have h1 : Json.quoted "offset" = "\"offset\"" := by decide
  have h2 : Json.quoted "next_seq" = "\"next_seq\"" := by decide
  simp only [recordText, parts, List.map_cons, List.map_nil, commaSeparated, h1, h2]
  rw [print, ← String.toList_inj]
  simp

/-- The members of a cursor's file, read by their names. -/
theorem ofDoc?_parts (c : Cursor) :
    ofDoc? (.record (recordMembers c.parts)) =
      if c.offset ≤ 0xFFFFFFFFFFFFFFFF then some c else none := by
  have hm : Shape.members? members (Doc.record (recordMembers c.parts)) =
      some [.number (.ofNat c.offset), .number (.ofNat c.nextSeq.toNat)] := by
    simp only [Shape.members?, shape_record c.good_parts]
    rfl
  have hseq : c.nextSeq.toNat ≤ 0xFFFFFFFFFFFFFFFF := Nat.le_of_lt_succ c.nextSeq.toNat_lt
  have hback : UInt64.ofNat c.nextSeq.toNat = c.nextSeq := UInt64.ofNat_toNat
  rw [ofDoc?, hm]
  simp only [Option.bind_eq_bind, Option.bind_some, Shape.nat?_numeral, if_pos hseq, hback]
  split <;> rfl

theorem ofBytes?_bytes (c : Cursor) :
    ofBytes? c.bytes = if c.offset ≤ 0xFFFFFFFFFFFFFFFF then some c else none := by
  rw [ofBytes?, bytes, print_eq, (Writes.record c.good_parts).ofBytes?, Option.bind_some, ofDoc?_parts]

/-- The file of a cursor is read back. -/
theorem ofEntry_bytes (c : Cursor) :
    ofEntry (some (.file c.bytes)) = .ok (if c.offset ≤ 0xFFFFFFFFFFFFFFFF then c else {}) := by
  have ht : Utf8.decode? c.bytes = some c.print.toList := Utf8.decode?_ofString c.print
  rw [ofEntry, ht]
  simp only [ofBytes?_bytes]
  split <;> rfl

end Cursor
end CecRelay
