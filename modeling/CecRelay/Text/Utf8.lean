/-!
# Bytes and UTF-8

A file, a line of a child's output or a document is a list of bytes. `decode?` reads it as UTF-8 and
refuses what the standard refuses: overlong forms, halves of surrogate pairs, values past U+10FFFF
and sequences cut short. `encode` writes characters as bytes.
-/

namespace CecRelay

/-- The contents of a file or of a stream. -/
abbrev Bytes := List UInt8

namespace Utf8

/-- A byte that continues a character, as its six payload bits. -/
def tail? (b : UInt8) : Option Nat :=
  if 0x80 ≤ b ∧ b ≤ 0xBF then some (b.toNat - 0x80) else none

/-- The characters of a text in UTF-8, or nothing when the bytes are no such text. -/
def decode? : Bytes → Option (List Char)
  | [] => some []
  | a :: r =>
    if a < 0x80 then (decode? r).map (Char.ofNat a.toNat :: ·)
    else if a < 0xC2 then none
    else match r with
      | [] => none
      | b :: r =>
        match tail? b with
        | none => none
        | some y =>
          if a < 0xE0 then (decode? r).map (Char.ofNat ((a.toNat - 0xC0) * 64 + y) :: ·)
          else match r with
            | [] => none
            | c :: r =>
              match tail? c with
              | none => none
              | some z =>
                if a < 0xF0 then
                  let n := ((a.toNat - 0xE0) * 64 + y) * 64 + z
                  if n < 0x800 ∨ (0xD800 ≤ n ∧ n ≤ 0xDFFF) then none
                  else (decode? r).map (Char.ofNat n :: ·)
                else match r with
                  | [] => none
                  | d :: r =>
                    match tail? d with
                    | none => none
                    | some w =>
                      let n := (((a.toNat - 0xF0) * 64 + y) * 64 + z) * 64 + w
                      if a > 0xF4 ∨ n < 0x10000 ∨ 0x10FFFF < n then none
                      else (decode? r).map (Char.ofNat n :: ·)

/-- The bytes of a text. -/
def encode (s : List Char) : Bytes := s.flatMap String.utf8EncodeChar

/-- The bytes of a string. -/
def ofString (s : String) : Bytes := s.toUTF8.toList

/-- The string in the bytes, if they are UTF-8. -/
def toString? (b : Bytes) : Option String := (decode? b).map String.ofList

@[simp] theorem decode?_nil : decode? [] = some [] := rfl

/-- A byte of ASCII is a character by itself. -/
theorem decode?_cons_ascii {a : UInt8} (h : a < 0x80) (r : Bytes) :
    decode? (a :: r) = (decode? r).map (Char.ofNat a.toNat :: ·) := by
  rw [decode?.eq_def]
  simp [h]

end Utf8
end CecRelay
