import CecRelay.Text.Utf8
import CecRelay.Text.Numeral

/-!
# Tokens of a JSON document

A document is cut into brackets, commas, colons, the three bare words, numerals and strings. A
string is kept as the pieces between its quotes, because what counts as text is asked only of the
strings somebody reads: bytes outside UTF-8 and halves of surrogate pairs are faults there and
nowhere else. A numeral is kept as its digits for the same reason.
-/

namespace CecRelay.Json

/-- A numeral as written. -/
structure Numeral where
  /-- A minus sign stands in front. -/
  negative : Bool
  /-- The digits before the point: one zero, or no zero in front. -/
  whole : List Nat
  /-- The digits after the point; none when there is no point. -/
  fraction : List Nat
  /-- The sign and the digits of the exponent. -/
  exponent : Option (Bool × List Nat)
  deriving DecidableEq, Repr

/-- A piece of a string between its quotes. -/
inductive Piece
  /-- A byte that stands for itself, or the one an escape stands for. -/
  | byte (b : UInt8)
  /-- A unit of UTF-16 written as four hexadecimal digits. -/
  | unit (n : Nat)
  deriving DecidableEq, Repr

/-- A token. -/
inductive Token
  /-- Opening bracket of a list. -/
  | listOpen
  /-- Closing bracket of a list. -/
  | listClose
  /-- Opening bracket of a record. -/
  | recordOpen
  /-- Closing bracket of a record. -/
  | recordClose
  /-- Comma between items. -/
  | comma
  /-- Colon between a name and its content. -/
  | colon
  /-- The word for nothing. -/
  | null
  /-- One of the two truth values. -/
  | bool (b : Bool)
  /-- A numeral. -/
  | numeral (n : Numeral)
  /-- A string. -/
  | string (pieces : List Piece)
  deriving DecidableEq, Repr

/-- The blanks that may stand between tokens. -/
def isSpace (b : UInt8) : Bool := b == 0x20 || b == 0x09 || b == 0x0A || b == 0x0D

/-- The value of a decimal digit. -/
def digit? (b : UInt8) : Option Nat :=
  if 0x30 ≤ b ∧ b ≤ 0x39 then some (b.toNat - 0x30) else none

/-- The digits at the start of the bytes, and what follows them. -/
def digits : Bytes → List Nat × Bytes
  | [] => ([], [])
  | b :: r =>
    match digit? b with
    | some d => let (ds, rest) := digits r; (d :: ds, rest)
    | none => ([], b :: r)

/-- The digits before the point. A zero stands alone. -/
def wholePart? : Bytes → Option (List Nat × Bytes)
  | 0x30 :: r => some ([0], r)
  | r =>
    match digits r with
    | ([], _) => none
    | parts => some parts

/-- The point and the digits after it, if a point is there. -/
def fractionPart? : Bytes → Option (List Nat × Bytes)
  | 0x2E :: r =>
    match digits r with
    | ([], _) => none
    | parts => some parts
  | r => some ([], r)

/-- The digits of an exponent, of which there must be one. -/
def exponentDigits? (negative : Bool) (r : Bytes) : Option (Option (Bool × List Nat) × Bytes) :=
  match digits r with
  | ([], _) => none
  | (ds, rest) => some (some (negative, ds), rest)

/-- The exponent, if there is one. -/
def exponentPart? : Bytes → Option (Option (Bool × List Nat) × Bytes)
  | [] => some (none, [])
  | e :: r =>
    if e == 0x65 || e == 0x45 then
      match r with
      | 0x2B :: r => exponentDigits? false r
      | 0x2D :: r => exponentDigits? true r
      | r => exponentDigits? false r
    else some (none, e :: r)

/-- A numeral after its sign. -/
def unsigned? (negative : Bool) (r : Bytes) : Option (Numeral × Bytes) := do
  let (whole, r) ← wholePart? r
  let (fraction, r) ← fractionPart? r
  let (exponent, r) ← exponentPart? r
  return (⟨negative, whole, fraction, exponent⟩, r)

/-- The numeral at the start of the bytes. -/
def numeral? : Bytes → Option (Numeral × Bytes)
  | 0x2D :: r => unsigned? true r
  | r => unsigned? false r

/-- The value of a hexadecimal digit. -/
def hexDigit? (b : UInt8) : Option Nat := Text.digitValue? 16 (Char.ofNat b.toNat)

/-- The byte an escape of one letter stands for. -/
def escape? : UInt8 → Option UInt8
  | 0x22 => some 0x22
  | 0x5C => some 0x5C
  | 0x2F => some 0x2F
  | 0x62 => some 0x08
  | 0x66 => some 0x0C
  | 0x6E => some 0x0A
  | 0x72 => some 0x0D
  | 0x74 => some 0x09
  | _ => none

/-- The pieces of a string up to its closing quote, and what follows the quote. -/
def pieces? : Bytes → Option (List Piece × Bytes)
  | [] => none
  | 0x22 :: r => some ([], r)
  | 0x5C :: 0x75 :: a :: b :: c :: d :: r => do
    let w ← hexDigit? a
    let x ← hexDigit? b
    let y ← hexDigit? c
    let z ← hexDigit? d
    let (ps, rest) ← pieces? r
    return (.unit (((w * 16 + x) * 16 + y) * 16 + z) :: ps, rest)
  | 0x5C :: e :: r => do
    let b ← escape? e
    let (ps, rest) ← pieces? r
    return (.byte b :: ps, rest)
  | b :: r =>
    if b < 0x20 ∨ b = 0x5C then none
    else (pieces? r).map fun (ps, rest) => (.byte b :: ps, rest)

/-- What follows a bare word, if it stands at the start of the bytes. -/
def word? (w : Bytes) (r : Bytes) : Option Bytes :=
  if w.isPrefixOf r then some (r.drop w.length) else none

/-- The token that starts with byte `b`, and what follows it. -/
def token? (b : UInt8) (r : Bytes) : Option (Token × Bytes) :=
  match b with
  | 0x5B => some (.listOpen, r)
  | 0x5D => some (.listClose, r)
  | 0x7B => some (.recordOpen, r)
  | 0x7D => some (.recordClose, r)
  | 0x2C => some (.comma, r)
  | 0x3A => some (.colon, r)
  | 0x22 => (pieces? r).map fun (ps, rest) => (.string ps, rest)
  | 0x6E => (word? [0x75, 0x6C, 0x6C] r).map (.null, ·)
  | 0x74 => (word? [0x72, 0x75, 0x65] r).map (.bool true, ·)
  | 0x66 => (word? [0x61, 0x6C, 0x73, 0x65] r).map (.bool false, ·)
  | b => (numeral? (b :: r)).map fun (n, rest) => (.numeral n, rest)

/-- The tokens of the bytes, at most `fuel` of them and the blanks between them. -/
def tokensWithin : Nat → Bytes → Option (List Token)
  | _, [] => some []
  | 0, _ :: _ => none
  | fuel + 1, b :: r =>
    if isSpace b then tokensWithin fuel r
    else (token? b r).bind fun (t, rest) => (tokensWithin fuel rest).map (t :: ·)

/-- The tokens of a document. Every token and every blank takes a byte, so as many steps as there
are bytes are enough. -/
def tokens? (r : Bytes) : Option (List Token) := tokensWithin r.length r

/-- The bytes of a string's text; none when it holds half of a surrogate pair. -/
def Piece.bytes? : List Piece → Option Bytes
  | [] => some []
  | .byte b :: ps => (bytes? ps).map (b :: ·)
  | .unit n :: ps =>
    if n < 0xD800 ∨ 0xDFFF < n then (bytes? ps).map (String.utf8EncodeChar (Char.ofNat n) ++ ·)
    else if 0xDC00 ≤ n then none
    else match ps with
      | .unit m :: ps =>
        if 0xDC00 ≤ m ∧ m ≤ 0xDFFF then
          let c := Char.ofNat ((n - 0xD800) * 0x400 + (m - 0xDC00) + 0x10000)
          (bytes? ps).map (String.utf8EncodeChar c ++ ·)
        else none
      | _ => none

/-- The text of a string, if it is one. -/
def Piece.text? (ps : List Piece) : Option String := (Piece.bytes? ps).bind Utf8.toString?

end CecRelay.Json
