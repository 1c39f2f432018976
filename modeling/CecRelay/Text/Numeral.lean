/-!
# Reading unsigned numbers

A numeral is an optional plus sign and one or more digits of the radix, leading zeros allowed. The
digits are taken from the left, and the first fault met is the one reported: a character that is
no digit, or a value that has grown past the largest one wanted. A minus sign is no digit.
-/

namespace CecRelay.Text

/-- Why a text is no number of the wanted range. -/
inductive NumeralError
  /-- There is no text at all. -/
  | empty
  /-- A character is no digit, or only a sign is there. -/
  | invalidDigit
  /-- The value is past the largest one wanted. -/
  | tooLarge
  deriving DecidableEq, Repr

/-- The wording of the fault in a warning. -/
def NumeralError.message : NumeralError → String
  | .empty => "cannot parse integer from empty string"
  | .invalidDigit => "invalid digit found in string"
  | .tooLarge => "number too large to fit in target type"

/-- The value of a digit, letters counting on from ten in either case. -/
def digitValue? (radix : Nat) (c : Char) : Option Nat :=
  let value :=
    if '0' ≤ c ∧ c ≤ '9' then c.toNat - '0'.toNat
    else if 'a' ≤ c ∧ c ≤ 'z' then c.toNat - 'a'.toNat + 10
    else if 'A' ≤ c ∧ c ≤ 'Z' then c.toNat - 'A'.toNat + 10
    else radix
  if value < radix then some value else none

/-- The value of the digits in front of `value`. -/
def readDigits (radix max : Nat) (value : Nat) : List Char → Except NumeralError Nat
  | [] => .ok value
  | c :: s =>
    match digitValue? radix c with
    | none => .error .invalidDigit
    | some d =>
      if value * radix + d ≤ max then readDigits radix max (value * radix + d) s
      else .error .tooLarge

/-- The number a text stands for, if it is at most `max`. -/
def readNumeral (radix max : Nat) : List Char → Except NumeralError Nat
  | [] => .error .empty
  | ['+'] => .error .invalidDigit
  | '+' :: s => readDigits radix max 0 s
  | s => readDigits radix max 0 s

/-- A number of eight bits. -/
def readByte (radix : Nat) (s : List Char) : Except NumeralError UInt8 :=
  (readNumeral radix 0xFF s).map UInt8.ofNat

/-- A number of sixteen bits, in decimal. -/
def readUInt16 (s : List Char) : Except NumeralError UInt16 :=
  (readNumeral 10 0xFFFF s).map UInt16.ofNat

/-- A number of thirty-two bits, in decimal. -/
def readUInt32 (s : List Char) : Except NumeralError UInt32 :=
  (readNumeral 10 0xFFFFFFFF s).map UInt32.ofNat

/-- A decimal digit. -/
def isDigit (c : Char) : Bool := '0' ≤ c && c ≤ '9'

/-- The value of a run of decimal digits; other characters count as nothing. -/
def decimalValue (s : List Char) : Nat :=
  s.foldl (fun value c => value * 10 + (c.toNat - '0'.toNat)) 0

/-- A value in lower-case hexadecimal, without leading zeros. -/
def hexText (n : Nat) : String := String.ofList (Nat.toDigits 16 n)

/-- A value in decimal, padded with zeros to at least `width` digits. -/
def padded (width n : Nat) : String :=
  let digits := Nat.toDigits 10 n
  String.ofList (List.replicate (width - digits.length) '0' ++ digits)

/-- Nothing past the bound is ever read. -/
theorem readDigits_le {radix max : Nat} {s : List Char} {value n : Nat} (hv : value ≤ max)
    (h : readDigits radix max value s = .ok n) : n ≤ max := by
  induction s generalizing value with
  | nil => simp [readDigits] at h; omega
  | cons c s ih =>
    unfold readDigits at h
    split at h
    · simp at h
    · split at h
      · exact ih ‹_› h
      · simp at h

end CecRelay.Text
