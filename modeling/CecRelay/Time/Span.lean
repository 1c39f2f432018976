import CecRelay.Text.Blank
import CecRelay.Text.Numeral

/-!
# Lengths of time as text

A span is a number of nanoseconds. As text it is a list of numbers, each with its unit: `1h 30m`,
`250ms`, `1.5s`. Blanks may stand around and even inside a number, and a digit right after a unit
starts the next number. A fraction must come out whole, in nanoseconds up to minutes and in seconds
from hours on. Whole seconds are kept in sixty-four bits, and every step that would pass them is a
fault. One such step is not looked out for: nanoseconds that come to a second exactly (`Flaw.carry`).
-/

namespace CecRelay.Time

/-- A length of time. -/
structure Span where
  /-- The length in nanoseconds. -/
  nanos : Nat
  deriving DecidableEq, Repr

/-- A unit of time. -/
inductive TimeUnit
  /-- A nanosecond. -/
  | nanosecond
  /-- A microsecond. -/
  | microsecond
  /-- A millisecond. -/
  | millisecond
  /-- A second. -/
  | second
  /-- A minute. -/
  | minute
  /-- An hour. -/
  | hour
  /-- A day. -/
  | day
  /-- A week. -/
  | week
  /-- A twelfth of a year. -/
  | month
  /-- A year of 365 days and a quarter. -/
  | year
  deriving DecidableEq, Repr

namespace TimeUnit

/-- The spellings of the units. -/
def spellings : List (String × TimeUnit) :=
  [("nanos", .nanosecond), ("nsec", .nanosecond), ("ns", .nanosecond),
   ("usec", .microsecond), ("us", .microsecond), ("µs", .microsecond),
   ("millis", .millisecond), ("msec", .millisecond), ("ms", .millisecond),
   ("seconds", .second), ("second", .second), ("secs", .second), ("sec", .second), ("s", .second),
   ("minutes", .minute), ("minute", .minute), ("min", .minute), ("mins", .minute), ("m", .minute),
   ("hours", .hour), ("hour", .hour), ("hr", .hour), ("hrs", .hour), ("h", .hour),
   ("days", .day), ("day", .day), ("d", .day),
   ("weeks", .week), ("week", .week), ("wk", .week), ("wks", .week), ("w", .week),
   ("months", .month), ("month", .month), ("M", .month),
   ("years", .year), ("year", .year), ("yr", .year), ("yrs", .year), ("y", .year)]

/-- The unit in nanoseconds. -/
def nanos : TimeUnit → Nat
  | nanosecond => 1
  | microsecond => 1000
  | millisecond => 1000000
  | second => 1000000000
  | minute => 60000000000
  | hour => 3600000000000
  | day => 86400000000000
  | week => 604800000000000
  | month => 2630016000000000
  | year => 31557600000000000

/-- The grain in which a fraction of the unit must come out whole, in nanoseconds; a nanosecond has
no fractions. -/
def grain? : TimeUnit → Option Nat
  | nanosecond => none
  | microsecond | millisecond | second | minute => some 1
  | hour | day | week | month | year => some 1000000000

end TimeUnit

namespace Span

/-- The bound of the numbers kept in sixty-four bits. -/
def wordBound : Nat := 0x10000000000000000

/-- A whole number of milliseconds. -/
def ofMillis (n : Nat) : Span := ⟨n * 1000000⟩

/-- The whole milliseconds of a span. -/
def millis (s : Span) : Nat := s.nanos / 1000000

/-! ### Reading -/

/-- A digit after the point, and how many there are. -/
structure Fraction where
  /-- The digits as a number. -/
  numerator : Nat
  /-- Ten to the number of digits. -/
  denominator : Nat
  deriving DecidableEq, Repr

/-- A letter of a unit. -/
def isUnitLetter (c : Char) : Bool :=
  ('a' ≤ c && c ≤ 'z') || ('A' ≤ c && c ≤ 'Z') || c == 'µ'

/-- The number with one more digit, if it stays in sixty-four bits. -/
def pushDigit? (n : Nat) (c : Char) : Option Nat :=
  let n := n * 10 + (c.toNat - '0'.toNat)
  if n < wordBound then some n else none

/-- The digits after the point up to the unit, blanks passed over; at least one. -/
def fraction? (f : Fraction) : List Char → Option (Fraction × List Char)
  | [] => finish f []
  | c :: s =>
    if Text.isDigit c then
      match pushDigit? f.numerator c with
      | some n => if f.denominator * 10 < wordBound then fraction? ⟨n, f.denominator * 10⟩ s else none
      | none => none
    else if Text.isBlank c then fraction? f s
    else if isUnitLetter c then finish f (c :: s)
    else none
where
  /-- The fraction, if it has digits. -/
  finish (f : Fraction) (s : List Char) : Option (Fraction × List Char) :=
    if f.denominator = 1 then none else some (f, s)

/-- The rest of a number up to its unit: the whole part, and the fraction if there is a point. -/
def number? (n : Nat) : List Char → Option (Nat × Option Fraction × List Char)
  | [] => some (n, none, [])
  | c :: s =>
    if Text.isDigit c then (pushDigit? n c).bind fun n => number? n s
    else if Text.isBlank c then number? n s
    else if isUnitLetter c then some (n, none, c :: s)
    else if c = '.' then (fraction? ⟨0, 1⟩ s).map fun (f, s) => (n, some f, s)
    else none

/-- Why a text stands for no span. -/
inductive Flaw
  /-- It is no list of numbers with units, or a step of the sum is refused. -/
  | malformed
  /-- The sum passes its bound by nanoseconds that come to a second exactly, which no step refuses. -/
  | carry
  deriving DecidableEq, Repr

/-- The span with so many seconds more. Neither they nor the sum may pass sixty-four bits. -/
def addSeconds (total count : Nat) : Except Flaw Nat :=
  if count < wordBound ∧ total / 1000000000 + count < wordBound then
    .ok (total + count * 1000000000)
  else .error .malformed

/-- The span with so many nanoseconds more. They are added to those beside the whole seconds; seconds
are taken out of that sum only when it is more than one of them. -/
def addNanos (total part : Nat) : Except Flaw Nat :=
  let beside := total % 1000000000 + part
  if wordBound ≤ beside then .error .malformed
  else if total + part < wordBound * 1000000000 then .ok (total + part)
  else .error (if beside = 1000000000 then .carry else .malformed)

/-- The span with so many whole units more. Units up to milliseconds are counted in nanoseconds, the
others in seconds. -/
def addWhole (total n : Nat) (u : TimeUnit) : Except Flaw Nat :=
  if u.nanos < 1000000000 then addNanos total (n * u.nanos)
  else addSeconds total (n * (u.nanos / 1000000000))

/-- The span with a fraction of a unit more. -/
def addFraction (total : Nat) (f : Fraction) (u : TimeUnit) : Except Flaw Nat :=
  match u.grain? with
  | none => .error .malformed
  | some grain =>
    let scaled := f.numerator * (u.nanos / grain)
    if wordBound ≤ scaled ∨ scaled % f.denominator ≠ 0 then .error .malformed
    else
      let count := scaled / f.denominator
      if grain = 1 then addNanos total count else addSeconds total count

/-- The span with a number of a named unit more. -/
def add (total : Nat) (n : Nat) (f : Option Fraction) (name : List Char) : Except Flaw Nat :=
  match TimeUnit.spellings.lookup (String.ofList name) with
  | none => .error .malformed
  | some u =>
    match addWhole total n u, f with
    | .ok total, some f => addFraction total f u
    | whole, _ => whole

/-- The numbers and units after the first digit `n` of a number, added to `total`. Every round takes
a character or more, so as many rounds as there are characters and one are enough. -/
def parts : Nat → Nat → Nat → List Char → Except Flaw Nat
  | 0, _, _, _ => .error .malformed
  | fuel + 1, total, n, s =>
    match number? n s with
    | none => .error .malformed
    | some (n, f, s) => do
      let name := s.takeWhile isUnitLetter
      let s := s.dropWhile isUnitLetter
      -- A unit ends at a digit, at a blank or with the text; anything else is refused before the sum.
      match s with
      | [] => add total n f name
      | c :: s =>
        if Text.isDigit c then
          parts fuel (← add total n f name) (c.toNat - '0'.toNat) s
        else if Text.isBlank c then
          let total ← add total n f name
          match Text.trimStart s with
          | [] => return total
          | d :: s =>
            if Text.isDigit d then parts fuel total (d.toNat - '0'.toNat) s else .error .malformed
        else .error .malformed

/-- The span a text stands for. -/
def read (s : List Char) : Except Flaw Span :=
  if s = ['0'] then .ok ⟨0⟩
  else match Text.trimStart s with
    | [] => .error .malformed
    | c :: rest =>
      if Text.isDigit c then (parts (s.length + 1) 0 (c.toNat - '0'.toNat) rest).map Span.mk
      else .error .malformed

/-! ### Writing -/

/-- A count with its unit, left out when zero. -/
def counted (n : Nat) (unit : String) : List String :=
  if n = 0 then [] else [toString n ++ unit]

/-- A count with a unit that takes a plural `s`, left out when zero. -/
def countedWord (n : Nat) (unit : String) : List String :=
  if n = 0 then [] else if n = 1 then [toString n ++ unit] else [toString n ++ unit ++ "s"]

/-- The span as text. -/
def text (s : Span) : String :=
  let seconds := s.nanos / 1000000000
  let nanos := s.nanos % 1000000000
  let years := seconds / 31557600
  let inYear := seconds % 31557600
  let inMonth := inYear % 2630016
  let inDay := inMonth % 86400
  let parts :=
    countedWord years "year" ++ countedWord (inYear / 2630016) "month" ++
    countedWord (inMonth / 86400) "day" ++ counted (inDay / 3600) "h" ++
    counted (inDay % 3600 / 60) "m" ++ counted (inDay % 60) "s" ++
    counted (nanos / 1000000) "ms" ++ counted (nanos / 1000 % 1000) "us" ++
    counted (nanos % 1000) "ns"
  if parts = [] then "0s" else " ".intercalate parts

end Span
end CecRelay.Time
