import CecRelay.Text.Blank
import CecRelay.Text.Search
import CecRelay.Text.Numeral
import CecRelay.Time.Calendar

/-!
# Points in time as text

A stamp is a point in time in UTC. It is written `2024-05-06T07:08:09.123Z`, with as many of three,
six or nine digits of the fraction as are needed and none when it is zero; a year of more than four
digits or before year zero carries its sign.

Reading takes more than is written: blanks before every number and around the marks between them,
numbers with fewer digits, one of `T`, `t` and a blank between day and time, and an offset from UTC,
which moves the stamp. Second 60 is a leap second.
-/

namespace CecRelay.Time

/-- A point in time in UTC. -/
structure Stamp where
  /-- The day. -/
  day : Day
  /-- The hour. -/
  hour : Nat
  /-- The minute. -/
  minute : Nat
  /-- The second, 60 for a leap second. -/
  second : Nat
  /-- The fraction of the second, in nanoseconds. -/
  nanos : Nat
  deriving DecidableEq, Repr

namespace Stamp

/-- The stamp of a clock that counts seconds from the epoch. -/
def ofClock (seconds nanos : Nat) : Stamp :=
  ⟨.afterEpoch (seconds / 86400), seconds / 3600 % 24, seconds / 60 % 60, seconds % 60, nanos⟩

/-! ### Writing -/

/-- The year as text. -/
def yearText (year : Int) : String :=
  if 0 ≤ year ∧ year ≤ 9999 then Text.padded 4 year.toNat
  else if 0 ≤ year then "+" ++ Text.padded 4 year.toNat
  else "-" ++ Text.padded 4 year.natAbs

/-- The fraction with its point, in groups of three digits. -/
def fractionText (nanos : Nat) : String :=
  if nanos = 0 then ""
  else if nanos % 1000000 = 0 then "." ++ Text.padded 3 (nanos / 1000000)
  else if nanos % 1000 = 0 then "." ++ Text.padded 6 (nanos / 1000)
  else "." ++ Text.padded 9 nanos

/-- The stamp as text. -/
def text (t : Stamp) : String :=
  yearText t.day.year ++ "-" ++ Text.padded 2 t.day.month ++ "-" ++ Text.padded 2 t.day.day ++
    "T" ++ Text.padded 2 t.hour ++ ":" ++ Text.padded 2 t.minute ++ ":" ++
    Text.padded 2 t.second ++ fractionText t.nanos ++ "Z"

/-! ### Reading -/

/-- The longest run of digits at the start of a text, of at most `width`, and what follows it. -/
def digits (width : Nat) (s : List Char) : List Char × List Char :=
  let run := (s.take width).takeWhile Text.isDigit
  (run, s.drop run.length)

/-- A number of at most `width` digits, blanks in front passed over. -/
def number? (width : Nat) (s : List Char) : Option (Nat × List Char) :=
  match digits width (Text.trimStart s) with
  | ([], _) => none
  | (run, rest) => some (Text.decimalValue run, rest)

/-- A number of two digits between `low` and `high`. -/
def field? (low high : Nat) (s : List Char) : Option (Nat × List Char) := do
  let (n, s) ← number? 2 s
  if low ≤ n ∧ n ≤ high then return (n, s) else none

/-- A year: up to four digits, or any number of them after a sign. -/
def year? (s : List Char) : Option (Int × List Char) :=
  match Text.trimStart s with
  | '-' :: s => signed (- ·) s
  | '+' :: s => signed id s
  | s => (number? 4 s).map fun (n, s) => (Int.ofNat n, s)
where
  /-- The digits right after the sign. -/
  signed (sign : Int → Int) (s : List Char) : Option (Int × List Char) :=
    match digits s.length s with
    | ([], _) => none
    | (run, rest) => some (sign (Int.ofNat (Text.decimalValue run)), rest)

/-- What follows the mark `c`, blanks in front passed over. -/
def mark? (c : Char) (s : List Char) : Option (List Char) :=
  match Text.trimStart s with
  | d :: s => if d = c then some s else none
  | [] => none

/-- The fraction of the second: nine digits count, more are passed over. -/
def fraction? (s : List Char) : Option (Nat × List Char) :=
  match s with
  | '.' :: s =>
    match digits 9 s with
    | ([], _) => none
    | (run, rest) =>
      some (Text.decimalValue run * Nat.pow 10 (9 - run.length), rest.dropWhile Text.isDigit)
  | s => some (0, s)

/-- A number of exactly two digits. -/
def twoDigits? : List Char → Option (Nat × List Char)
  | a :: b :: s =>
    if Text.isDigit a ∧ Text.isDigit b then some (Text.decimalValue [a, b], s) else none
  | _ => none

/-- The sign of an offset; true for one to the west. -/
def offsetSign? : List Char → Option (Bool × List Char)
  | '+' :: s => some (false, s)
  | '-' :: s => some (true, s)
  | '\u2212' :: s => some (true, s)
  | _ => none

/-- An offset from UTC in minutes, less than a day. -/
def offset? (s : List Char) : Option (Int × List Char) :=
  match s with
  | 'Z' :: s => some (0, s)
  | 'z' :: s => some (0, s)
  | s =>
    if (s.take 3).map Char.toUpper = ['U', 'T', 'C'] then some (0, s.drop 3)
    else do
      let (west, s) ← offsetSign? s
      let (hours, s) ← twoDigits? s
      let (minutes, s) ← twoDigits? (s.dropWhile fun c => c == ':' || Text.isBlank c)
      let total := hours * 60 + minutes
      if 59 < minutes ∨ 24 * 60 ≤ total then none
      else return (if west then -Int.ofNat total else Int.ofNat total, s)

/-- The stamp whose clock shows `minutes` less, no more than a day. -/
def earlier? (t : Stamp) (minutes : Int) : Option Stamp :=
  let clock := (60 * t.hour + t.minute : Int) - minutes
  let day := if clock < 0 then t.day.prev else if 24 * 60 ≤ clock then t.day.next else t.day
  let clock := (clock % (24 * 60)).toNat
  if day.valid then some { t with day := day, hour := clock / 60, minute := clock % 60 } else none

/-- The separator between day and time. -/
def separator? : List Char → Option (List Char)
  | 'T' :: s => some s
  | 't' :: s => some s
  | ' ' :: s => some s
  | _ => none

/-- The stamp a text stands for. -/
def read? (s : List Char) : Option Stamp := do
  let (year, s) ← year? s
  let s ← mark? '-' s
  let (month, s) ← field? 1 12 s
  let s ← mark? '-' s
  let (day, s) ← field? 1 31 s
  let s ← separator? s
  let (hour, s) ← field? 0 23 s
  let s ← mark? ':' s
  let (minute, s) ← field? 0 59 s
  let s ← mark? ':' s
  let (second, s) ← field? 0 60 s
  let (nanos, s) ← fraction? s
  let (offset, s) ← offset? (Text.trimStart s)
  if Text.trimStart s = [] ∧ (⟨year, month, day⟩ : Day).valid then
    earlier? ⟨⟨year, month, day⟩, hour, minute, second, nanos⟩ offset
  else none

/-- The stamp in a string. -/
def ofString? (s : String) : Option Stamp := read? s.toList

end Stamp
end CecRelay.Time
