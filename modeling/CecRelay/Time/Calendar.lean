/-!
# Days of the calendar

Days of the Gregorian calendar, carried back and forth without end, with a year zero. Years outside
`firstYear` and `lastYear` are not used: a day there is no valid day.
-/

namespace CecRelay.Time

/-- A day. -/
structure Day where
  /-- The year, zero and below before the common era. -/
  year : Int
  /-- The month, from 1. -/
  month : Nat
  /-- The day of the month, from 1. -/
  day : Nat
  deriving DecidableEq, Repr

/-- The first year in use. -/
def firstYear : Int := -262143

/-- The last year in use. -/
def lastYear : Int := 262142

/-- A year with a twenty-ninth of February. -/
def isLeapYear (year : Int) : Bool := year % 4 == 0 && (year % 100 != 0 || year % 400 == 0)

/-- The number of days of a month. -/
def daysIn (year : Int) : Nat → Nat
  | 2 => if isLeapYear year then 29 else 28
  | 4 | 6 | 9 | 11 => 30
  | _ => 31

namespace Day

/-- The day is in the calendar and its year in use. -/
def valid (d : Day) : Bool :=
  firstYear ≤ d.year && d.year ≤ lastYear && 1 ≤ d.month && d.month ≤ 12 &&
    1 ≤ d.day && d.day ≤ daysIn d.year d.month

/-- The day after. -/
def next (d : Day) : Day :=
  if d.day < daysIn d.year d.month then { d with day := d.day + 1 }
  else if d.month < 12 then { d with month := d.month + 1, day := 1 }
  else ⟨d.year + 1, 1, 1⟩

/-- The day before. -/
def prev (d : Day) : Day :=
  if 1 < d.day then { d with day := d.day - 1 }
  else if 1 < d.month then ⟨d.year, d.month - 1, daysIn d.year (d.month - 1)⟩
  else ⟨d.year - 1, 12, 31⟩

/-- The first of January 1970, from which clocks count. -/
def epoch : Day := ⟨1970, 1, 1⟩

/-- The day so many days after the epoch. -/
def afterEpoch (days : Nat) : Day := Nat.repeat next days epoch

/-- Inside a month the day before undoes the day after. -/
theorem prev_next_of_lt {d : Day} (h : d.day < daysIn d.year d.month) (h₁ : 1 ≤ d.day) :
    d.next.prev = d := by
  have : 1 < d.day + 1 := by omega
  simp [next, prev, h, this]

end Day
end CecRelay.Time
