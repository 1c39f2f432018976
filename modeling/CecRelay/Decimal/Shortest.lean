/-!
# The shortest decimal that reads back

A positive binary fraction `m · 2^q` is read from every decimal in an interval around it: half a
step of its last binary place to each side, or a quarter step below when `m` is the smallest
significand of its binade. `shortest` finds, for one digit, two digits and so on, the two
neighbours of the value on the grid of decimals with that many digits, and stops at the first grid
with a neighbour in the interval; of two such neighbours it takes the nearer one.
-/

namespace CecRelay.Decimal

/-- The decimal `digits · 10^exponent`. -/
structure Scaled where
  /-- The significant digits as a number. -/
  digits : Nat
  /-- The power of ten. -/
  exponent : Int
  deriving DecidableEq, Repr

/-- A number of decimal digits without trailing zeros, the zeros moved into the exponent. Every
step takes a zero away, so `digits` steps are enough. -/
def Scaled.normal (s : Scaled) : Scaled :=
  go s.digits s
where
  /-- Takes at most `fuel` zeros away. -/
  go : Nat → Scaled → Scaled
    | 0, s => s
    | fuel + 1, s =>
      if s.digits ≠ 0 ∧ s.digits % 10 = 0 then go fuel ⟨s.digits / 10, s.exponent + 1⟩ else s

/-- A positive ratio of natural numbers. -/
structure Ratio where
  /-- The numerator. -/
  num : Nat
  /-- The denominator, not zero. -/
  den : Nat

/-- The ratio `n · 2^q`. -/
def Ratio.ofBinary (n : Nat) (q : Int) : Ratio :=
  if 0 ≤ q then ⟨n * Nat.pow 2 q.toNat, 1⟩ else ⟨n, Nat.pow 2 (-q).toNat⟩

/-- The ratio `n · 10^k`. -/
def Ratio.ofDecimal (s : Scaled) : Ratio :=
  if 0 ≤ s.exponent then ⟨s.digits * Nat.pow 10 s.exponent.toNat, 1⟩
  else ⟨s.digits, Nat.pow 10 (-s.exponent).toNat⟩

/-- At most. -/
def Ratio.le (a b : Ratio) : Bool := a.num * b.den ≤ b.num * a.den

/-- Less than. -/
def Ratio.lt (a b : Ratio) : Bool := a.num * b.den < b.num * a.den

/-- The integer part of `a / 10^k`. -/
def Ratio.units (a : Ratio) (k : Int) : Nat :=
  if 0 ≤ k then a.num / (a.den * Nat.pow 10 k.toNat)
  else a.num * Nat.pow 10 (-k).toNat / a.den

/-- The decimals that are read as one binary fraction. -/
structure Interval where
  /-- The lower end. -/
  low : Ratio
  /-- The upper end. -/
  high : Ratio
  /-- The ends belong to it. -/
  closed : Bool

/-- A decimal of the interval. -/
def Interval.contains (i : Interval) (a : Ratio) : Bool :=
  if i.closed then i.low.le a && a.le i.high else i.low.lt a && a.lt i.high

/-- Which of two neighbours is nearer to the value: twice the value against their sum. -/
def nearer (value : Ratio) (below above : Scaled) : Scaled :=
  let k := below.exponent
  let twice : Ratio := ⟨2 * value.num, value.den⟩
  let sum := Ratio.ofDecimal ⟨below.digits + above.digits, k⟩
  if twice.lt sum then below
  else if sum.lt twice then above
  else if below.digits % 2 = 0 then below else above

/-- The first grid with a neighbour of the value in the interval, among those with unit `10^k`,
`10^(k-1)` and so on. -/
def search (value : Ratio) (i : Interval) : Nat → Int → Option Scaled
  | 0, _ => none
  | fuel + 1, k =>
    let n := value.units k
    let below : Scaled := ⟨n, k⟩
    let above : Scaled := ⟨n + 1, k⟩
    match 0 < n && i.contains (Ratio.ofDecimal below), i.contains (Ratio.ofDecimal above) with
    | true, true => some (nearer value below above)
    | true, false => some below
    | false, true => some above
    | false, false => search value i fuel (k - 1)

/-- The power of ten of the first digit of a value of at least one unit of `10^k`, going up from
`k` by at most `fuel` steps. -/
def leading (value : Ratio) : Nat → Int → Int
  | 0, k => k
  | fuel + 1, k => if value.units (k + 1) = 0 then k else leading value fuel (k + 1)

/-- The shortest decimal that reads back as `m · 2^q`, where `closer` says that the binary fraction
below is only half a step away. -/
def shortest (m : Nat) (q : Int) (closer : Bool) : Scaled :=
  let value := Ratio.ofBinary (4 * m) (q - 2)
  let i : Interval :=
    { low := Ratio.ofBinary (4 * m - (if closer then 1 else 2)) (q - 2)
      high := Ratio.ofBinary (4 * m + 2) (q - 2)
      closed := m % 2 == 0 }
  let top := leading value 700 (-330)
  ((search value i 18 (top + 1)).getD ⟨m, q⟩).normal

/-- The shortest decimal that reads back as a finite positive number of double precision. -/
def shortestOfFloat (x : Float) : Scaled :=
  let bits := x.toBits.toNat % 0x8000000000000000
  let fraction := bits % 0x10000000000000
  let biased := bits / 0x10000000000000
  if biased = 0 then shortest fraction (-1074) false
  else shortest (0x10000000000000 + fraction) (Int.ofNat biased - 1075) (fraction == 0 && biased != 1)

end CecRelay.Decimal
