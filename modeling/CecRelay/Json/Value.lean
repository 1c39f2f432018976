import CecRelay.Json.Doc
import CecRelay.Decimal.Shortest
import CecRelay.Text.NameTable

/-!
# JSON values

A value is a document whose numbers have been read: natural numbers and negative integers of
sixty-four bits as they are, all else in double precision. The members of a record are sorted by
name, and the last of two members with one name is kept. A document nested more deeply than
`maxDepth` is no value, nor is one with a string that is no text or a number past the largest
float.

Values are written without blanks. A float is written positionally when its first digit stands at
a power of ten between `-5` and `15`, always with a point, and with an exponent otherwise.
-/

namespace CecRelay.Json

/-- A number. -/
inductive Number
  /-- A natural number below `2^64`. -/
  | nat (n : Nat)
  /-- The integer `-n`, not below `-2^63`; `n` is not zero. -/
  | negative (n : Nat)
  /-- Any other number, as near as the reading gets. -/
  | float (x : Float)

/-- A value. -/
inductive Value
  /-- Nothing. -/
  | null
  /-- A truth value. -/
  | bool (b : Bool)
  /-- A number. -/
  | number (n : Number)
  /-- A text. -/
  | text (s : String)
  /-- A list. -/
  | list (items : List Value)
  /-- A record, its members sorted by name. -/
  | record (members : List (String × Value))

/-- The deepest nesting of lists and records. -/
def maxDepth : Nat := 127

/-! ### Reading numbers -/

/-- The significand kept from the digits, as many as fit in sixty-four bits, and how many digits
were left out. -/
def significand (value : Nat) : List Nat → Nat × Nat
  | [] => (value, 0)
  | d :: ds => if value * 10 + d < 0x10000000000000000 then significand (value * 10 + d) ds
    else (value, ds.length + 1)

/-- The float `f · 10^e`, by one multiplication or division, or by several when the power itself is
no float. None when the result is infinite. -/
def scale : Nat → Float → Int → Option Float
  | 0, _, _ => none
  | fuel + 1, f, e =>
    if e.natAbs ≤ 308 then
      let power := Float.ofScientific 1 false e.natAbs
      if 0 ≤ e then
        let g := f * power
        if g.isInf then none else some g
      else some (f / power)
    else if f == 0 then some f
    else if 0 ≤ e then none
    else scale fuel (f / Float.ofScientific 1 false 308) (e + 308)

/-- The value of an exponent's digits, held at the largest of thirty-two bits; the flag says that it
has gone past. -/
def exponentValue (ds : List Nat) : Nat × Bool :=
  let value := ds.foldl (fun value d => min (value * 10 + d) 0x80000000) 0
  (value, value ≥ 0x80000000)

/-- The float of a numeral without its sign. The digits after the point go on filling the
significand even when digits before the point have been left out; of those only the number counts,
which goes into the power of ten. -/
def Numeral.magnitude? (n : Numeral) : Option Float :=
  let (whole, skipped) := significand 0 n.whole
  let (value, left) := significand whole n.fraction
  let shift : Int := skipped - (n.fraction.length - left : Nat)
  match n.exponent with
  | none => scale 5 (Float.ofNat value) shift
  | some (negative, ds) =>
    match exponentValue ds with
    | (_, true) => if value ≠ 0 ∧ !negative then none else some 0
    | (e, false) =>
      let power := if negative then shift - e else shift + e
      scale (power.natAbs / 308 + 2) (Float.ofNat value) power

/-- The number of a numeral. -/
def Numeral.number? (n : Numeral) : Option Number :=
  let value := n.whole.foldl (fun value d => value * 10 + d) 0
  if n.fraction = [] ∧ n.exponent = none ∧ value < 0x10000000000000000 ∧ !n.negative then
    some (.nat value)
  else if n.fraction = [] ∧ n.exponent = none ∧ n.negative ∧ 0 < value ∧
      value ≤ 0x8000000000000000 then
    some (.negative value)
  else n.magnitude?.map fun x => .float (if n.negative then -x else x)

/-! ### Reading values -/

mutual

/-- The value of a document nested at most `depth` deep. -/
def Value.ofDoc? : Nat → Doc → Option Value
  | _, .null => some .null
  | _, .bool b => some (.bool b)
  | _, .number n => n.number?.map .number
  | _, .string ps => (Piece.text? ps).map .text
  | 0, .list _ => none
  | depth + 1, .list items => (Value.ofItems? depth items).map .list
  | 0, .record _ => none
  | depth + 1, .record members => (Value.ofMembers? depth members []).map .record

/-- The values of the items of a list. -/
def Value.ofItems? : Nat → List Doc → Option (List Value)
  | _, [] => some []
  | depth, item :: items => do
    let v ← Value.ofDoc? depth item
    let vs ← Value.ofItems? depth items
    return v :: vs

/-- The values of the members of a record, put after those already read. -/
def Value.ofMembers? : Nat → List (List Piece × Doc) → List (String × Value) →
    Option (List (String × Value))
  | _, [], read => some read
  | depth, (name, content) :: members, read => do
    let name ← Piece.text? name
    let v ← Value.ofDoc? depth content
    Value.ofMembers? depth members (NameTable.insert name v read)

end

/-- The value in the bytes. -/
def Value.ofBytes? (bytes : Bytes) : Option Value := (Doc.ofBytes? bytes).bind (Value.ofDoc? maxDepth)

instance : HasShape Value where
  shape
    | .null => .null
    | .bool b => .bool b
    | .number (.nat n) => .nat n
    | .number _ => .other
    | .text s => .text s
    | .list items => .list items
    | .record members => .record members
  isUnit
    | .null => true
    | _ => false

/-! ### Writing -/

/-- The escape of a character in a string, or the character itself. -/
def quotedChar (c : Char) : List Char :=
  if c = '"' then ['\\', '"']
  else if c = '\\' then ['\\', '\\']
  else if c = '\n' then ['\\', 'n']
  else if c = '\r' then ['\\', 'r']
  else if c = '\t' then ['\\', 't']
  else if c.toNat = 0x08 then ['\\', 'b']
  else if c.toNat = 0x0C then ['\\', 'f']
  else if c.toNat < 0x20 then
    ['\\', 'u', '0', '0'] ++ (Text.padded 1 (c.toNat / 16)).toList ++ [Nat.digitChar (c.toNat % 16)]
  else [c]

/-- A string in quotes. -/
def quoted (s : String) : String :=
  String.ofList ('"' :: (s.toList.flatMap quotedChar ++ ['"']))

/-- A decimal in positional notation, always with a point. -/
def positional (digits : List Char) (exponent : Int) : List Char :=
  if 0 ≤ exponent then digits ++ List.replicate exponent.toNat '0' ++ ['.', '0']
  else
    let places := (-exponent).toNat
    if places < digits.length then
      digits.take (digits.length - places) ++ '.' :: digits.drop (digits.length - places)
    else '0' :: '.' :: (List.replicate (places - digits.length) '0' ++ digits)

/-- A decimal with an exponent. -/
def exponential (digits : List Char) (first : Int) : List Char :=
  let front := match digits with
    | [] => []
    | [d] => [d]
    | d :: ds => d :: '.' :: ds
  let sign := if 0 ≤ first then ['e', '+'] else ['e', '-']
  front ++ sign ++ Nat.toDigits 10 first.natAbs

/-- A finite float. -/
def floatText (x : Float) : String :=
  let sign := if x.toBits ≥ 0x8000000000000000 then ['-'] else []
  let body :=
    if x == 0 then ['0', '.', '0']
    else
      let s := Decimal.shortestOfFloat x
      let digits := Nat.toDigits 10 s.digits
      let first := s.exponent + digits.length - 1
      if -5 ≤ first ∧ first ≤ 15 then positional digits s.exponent else exponential digits first
  String.ofList (sign ++ body)

/-- A number. -/
def Number.text : Number → String
  | .nat n => toString n
  | .negative n => "-" ++ toString n
  | .float x => floatText x

/-- The texts with a comma between each two. -/
def commaSeparated : List String → String
  | [] => ""
  | [s] => s
  | s :: rest => s ++ "," ++ commaSeparated rest

mutual

/-- A value without blanks. -/
def Value.print : Value → String
  | .null => "null"
  | .bool true => "true"
  | .bool false => "false"
  | .number n => n.text
  | .text s => quoted s
  | .list items => "[" ++ commaSeparated (Value.printItems items) ++ "]"
  | .record members => "\x7b" ++ commaSeparated (Value.printMembers members) ++ "\x7d"

/-- The items of a list. -/
def Value.printItems : List Value → List String
  | [] => []
  | v :: vs => v.print :: Value.printItems vs

/-- The members of a record. -/
def Value.printMembers : List (String × Value) → List String
  | [] => []
  | (name, v) :: rest => (quoted name ++ ":" ++ v.print) :: Value.printMembers rest

end

end CecRelay.Json
